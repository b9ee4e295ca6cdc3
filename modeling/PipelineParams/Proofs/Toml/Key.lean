import PipelineParams.Proofs.Toml.Quoted

/-! # Keys survive being written

A key is written bare where it can be, and between quotes otherwise.  Either way it is read back
(`readKey_writeKey`), and so are several keys with dots between them (`run_writePath`), whatever
characters the keys are made of.
-/

namespace PipelineParams.Toml

variable {d : Char} {rest : List Char}

/-! ## One key -/

inductive WrittenKey (key : String) : List Char → Prop
  | bare {c : Char} {cs : List Char} : key.toList = c :: cs →
      (∀ a ∈ c :: cs, isBareChar a = true) → WrittenKey key (c :: cs)
  | quoted {form : TextForm} : form = .basic ∨ form = .literal → Fits form key.toList →
      WrittenKey key (writeForm form key.toList)

theorem writtenKey_writeKey (key : String) : WrittenKey key (writeKey key) := by
  rw [writeKey]
  split_ifs with bare control plain single
  · obtain ⟨some_char, bare⟩ := bare
    cases chars : key.toList with
    | nil => exact absurd chars some_char
    | cons c cs => exact .bare chars (List.all_eq_true.1 (chars ▸ bare))
  · exact .quoted (.inl rfl) trivial
  · exact .quoted (.inl rfl) trivial
  · refine .quoted (.inr rfl) ⟨by simpa using single, fun c member => ?_⟩
    rw [Bool.not_eq_true] at control
    exact isPrintable_of_not_isControl (by simpa using List.any_eq_false.1 control c member)
  · exact .quoted (.inl rfl) trivial

def StartsKey (c : Char) : Prop := isBareChar c = true ∨ c = '"' ∨ c = '\''

theorem exists_start_writeKey (key : String) : ∃ c cs, writeKey key = c :: cs ∧ StartsKey c := by
  have written := writtenKey_writeKey key
  generalize writeKey key = chars at written
  cases written with
  | @bare c cs chars bare => exact ⟨c, cs, rfl, .inl (bare c List.mem_cons_self)⟩
  | quoted line _ =>
    rcases line with rfl | rfl
    · exact ⟨'"', _, rfl, .inr (.inl rfl)⟩
    · exact ⟨'\'', _, rfl, .inr (.inr rfl)⟩

theorem StartsKey.ne {c e : Char} (start : StartsKey c) (notBare : isBareChar e = false)
    (notBasic : e ≠ '"') (notLiteral : e ≠ '\'') : c ≠ e := by
  rintro rfl
  rcases start with bare | quote | quote
  · cases notBare.symm.trans bare
  · exact notBasic quote
  · exact notLiteral quote

theorem StartsKey.not_isBlank {c : Char} (start : StartsKey c) : isBlank c = false := by
  have space := start.ne (by decide : isBareChar ' ' = false) (by decide) (by decide)
  have tab := start.ne (by decide : isBareChar '\t' = false) (by decide) (by decide)
  simp [isBlank, space, tab]

theorem dropBlank_writeKey (key : String) (rest : List Char) :
    dropBlank isBlank (writeKey key ++ rest) = writeKey key ++ rest := by
  obtain ⟨c, cs, written, start⟩ := exists_start_writeKey key
  rw [written, List.cons_append, dropBlank_cons start.not_isBlank]

theorem readKey_quoted {form : TextForm} {key : String} (line : form = .basic ∨ form = .literal)
    (fits : Fits form key.toList) (rest : List Char) :
    readKey (writeForm form key.toList ++ rest) = .ok (key, rest) := by
  have read := readLine_writeForm fits line rest
  have quote : ∃ q cs, writeForm form key.toList ++ rest = q :: cs ∧ (q = '"' ∨ q = '\'') := by
    rcases line with rfl | rfl
    · exact ⟨'"', _, rfl, .inl rfl⟩
    · exact ⟨'\'', _, rfl, .inr rfl⟩
  obtain ⟨q, cs, written, quote⟩ := quote
  rw [written] at read ⊢
  rw [readKey, if_pos quote, read, Except.map]
  dsimp only
  rw [String.ofList_toList]

theorem readKey_writeKey (key : String) (notBare : isBareChar d = false) :
    readKey (writeKey key ++ d :: rest) = .ok (key, d :: rest) := by
  have written := writtenKey_writeKey key
  generalize writeKey key = chars at written
  cases written with
  | @bare c cs chars bare =>
    have bareTail : ∀ a ∈ cs, isBareChar a = true :=
      fun a member => bare a (List.mem_cons_of_mem c member)
    have notQuote : ¬ (c = '"' ∨ c = '\'') := by
      rintro (rfl | rfl)
      · exact absurd (bare _ List.mem_cons_self) (by decide)
      · exact absurd (bare _ List.mem_cons_self) (by decide)
    rw [List.cons_append, readKey, if_neg notQuote, if_pos (bare c List.mem_cons_self),
      List.takeWhile_append_of_pos bareTail, List.dropWhile_append_of_pos bareTail,
      List.takeWhile_cons_of_neg (by simp [notBare]), List.dropWhile_cons_of_neg (by simp [notBare]),
      List.append_nil, ← chars, String.ofList_toList]
  | quoted line fits => exact readKey_quoted line fits _

/-! ## Several keys -/

/-- What happens behind a key that has been read. -/
theorem readPath_of_readKey {done : List String} {key : String} {cs behind : List Char}
    (read : readKey (dropBlank isBlank cs) = .ok (key, behind)) :
    readPath done cs =
      match dropBlank isBlank behind with
      | [] => .ok ((key :: done).reverse, [])
      | c :: rest =>
        if c = '.' then readPath (key :: done) rest else .ok ((key :: done).reverse, c :: rest) := by
  conv => lhs; rw [readPath]
  split
  next fault => cases read.symm.trans fault
  next read' =>
    obtain ⟨rfl, rfl⟩ := Prod.mk.inj (Except.ok.inj (read.symm.trans read'))
    split
    next head => rw [head]
    next head => rw [head]

theorem readPath_writePath {keys : List String} (some_key : keys ≠ []) {e : Char} {next : List Char}
    (notBare : isBareChar d = false) (head : dropBlank isBlank (d :: rest) = e :: next)
    (notDot : e ≠ '.')
    (done : List String) :
    readPath done (writePath keys ++ d :: rest) = .ok (done.reverse ++ keys, e :: next) := by
  induction keys generalizing done with
  | nil => exact absurd rfl some_key
  | cons key keys ih =>
    cases keys with
    | nil =>
      have read : readKey (dropBlank isBlank (writeKey key ++ d :: rest)) = .ok (key, d :: rest) := by
        rw [dropBlank_writeKey, readKey_writeKey key notBare]
      rw [writePath, readPath_of_readKey read, head]
      simp [notDot]
    | cons following keys =>
      have read : readKey (dropBlank isBlank (writeKey key ++ '.' ::
          (writePath (following :: keys) ++ d :: rest))) =
          .ok (key, '.' :: (writePath (following :: keys) ++ d :: rest)) := by
        rw [dropBlank_writeKey, readKey_writeKey key (by decide)]
      have dot : dropBlank isBlank ('.' :: (writePath (following :: keys) ++ d :: rest)) =
          '.' :: (writePath (following :: keys) ++ d :: rest) := rfl
      rw [writePath, List.append_assoc, List.cons_append, readPath_of_readKey read, dot]
      dsimp only
      rw [if_pos rfl, ih (List.cons_ne_nil _ _)]
      simp

/-- A written path is read back, with the blanks behind it. -/
theorem run_writePath {keys : List String} (some_key : keys ≠ []) (short : keys.length < pathLimit)
    {e : Char} {next : List Char} (notBare : isBareChar d = false)
    (head : dropBlank isBlank (d :: rest) = e :: next) (notDot : e ≠ '.') :
    path.run (writePath keys ++ d :: rest) = .ok (keys, e :: next) := by
  rw [path]
  dsimp only
  rw [readPath_writePath some_key notBare head notDot]
  simp [short]

end PipelineParams.Toml
