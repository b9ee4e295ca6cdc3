import PipelineParams.Proofs.Value.Classification

/-! # The two ways to read a payload

`decode` steps over a document to find its spelling and classifies that; `ofRaw` classifies the text
as it stands.  On a text that spells a value out both give this value (`decode_of_spelled`,
`ofRaw_of_spelled`).  They part only where a document is well formed for the skipper and spells
nothing out, such as a number, a nested list or half a surrogate pair, and then only by the white
space around it.
-/

namespace PipelineParams

theorem mapError_eq_ok_iff {ε ε' α : Type} {outcome : Except ε α} {f : ε → ε'} {a : α} :
    outcome.mapError f = .ok a ↔ outcome = .ok a := by
  cases outcome <;> simp [Except.mapError]

namespace ParamValue

open Json (isBlank)

/-! ## Documents and their spellings -/

theorem read_map {α β : Type} (f : α → β) (r : Json.Reader α) (text : String) :
    Json.read (r.map f) text = (Json.read r text).map f := by
  rw [Json.read, Json.read, Reader.map]
  dsimp only
  cases r.run text.toList with
  | error fault => rfl
  | ok read =>
    dsimp only
    split <;> rfl

theorem decode_eq_ok_iff {p : String} {v : ParamValue} :
    decode p = .ok v ↔ ∃ raw, Json.read Json.token p = .ok raw ∧ ofRaw raw = v := by
  rw [decode, mapError_eq_ok_iff, reader, read_map]
  cases Json.read Json.token p with
  | error fault =>
    constructor
    · intro decoded
      cases decoded
    · rintro ⟨raw, document, -⟩
      cases document
  | ok raw =>
    constructor
    · intro decoded
      cases decoded
      exact ⟨raw, rfl, rfl⟩
    · rintro ⟨raw', document, rfl⟩
      cases document
      rfl

theorem spelled_iff_of_read_token {p raw : String} (document : Json.read Json.token p = .ok raw)
    {v : ParamValue} : Spelled raw.toList v ↔ Spelled p.toList v := by
  constructor
  · rintro (spelled | spelled | spelled)
    · exact .array ((Json.typed_string.list.padded_iff document).1 spelled)
    · exact .object ((Json.typed_string.mapOf.padded_iff document).1 spelled)
    · exact .scalar ((Json.typed_optional_string.padded_iff document).1 spelled)
  · rintro (spelled | spelled | spelled)
    · exact .array ((Json.typed_string.list.padded_iff document).2 spelled)
    · exact .object ((Json.typed_string.mapOf.padded_iff document).2 spelled)
    · exact .scalar ((Json.typed_optional_string.padded_iff document).2 spelled)

theorem exists_read_token_of_spelled {p : String} {v : ParamValue} (spelled : Spelled p.toList v) :
    ∃ raw, Json.read Json.token p = .ok raw := by
  cases spelled with
  | array spelled => exact Json.typed_string.list.exists_read_token spelled
  | object spelled => exact Json.typed_string.mapOf.exists_read_token spelled
  | scalar spelled => exact Json.typed_optional_string.exists_read_token spelled

theorem decode_of_spelled {p : String} {v : ParamValue} (spelled : Spelled p.toList v) :
    decode p = .ok v := by
  obtain ⟨raw, document⟩ := exists_read_token_of_spelled spelled
  refine decode_eq_ok_iff.2 ⟨raw, document, ?_⟩
  exact ofRaw_of_spelled ((spelled_iff_of_read_token document).2 spelled)

/-! ## Agreement -/

theorem isBlank_of_isDigit {c : Char} (digit : c.isDigit = true) : Text.isBlank c = false := by
  simp only [Char.isDigit, Bool.and_eq_true, decide_eq_true_eq, ge_iff_le,
    UInt32.le_iff_toNat_le] at digit
  simp only [Text.isBlank, Bool.or_eq_false_iff, Bool.and_eq_false_iff, decide_eq_false_iff_not,
    beq_eq_false_iff_ne, UInt32.le_iff_toNat_le, ne_eq, ← UInt32.toNat_inj]
  simp at digit ⊢
  omega

/-- No blank starts a value, not even one of those that documents do not know. -/
theorem exists_head_of_skipValue {cs rest : List Char} (skipped : Json.skipValue cs = .ok rest) :
    ∃ c tail, dropBlank isBlank cs = c :: tail ∧ Text.isBlank c = false := by
  rw [Json.skipValue] at skipped
  cases head : dropBlank isBlank cs with
  | nil =>
    rw [Json.skipFrom_value_nil head] at skipped
    cases skipped
  | cons c tail =>
    refine ⟨c, tail, rfl, ?_⟩
    rw [Json.skipFrom_value_cons head, Json.skipScalar] at skipped
    split_ifs at skipped with list object null true' false' quote number
    · rw [list]; decide
    · rw [object]; decide
    · rw [null]; decide
    · rw [true']; decide
    · rw [false']; decide
    · rw [quote]; decide
    · rcases number with rfl | digit
      · decide
      · exact isBlank_of_isDigit digit

theorem exists_solid_of_read_token {p raw : String} (document : Json.read Json.token p = .ok raw) :
    ∃ c ∈ raw.toList, c ∈ p.toList ∧ Text.isBlank c = false := by
  obtain ⟨after, -, skipped, spelling⟩ := Json.read_token_eq_ok_iff.1 document
  obtain ⟨c, tail, head, solid⟩ := exists_head_of_skipValue skipped
  have shorter := Json.length_of_skipValue
    ((Json.skipFrom_value_congr (Json.dropBlank_dropBlank p.toList)).trans skipped)
  have member : c ∈ p.toList := by
    apply (List.dropWhile_sublist Json.isBlank).subset
    rw [← dropBlank, head]
    exact List.mem_cons_self
  refine ⟨c, ?_, member, solid⟩
  rw [spelling] at head shorter
  cases spelled : raw.toList with
  | nil =>
    rw [spelled, List.nil_append] at shorter
    exact absurd shorter (Nat.lt_irrefl _)
  | cons d ds =>
    rw [spelled, List.cons_append, List.cons.injEq] at head
    rw [head.1]
    exact List.mem_cons_self

theorem ofRaw_eq_self {raw : String} {c : Char} (not : ∀ v, ¬ Spelled raw.toList v)
    (member : c ∈ raw.toList) (solid : Text.isBlank c = false) : ofRaw raw = .string raw := by
  rw [ofRaw_of_not_spelled not, if_neg]
  intro blank
  rw [List.all_eq_true.1 blank c member] at solid
  cases solid

theorem ofRaw_of_decode_eq_ok {p : String} {v : ParamValue} (decoded : decode p = .ok v) :
    ofRaw p = v ∨ v = .string (String.ofList (Json.trim p.toList)) ∧ ofRaw p = .string p := by
  obtain ⟨raw, document, rfl⟩ := decode_eq_ok_iff.1 decoded
  by_cases spelled : ∃ v, Spelled raw.toList v
  · -- the spelling and the payload spell the same value out
    obtain ⟨v, spelled⟩ := spelled
    left
    rw [ofRaw_of_spelled spelled,
      ofRaw_of_spelled ((spelled_iff_of_read_token document).1 spelled)]
  · -- neither does, so each of them is kept as it is
    right
    have not : ∀ v, ¬ Spelled raw.toList v := fun v spelled' => spelled ⟨v, spelled'⟩
    have not' : ∀ v, ¬ Spelled p.toList v :=
      fun v spelled' => not v ((spelled_iff_of_read_token document).2 spelled')
    obtain ⟨c, member, member', solid⟩ := exists_solid_of_read_token document
    rw [ofRaw_eq_self not member solid, ofRaw_eq_self not' member' solid,
      ← Json.trim_of_read_token document]
    exact ⟨rfl, rfl⟩

/-- A payload is decoded to what its text is classified as, or else to the text without the white
space around it.  What cannot be decoded is classified as the text that it is.  A text that spells a
value out is always decoded, and never kept as it is. -/
theorem decode_and_ofRaw_agree (p : String) :
    (∀ v, decode p = .ok v →
      ofRaw p = v ∨ v = .string (String.ofList (Json.trim p.toList)) ∧ ofRaw p = .string p) ∧
    (∀ e, decode p = .error e →
      ofRaw p = .string (if p.toList.all Text.isBlank then "" else p)) ∧
    (∀ v, Spelled p.toList v → decode p = .ok v ∧ ofRaw p = v) := by
  refine ⟨fun v decoded => ofRaw_of_decode_eq_ok decoded, fun e failed => ?_, fun v spelled => ?_⟩
  · apply ofRaw_of_not_spelled
    intro v spelled
    cases failed.symm.trans (decode_of_spelled spelled)
  · exact ⟨decode_of_spelled spelled, ofRaw_of_spelled spelled⟩

/-- Half a surrogate pair is well formed for `decode` and denotes nothing; a broken word is not well
formed; a list with white space around its item is a list. -/
theorem decode_and_ofRaw_agree_lone_surrogate :
    (decode " \"\\ud800\"\n" = .ok (.string "\"\\ud800\"") ∧
      ofRaw " \"\\ud800\"\n" = .string " \"\\ud800\"\n") ∧
    (decode "nul" = .error ⟨.endInValue⟩ ∧ ofRaw "nul" = .string "nul") ∧
    (Spelled "[ \"a\" ]".toList (.array ["a"]) ∧
      decode "[ \"a\" ]" = .ok (.array ["a"]) ∧ ofRaw "[ \"a\" ]" = .array ["a"]) := by
  have skipped : Json.skipValue " \"\\ud800\"\n".toList = .ok ['\n'] := by
    rw [Json.skipValue, Json.skipFrom_value_scalar (c := '"') rfl (by decide) (by decide),
      Json.skipFrom_ended_nil]
    decide +kernel
  have document : Json.read Json.token " \"\\ud800\"\n" = .ok "\"\\ud800\"" :=
    Json.read_token_eq_ok_iff.2 ⟨['\n'], by simp [Json.Blanks, Json.isBlank], skipped, by decide⟩
  have decoded : decode " \"\\ud800\"\n" = .ok (.string "\"\\ud800\"") :=
    decode_eq_ok_iff.2 ⟨_, document, by decide +kernel⟩
  have failed : decode "nul" = .error ⟨.endInValue⟩ := by cbv
  have apart := ((decode_and_ofRaw_agree _).1 _ decoded).resolve_left (by decide +kernel)
  have listed : Json.read (Json.list Json.string) "[ \"a\" ]" = .ok ["a"] := by decide +kernel
  have spelled : Spelled "[ \"a\" ]".toList (.array ["a"]) :=
    .array ((Json.read_eq_ok_iff (Json.reads_list Json.reads_string)).1 listed)
  exact ⟨⟨decoded, apart.2⟩, ⟨failed, (decode_and_ofRaw_agree "nul").2.1 _ failed⟩,
    spelled, (decode_and_ofRaw_agree _).2.2 _ spelled⟩

end ParamValue

end PipelineParams
