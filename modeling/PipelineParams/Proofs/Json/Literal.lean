import Mathlib.Tactic.SplitIfs
import PipelineParams.Json.Quoted
import PipelineParams.Json.Tree

/-! # String literals

The grammar of a string literal, and what the three functions that deal with one make of it.

* `HexUnit`, `Escape`, `Spells` and `Literal` are the grammar: which text a literal denotes.
* `StringBody` and `StringToken` are the grammar of the form alone, in which surrogates need no
  partner; `StringToken.of_literal` says that every literal has this form.
* `readString_eq_ok_iff` — reading accepts exactly the literals, and returns the text they denote.
* `skipString_eq_ok_iff` — stepping over accepts exactly what has the form of a string.
* `literal_quoted` — what is written for a text is a literal that denotes it.
-/

namespace PipelineParams.Json

/-! ## Grammar -/

inductive HexUnit : List Char → Nat → Prop
  | mk {a b c d : Char} {va vb vc vd : Nat} :
      Text.hexDigit? a = some va → Text.hexDigit? b = some vb → Text.hexDigit? c = some vc →
      Text.hexDigit? d = some vd → HexUnit [a, b, c, d] (((va * 16 + vb) * 16 + vc) * 16 + vd)

/-- What stands behind a backslash, and the character that it denotes.  Half a surrogate pair
denotes none. -/
inductive Escape : List Char → Char → Prop
  | short {e c : Char} : shortEscape? e = some c → Escape [e] c
  | unit {digits : List Char} {n : Nat} :
      HexUnit digits n → isLowSurrogate n = false → isHighSurrogate n = false →
      Escape ('u' :: digits) (Char.ofNat n)
  | pair {first second : List Char} {high low : Nat} :
      HexUnit first high → isHighSurrogate high = true →
      HexUnit second low → isLowSurrogate low = true →
      Escape ('u' :: (first ++ '\\' :: 'u' :: second)) (ofSurrogates high low)

/-- The characters between the quotes, and the text that they denote. -/
inductive Spells : List Char → List Char → Prop
  | nil : Spells [] []
  | plain {c : Char} {body text : List Char} :
      c ≠ '"' → c ≠ '\\' → ¬ c.val < 0x20 → Spells body text → Spells (c :: body) (c :: text)
  | escaped {esc body text : List Char} {c : Char} :
      Escape esc c → Spells body text → Spells ('\\' :: (esc ++ body)) (c :: text)

def Literal (lit : List Char) (text : String) : Prop :=
  ∃ body, lit = '"' :: (body ++ ['"']) ∧ Spells body text.toList

/-- The characters between the quotes, by their form: half a surrogate pair is an escape like any
other. -/
inductive StringBody : List Char → Prop
  | nil : StringBody []
  | plain {c : Char} {body : List Char} :
      c ≠ '"' → c ≠ '\\' → ¬ c.val < 0x20 → StringBody body → StringBody (c :: body)
  | short {e : Char} {body : List Char} :
      e ∈ ['"', '\\', '/', 'b', 'f', 'n', 'r', 't'] → StringBody body →
      StringBody ('\\' :: e :: body)
  | unit {digits body : List Char} {n : Nat} :
      HexUnit digits n → StringBody body → StringBody ('\\' :: 'u' :: (digits ++ body))

/-- A string by its form, whether or not it denotes a text. -/
def StringToken (tok : List Char) : Prop := ∃ body, tok = '"' :: (body ++ ['"']) ∧ StringBody body

/-! ## Code units -/

theorem readHex_succ_eq_some_iff {value count n : Nat} {cs rest : List Char} :
    Text.readHex value (count + 1) cs = some (n, rest) ↔
      ∃ c d tail, cs = c :: tail ∧ Text.hexDigit? c = some d ∧
        Text.readHex (value * 16 + d) count tail = some (n, rest) := by
  cases cs with
  | nil => simp [Text.readHex]
  | cons c cs =>
    rw [Text.readHex]
    cases digit : Text.hexDigit? c with
    | none =>
      constructor
      · intro read
        cases read
      · rintro ⟨c', d', tail, same, digit', -⟩
        obtain ⟨rfl, rfl⟩ := List.cons.inj same
        cases digit.symm.trans digit'
    | some d =>
      constructor
      · intro read
        exact ⟨c, d, cs, rfl, digit, read⟩
      · rintro ⟨c', d', tail, same, digit', read⟩
        obtain ⟨rfl, rfl⟩ := List.cons.inj same
        obtain rfl := Option.some.inj (digit.symm.trans digit')
        exact read

theorem codeUnit_eq_ok_iff {cs rest : List Char} {n : Nat} :
    codeUnit cs = .ok (n, rest) ↔ ∃ digits, HexUnit digits n ∧ cs = digits ++ rest := by
  have unfolded : codeUnit cs = .ok (n, rest) ↔ Text.readHex 0 4 cs = some (n, rest) := by
    rw [codeUnit]
    split
    next read => rw [read]; simp
    next read => rw [read]; simp
  rw [unfolded]
  constructor
  · intro read
    obtain ⟨a, va, cs, rfl, ha, read⟩ := readHex_succ_eq_some_iff.1 read
    obtain ⟨b, vb, cs, rfl, hb, read⟩ := readHex_succ_eq_some_iff.1 read
    obtain ⟨c, vc, cs, rfl, hc, read⟩ := readHex_succ_eq_some_iff.1 read
    obtain ⟨d, vd, cs, rfl, hd, read⟩ := readHex_succ_eq_some_iff.1 read
    rw [Text.readHex, Option.some.injEq, Prod.mk.injEq] at read
    obtain ⟨rfl, rfl⟩ := read
    refine ⟨[a, b, c, d], ?_, rfl⟩
    simpa using HexUnit.mk ha hb hc hd
  · rintro ⟨digits, ⟨ha, hb, hc, hd⟩, rfl⟩
    refine readHex_succ_eq_some_iff.2 ⟨_, _, _, rfl, ha, ?_⟩
    refine readHex_succ_eq_some_iff.2 ⟨_, _, _, rfl, hb, ?_⟩
    refine readHex_succ_eq_some_iff.2 ⟨_, _, _, rfl, hc, ?_⟩
    refine readHex_succ_eq_some_iff.2 ⟨_, _, _, rfl, hd, ?_⟩
    simp [Text.readHex]

/-! ## Escapes -/

theorem ne_u_of_shortEscape? {e c : Char} (known : shortEscape? e = some c) : e ≠ 'u' := by
  rintro rfl
  cases known

theorem lowHalf_sound {high : Nat} {cs rest : List Char} {c : Char}
    (read : lowHalf high cs = .ok (c, rest)) : ∃ digits low, HexUnit digits low ∧
      isLowSurrogate low = true ∧ c = ofSurrogates high low ∧
        cs = '\\' :: 'u' :: (digits ++ rest) := by
  rw [lowHalf.eq_def] at read
  split at read
  · cases read
  next d ds =>
    split at read
    next backslash =>
      subst backslash
      split at read
      · cases read
      next u us =>
        split at read
        next isU =>
          subst isU
          split at read
          · cases read
          next low behind unit =>
            split at read
            next isLow =>
              simp only [Except.ok.injEq, Prod.mk.injEq] at read
              obtain ⟨meant, rfl⟩ := read
              obtain ⟨digits, hex, rfl⟩ := codeUnit_eq_ok_iff.1 unit
              exact ⟨digits, low, hex, isLow, meant.symm, rfl⟩
            · cases read
        · cases read
    · cases read

theorem lowHalf_complete {high low : Nat} {digits rest : List Char} (hex : HexUnit digits low)
    (isLow : isLowSurrogate low = true) :
    lowHalf high ('\\' :: 'u' :: (digits ++ rest)) = .ok (ofSurrogates high low, rest) := by
  rw [lowHalf.eq_def]
  simp only [↓reduceIte, codeUnit_eq_ok_iff.2 ⟨digits, hex, rfl⟩, isLow]

theorem readEscape_eq_ok_iff {cs rest : List Char} {c : Char} :
    readEscape cs = .ok (c, rest) ↔ ∃ esc, Escape esc c ∧ cs = esc ++ rest := by
  constructor
  · intro read
    cases cs with
    | nil => cases read
    | cons e cs =>
      rw [readEscape] at read
      split at read
      next isU =>
        subst isU
        rw [unicodeEscape] at read
        split at read
        · cases read
        next n behind unit =>
          obtain ⟨digits, hex, rfl⟩ := codeUnit_eq_ok_iff.1 unit
          split at read
          · cases read
          next notLow =>
            rw [Bool.not_eq_true] at notLow
            split at read
            next isHigh =>
              obtain ⟨second, low, hex', isLow, meant, rfl⟩ := lowHalf_sound read
              rw [meant]
              exact ⟨_, .pair hex isHigh hex' isLow, by simp⟩
            next notHigh =>
              rw [Bool.not_eq_true] at notHigh
              cases read
              exact ⟨_, .unit hex notLow notHigh, rfl⟩
      next =>
        split at read
        next meant known =>
          cases read
          exact ⟨[e], .short known, rfl⟩
        · cases read
  · rintro ⟨esc, escape, rfl⟩
    cases escape with
    | @short e c known =>
      rw [List.singleton_append, readEscape, if_neg (ne_u_of_shortEscape? known), known]
    | unit hex notLow notHigh =>
      rw [List.cons_append, readEscape, if_pos rfl, unicodeEscape,
        codeUnit_eq_ok_iff.2 ⟨_, hex, rfl⟩]
      simp [notLow, notHigh]
    | @pair first second high low hex isHigh hex' isLow =>
      -- the first half is no second half, so the reader does not stop at it
      have notLow : isLowSurrogate high = false := by
        simp only [isHighSurrogate, isLowSurrogate, Bool.and_eq_true, decide_eq_true_eq,
          Bool.and_eq_false_iff, decide_eq_false_iff_not] at isHigh ⊢
        omega
      rw [List.cons_append, List.append_assoc, readEscape, if_pos rfl, unicodeEscape,
        codeUnit_eq_ok_iff.2 ⟨_, hex, rfl⟩]
      simp only [notLow, isHigh, Bool.false_eq_true, ↓reduceIte]
      exact lowHalf_complete hex' isLow

/-! ## Reading -/

theorem readChars_sound {done cs text rest : List Char}
    (read : readChars done cs = .ok (text, rest)) :
    ∃ body tail, Spells body tail ∧ cs = body ++ '"' :: rest ∧ text = done.reverse ++ tail := by
  fun_induction readChars done cs with
  | case1 => cases read
  | case2 done cs =>
    cases read
    exact ⟨[], [], .nil, rfl, by simp⟩
  | case3 => cases read
  | case4 done cs meant behind escape _ ih =>
    obtain ⟨body, tail, spells, rfl, rfl⟩ := ih read
    obtain ⟨esc, denotes, rfl⟩ := readEscape_eq_ok_iff.1 escape
    exact ⟨_, _, .escaped denotes spells, by simp, by simp⟩
  | case5 => cases read
  | case6 done c cs notQuote notBackslash notControl ih =>
    obtain ⟨body, tail, spells, rfl, rfl⟩ := ih read
    exact ⟨_, _, .plain notQuote notBackslash notControl spells, rfl, by simp⟩

theorem readChars_complete {body tail rest : List Char} (spells : Spells body tail)
    (done : List Char) :
    readChars done (body ++ '"' :: rest) = .ok (done.reverse ++ tail, rest) := by
  induction spells generalizing done with
  | nil => rw [List.nil_append, readChars, if_pos rfl, List.append_nil]
  | plain notQuote notBackslash notControl _ ih =>
    rw [List.cons_append, readChars, if_neg notQuote, if_neg notBackslash, if_neg notControl, ih]
    simp
  | @escaped esc body text c escape _ ih =>
    have meant : readEscape (esc ++ (body ++ '"' :: rest)) = .ok (c, body ++ '"' :: rest) :=
      readEscape_eq_ok_iff.2 ⟨esc, escape, rfl⟩
    rw [List.cons_append, List.append_assoc, readChars, if_neg (by decide), if_pos rfl]
    split
    next fault => cases meant.symm.trans fault
    next meant' rest' escape' =>
      obtain ⟨rfl, rfl⟩ := Prod.mk.inj (Except.ok.inj (meant.symm.trans escape'))
      rw [ih]
      simp

/-- Reading a string from behind its opening quote. -/
theorem readString_eq_ok_iff {cs rest : List Char} {text : String} :
    readString cs = .ok (text, rest) ↔
      ∃ body, Spells body text.toList ∧ cs = body ++ '"' :: rest := by
  constructor
  · intro read
    rw [readString] at read
    split at read
    · cases read
    next chars behind readChars =>
      cases read
      obtain ⟨body, tail, spells, rfl, rfl⟩ := readChars_sound readChars
      exact ⟨body, by simpa using spells, rfl⟩
  · rintro ⟨body, spells, rfl⟩
    rw [readString, readChars_complete spells]
    simp

/-- A literal takes all of the text up to its closing quote. -/
theorem readString_of_literal {lit : List Char} {text : String} (literal : Literal lit text)
    (rest : List Char) :
    ∃ behind, lit ++ rest = '"' :: behind ∧ readString behind = .ok (text, rest) := by
  obtain ⟨body, rfl, spells⟩ := literal
  exact ⟨body ++ '"' :: rest, by simp, readString_eq_ok_iff.2 ⟨body, spells, rfl⟩⟩

theorem literal_of_readString {cs rest : List Char} {text : String}
    (read : readString cs = .ok (text, rest)) :
    ∃ lit, Literal lit text ∧ '"' :: cs = lit ++ rest := by
  obtain ⟨body, spells, rfl⟩ := readString_eq_ok_iff.1 read
  exact ⟨_, ⟨body, rfl, spells⟩, by simp⟩

/-! ## Stepping over -/

theorem skipEscape_of_hexUnit {digits rest : List Char} {n : Nat} (hex : HexUnit digits n) :
    skipEscape ('u' :: (digits ++ rest)) = .ok rest := by
  rw [skipEscape, if_pos rfl, codeUnit_eq_ok_iff.2 ⟨digits, hex, rfl⟩]
  rfl

theorem skipString_backslash {cs behind : List Char} (skipped : skipEscape cs = .ok behind) :
    skipString ('\\' :: cs) = skipString behind := by
  rw [skipString, if_neg (by decide), if_pos rfl]
  split
  next fault => cases skipped.symm.trans fault
  next behind' skipped' =>
    obtain rfl := Except.ok.inj (skipped.symm.trans skipped')
    rfl

theorem isSome_shortEscape?_iff {e : Char} :
    (shortEscape? e).isSome = true ↔ e ∈ ['"', '\\', '/', 'b', 'f', 'n', 'r', 't'] := by
  simp only [shortEscape?, List.mem_cons, List.not_mem_nil, or_false]
  split_ifs <;> simp [*]

theorem skipString_of_body {body rest : List Char} (form : StringBody body) :
    skipString (body ++ '"' :: rest) = .ok rest := by
  induction form with
  | nil => rw [List.nil_append, skipString, if_pos rfl]
  | plain notQuote notBackslash notControl _ ih =>
    rw [List.cons_append, skipString, if_neg notQuote, if_neg notBackslash, if_neg notControl, ih]
  | @short e body listed _ ih =>
    have known := isSome_shortEscape?_iff.2 listed
    have notU : e ≠ 'u' := by
      rintro rfl
      cases known
    have skipped : skipEscape (e :: (body ++ '"' :: rest)) = .ok (body ++ '"' :: rest) := by
      rw [skipEscape, if_neg notU, if_pos known]
    rw [List.cons_append, List.cons_append, skipString_backslash skipped, ih]
  | unit hex _ ih =>
    rw [List.cons_append, List.cons_append, List.append_assoc,
      skipString_backslash (skipEscape_of_hexUnit hex), ih]

/-- What is stepped over behind a backslash: a short escape or a code unit. -/
theorem exists_of_skipEscape {cs rest : List Char} (skipped : skipEscape cs = .ok rest) :
    (∃ e ∈ ['"', '\\', '/', 'b', 'f', 'n', 'r', 't'], cs = e :: rest) ∨
      ∃ digits n, HexUnit digits n ∧ cs = 'u' :: (digits ++ rest) := by
  cases cs with
  | nil => cases skipped
  | cons e cs =>
    rw [skipEscape] at skipped
    split at skipped
    next isU =>
      subst isU
      cases unit : codeUnit cs with
      | error fault =>
        rw [unit] at skipped
        cases skipped
      | ok read =>
        obtain ⟨n, behind⟩ := read
        rw [unit] at skipped
        cases skipped
        obtain ⟨digits, hex, rfl⟩ := codeUnit_eq_ok_iff.1 unit
        exact .inr ⟨digits, n, hex, rfl⟩
    · split at skipped
      next known =>
        cases skipped
        exact .inl ⟨e, isSome_shortEscape?_iff.1 known, rfl⟩
      · cases skipped

theorem skipString_sound {cs rest : List Char} (skipped : skipString cs = .ok rest) :
    ∃ body, StringBody body ∧ cs = body ++ '"' :: rest := by
  fun_induction skipString cs with
  | case1 => cases skipped
  | case2 cs =>
    cases skipped
    exact ⟨[], .nil, rfl⟩
  | case3 => cases skipped
  | case4 cs behind escape _ ih =>
    obtain ⟨body, form, rfl⟩ := ih skipped
    rcases exists_of_skipEscape escape with ⟨e, listed, rfl⟩ | ⟨digits, n, hex, rfl⟩
    · exact ⟨'\\' :: e :: body, .short listed form, rfl⟩
    · exact ⟨'\\' :: 'u' :: (digits ++ body), .unit hex form, by simp⟩
  | case5 => cases skipped
  | case6 c cs notQuote notBackslash notControl ih =>
    obtain ⟨body, form, rfl⟩ := ih skipped
    exact ⟨c :: body, .plain notQuote notBackslash notControl form, rfl⟩

/-- Stepping over a string from behind its opening quote. -/
theorem skipString_eq_ok_iff {cs rest : List Char} :
    skipString cs = .ok rest ↔ ∃ body, StringBody body ∧ cs = body ++ '"' :: rest := by
  refine ⟨skipString_sound, ?_⟩
  rintro ⟨body, form, rfl⟩
  exact skipString_of_body form

theorem StringBody.of_spells {body text : List Char} (spells : Spells body text) :
    StringBody body := by
  induction spells with
  | nil => exact .nil
  | plain notQuote notBackslash notControl _ ih =>
    exact .plain notQuote notBackslash notControl ih
  | escaped escape _ ih =>
    cases escape with
    | short known => exact .short (isSome_shortEscape?_iff.1 (Option.isSome_of_eq_some known)) ih
    | unit hex _ _ => exact .unit hex ih
    | pair first _ second _ =>
      -- each half is an escape of its own here
      simp only [List.cons_append, List.append_assoc]
      exact .unit first (.unit second ih)

theorem StringToken.of_literal {lit : List Char} {text : String} (literal : Literal lit text) :
    StringToken lit := by
  obtain ⟨body, rfl, spells⟩ := literal
  exact ⟨body, rfl, .of_spells spells⟩

/-- A string is stepped over up to its closing quote. -/
theorem StringToken.exists_skipString {tok : List Char} (form : StringToken tok)
    (rest : List Char) :
    ∃ behind, tok ++ rest = '"' :: behind ∧ skipString behind = .ok rest := by
  obtain ⟨body, rfl, form⟩ := form
  exact ⟨body ++ '"' :: rest, by simp, skipString_eq_ok_iff.2 ⟨body, form, rfl⟩⟩

/-! ## Writing -/

theorem hexDigit?_hexDigit (n : Nat) : Text.hexDigit? (Tree.hexDigit n) = some (n % 16) := by
  have digits : ∀ d, d < 16 → Text.hexDigit? (Nat.digitChar d) = some d := by decide
  exact digits (n % 16) (Nat.mod_lt n (by decide))

/-- A control character is written by its code unit, with two leading zeros. -/
theorem escape_control {c : Char} (control : c.val < 0x20) :
    Escape ['u', '0', '0', Tree.hexDigit (c.toNat / 16), Tree.hexDigit c.toNat] c := by
  have small : c.toNat < 0x20 := control
  have zero : Text.hexDigit? '0' = some 0 := by decide
  have hex := HexUnit.mk zero zero (hexDigit?_hexDigit (c.toNat / 16)) (hexDigit?_hexDigit c.toNat)
  have value : ((0 * 16 + 0) * 16 + c.toNat / 16 % 16) * 16 + c.toNat % 16 = c.toNat := by omega
  rw [value] at hex
  have notLow : isLowSurrogate c.toNat = false := by
    simp only [isLowSurrogate, Bool.and_eq_false_iff, decide_eq_false_iff_not]
    omega
  have notHigh : isHighSurrogate c.toNat = false := by
    simp only [isHighSurrogate, Bool.and_eq_false_iff, decide_eq_false_iff_not]
    omega
  simpa using Escape.unit hex notLow notHigh

theorem spells_quotedChar (c : Char) {body text : List Char} (spells : Spells body text) :
    Spells (Tree.quotedChar c ++ body) (c :: text) := by
  have short : ∀ {e c : Char}, shortEscape? e = some c → Spells (['\\', e] ++ body) (c :: text) :=
    fun known => .escaped (.short known) spells
  rw [Tree.quotedChar]
  split_ifs with quote backslash backspace formFeed lineFeed carriageReturn tab control
  · subst quote; exact short rfl
  · subst backslash; exact short rfl
  · subst backspace; exact short rfl
  · subst formFeed; exact short rfl
  · subst lineFeed; exact short rfl
  · subst carriageReturn; exact short rfl
  · subst tab; exact short rfl
  · exact .escaped (escape_control control) spells
  · exact .plain quote backslash control spells

theorem literal_quoted (text : String) : Literal (Tree.quoted text) text := by
  refine ⟨text.toList.flatMap Tree.quotedChar, rfl, ?_⟩
  induction text.toList with
  | nil => exact .nil
  | cons c cs ih => exact spells_quotedChar c ih

end PipelineParams.Json
