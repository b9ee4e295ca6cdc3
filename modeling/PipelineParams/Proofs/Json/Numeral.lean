import PipelineParams.Proofs.Json.Layout

/-! # Numbers on the page

The grammar of a number: an optional minus sign, an integer part without needless zeros, an optional
fraction and an optional exponent.

* `skipNumber_numeral`: a number of any such spelling is stepped over as a whole.
* `skipNumber_sound`: what is stepped over as a number is one.

A number has no mark at its end, so the first of these is only true in front of a text that does not go
on with it.  Each part is therefore followed through what can come behind it: an integer part stops
where no digit follows (`startsWithDigit`), and the last part where a token can end (`Ends`).
-/

namespace PipelineParams.Json

variable {ds int frac exp rest : List Char} {c : Char}

/-! ## Grammar -/

def Digits (ds : List Char) : Prop := ds ≠ [] ∧ ∀ d ∈ ds, d.isDigit = true

inductive IntegerPart : List Char → Prop
  | zero : IntegerPart ['0']
  | digits {d : Char} {ds : List Char} :
      d ≠ '0' → (∀ e ∈ d :: ds, e.isDigit = true) → IntegerPart (d :: ds)

inductive FractionPart : List Char → Prop
  | absent : FractionPart []
  | digits {ds : List Char} : Digits ds → FractionPart ('.' :: ds)

inductive ExponentPart : List Char → Prop
  | absent : ExponentPart []
  | digits {letter : Char} {sign ds : List Char} :
      letter = 'e' ∨ letter = 'E' → sign ∈ [[], ['+'], ['-']] → Digits ds →
      ExponentPart (letter :: (sign ++ ds))

inductive Numeral : List Char → Prop
  | mk {sign int frac exp : List Char} :
      sign ∈ [[], ['-']] → IntegerPart int → FractionPart frac → ExponentPart exp →
      Numeral (sign ++ (int ++ (frac ++ exp)))

/-! ## Characters -/

theorem isBlank_of_isDigit (c : Char) (digit : c.isDigit = true) : isBlank c = false := by
  simp only [isBlank, Bool.or_eq_false_iff, beq_eq_false_iff_ne]
  refine ⟨⟨⟨?_, ?_⟩, ?_⟩, ?_⟩ <;> rintro rfl <;> cases digit

theorem Digits.isBlank_eq_false (digits : Digits ds) : ∀ d ∈ ds, isBlank d = false :=
  fun d member => isBlank_of_isDigit d (digits.2 d member)

theorem FractionPart.isBlank_eq_false (part : FractionPart frac) :
    ∀ d ∈ frac, isBlank d = false := by
  cases part with
  | absent => simp
  | digits digits => exact List.forall_mem_cons.2 ⟨by decide, digits.isBlank_eq_false⟩

theorem ExponentPart.isBlank_eq_false (part : ExponentPart exp) : ∀ d ∈ exp, isBlank d = false := by
  cases part with
  | absent => simp
  | @digits letter sign ds isLetter optional digits =>
    have first : isBlank letter = false := by rcases isLetter with rfl | rfl <;> decide
    have signed : ∀ d ∈ sign, isBlank d = false := by
      simp only [List.mem_cons, List.not_mem_nil, or_false] at optional
      rcases optional with rfl | rfl | rfl <;> simp [isBlank]
    exact List.forall_mem_cons.2
      ⟨first, List.forall_mem_append.2 ⟨signed, digits.isBlank_eq_false⟩⟩

theorem IntegerPart.isBlank_eq_false (part : IntegerPart int) : ∀ d ∈ int, isBlank d = false := by
  cases part with
  | zero => simp [isBlank]
  | digits _ digits => exact fun d member => isBlank_of_isDigit d (digits d member)

theorem Numeral.isBlank_eq_false {tok : List Char} (numeral : Numeral tok) :
    ∀ d ∈ tok, isBlank d = false := by
  obtain ⟨optional, integer, fraction, exponent⟩ := numeral
  simp only [List.forall_mem_append]
  refine ⟨?_, integer.isBlank_eq_false, fraction.isBlank_eq_false, exponent.isBlank_eq_false⟩
  simp only [List.mem_cons, List.not_mem_nil, or_false] at optional
  rcases optional with rfl | rfl <;> simp [isBlank]

/-! ## What follows a part -/

theorem Ends.head_ne (ends : Ends (c :: rest)) :
    c.isDigit = false ∧ c ≠ '.' ∧ c ≠ 'e' ∧ c ≠ 'E' := by
  rcases ends c rfl with blank | rfl | rfl | rfl
  · simp only [isBlank, Bool.or_eq_true, beq_iff_eq] at blank
    rcases blank with ((rfl | rfl) | rfl) | rfl <;> decide
  all_goals decide

theorem Ends.startsWithDigit_eq (ends : Ends rest) : startsWithDigit rest = false := by
  cases rest with
  | nil => rfl
  | cons c rest => exact ends.head_ne.1

theorem ExponentPart.startsWithDigit_append (part : ExponentPart exp) (ends : Ends rest) :
    startsWithDigit (exp ++ rest) = false := by
  cases part with
  | absent => exact ends.startsWithDigit_eq
  | digits letter _ _ => rcases letter with rfl | rfl <;> rfl

theorem FractionPart.startsWithDigit_append (part : FractionPart frac)
    (stops : startsWithDigit rest = false) : startsWithDigit (frac ++ rest) = false := by
  cases part with
  | absent => exact stops
  | digits _ => rfl

/-! ## Stepping over the parts -/

theorem dropWhile_digits (digits : ∀ d ∈ ds, d.isDigit = true)
    (stops : startsWithDigit rest = false) : (ds ++ rest).dropWhile Char.isDigit = rest := by
  rw [List.dropWhile_append_of_pos digits]
  cases rest with
  | nil => rfl
  | cons c rest => exact List.dropWhile_cons_of_neg (by simpa [startsWithDigit] using stops)

theorem skipDigits_digits (digits : Digits ds) (stops : startsWithDigit rest = false) :
    skipDigits (ds ++ rest) = .ok rest := by
  obtain ⟨nonempty, digits⟩ := digits
  cases ds with
  | nil => exact absurd rfl nonempty
  | cons d ds =>
    rw [List.cons_append, skipDigits, if_pos (digits d List.mem_cons_self),
      dropWhile_digits (fun e member => digits e (List.mem_cons_of_mem d member)) stops]

theorem dropSign_sign {sign : List Char} (optional : sign ∈ [[], ['+'], ['-']])
    (digits : Digits ds) : dropSign (sign ++ (ds ++ rest)) = ds ++ rest := by
  obtain ⟨nonempty, digits⟩ := digits
  simp only [List.mem_cons, List.not_mem_nil, or_false] at optional
  rcases optional with rfl | rfl | rfl
  · cases ds with
    | nil => exact absurd rfl nonempty
    | cons d ds =>
      have digit := digits d List.mem_cons_self
      have unsigned : ¬ (d = '+' ∨ d = '-') := by
        rintro (rfl | rfl) <;> cases digit
      rw [List.nil_append, List.cons_append, dropSign, if_neg unsigned]
  · rfl
  · rfl

theorem skipExponent_of_ends (ends : Ends rest) : skipExponent rest = .ok rest := by
  cases rest with
  | nil => rfl
  | cons c rest =>
    obtain ⟨-, -, notLower, notUpper⟩ := ends.head_ne
    rw [skipExponent, if_neg (not_or.2 ⟨notLower, notUpper⟩)]

theorem skipExponent_part (part : ExponentPart exp) (ends : Ends rest) :
    skipExponent (exp ++ rest) = .ok rest := by
  cases part with
  | absent => exact skipExponent_of_ends ends
  | digits letter optional digits =>
    rw [List.cons_append, List.append_assoc, skipExponent, if_pos letter,
      dropSign_sign optional digits, skipDigits_digits digits ends.startsWithDigit_eq]

theorem skipFraction_of_ne (notPoint : ∀ cs, rest ≠ '.' :: cs) :
    skipFraction rest = skipExponent rest := by
  cases rest with
  | nil => rfl
  | cons c rest =>
    rw [skipFraction, if_neg]
    rintro rfl
    exact notPoint rest rfl

theorem ExponentPart.append_ne (part : ExponentPart exp) (ends : Ends rest) (cs : List Char) :
    exp ++ rest ≠ '.' :: cs := by
  cases part with
  | absent =>
    rintro rfl
    exact ends.head_ne.2.1 rfl
  | digits letter _ _ => rcases letter with rfl | rfl <;> simp

theorem skipFraction_part (fraction : FractionPart frac) (exponent : ExponentPart exp)
    (ends : Ends rest) : skipFraction (frac ++ (exp ++ rest)) = .ok rest := by
  cases fraction with
  | absent =>
    rw [List.nil_append, skipFraction_of_ne (exponent.append_ne ends),
      skipExponent_part exponent ends]
  | digits digits =>
    rw [List.cons_append, skipFraction, if_pos rfl,
      skipDigits_digits digits (exponent.startsWithDigit_append ends)]
    exact skipExponent_part exponent ends

theorem skipUnsigned_parts (integer : IntegerPart int) (fraction : FractionPart frac)
    (exponent : ExponentPart exp) (ends : Ends rest) :
    skipUnsigned (int ++ (frac ++ (exp ++ rest))) = .ok rest := by
  have stops := fraction.startsWithDigit_append (exponent.startsWithDigit_append ends)
  cases integer with
  | zero =>
    rw [List.singleton_append, skipUnsigned, if_pos rfl, if_neg (by simp [stops]),
      skipFraction_part fraction exponent ends]
  | @digits d ds notZero digits =>
    rw [List.cons_append, skipUnsigned, if_neg notZero, if_pos (digits d List.mem_cons_self),
      dropWhile_digits (fun e member => digits e (List.mem_cons_of_mem d member)) stops,
      skipFraction_part fraction exponent ends]

theorem IntegerPart.exists_head (part : IntegerPart int) :
    ∃ d ds, int = d :: ds ∧ d.isDigit = true := by
  cases part with
  | zero => exact ⟨'0', [], rfl, rfl⟩
  | @digits d ds _ digits => exact ⟨d, ds, rfl, digits d List.mem_cons_self⟩

/-! ## Numbers -/

theorem Numeral.exists_head {tok : List Char} (numeral : Numeral tok) :
    ∃ c cs, tok = c :: cs ∧ (c = '-' ∨ c.isDigit = true) := by
  obtain ⟨signed, integer, -, -⟩ := numeral
  obtain ⟨d, ds, rfl, digit⟩ := integer.exists_head
  simp only [List.mem_cons, List.not_mem_nil, or_false] at signed
  rcases signed with rfl | rfl
  · exact ⟨d, _, rfl, .inr digit⟩
  · exact ⟨'-', _, rfl, .inl rfl⟩

/-- A number is stepped over as a whole. -/
theorem skipNumber_numeral {tok : List Char} (numeral : Numeral tok) (ends : Ends rest) :
    skipNumber (tok ++ rest) = .ok rest := by
  obtain ⟨signed, integer, fraction, exponent⟩ := numeral
  have unsigned := skipUnsigned_parts integer fraction exponent ends
  obtain ⟨d, ds, rfl, digit⟩ := integer.exists_head
  have notMinus : d ≠ '-' := by
    rintro rfl
    cases digit
  simp only [List.append_assoc, List.mem_cons, List.not_mem_nil, or_false] at signed ⊢
  rcases signed with rfl | rfl
  · rw [List.nil_append, List.cons_append, skipNumber, if_neg notMinus]
    exact unsigned
  · rw [List.singleton_append, skipNumber, if_pos rfl]
    exact unsigned

/-! ## What has been stepped over -/

section

variable {cs : List Char}

theorem exists_digits (cs : List Char) :
    ∃ ds, (∀ d ∈ ds, d.isDigit = true) ∧ cs = ds ++ cs.dropWhile Char.isDigit :=
  ⟨cs.takeWhile Char.isDigit, fun _ member => List.mem_takeWhile_imp member,
    List.takeWhile_append_dropWhile.symm⟩

theorem skipDigits_sound (skipped : skipDigits cs = .ok rest) :
    ∃ ds, Digits ds ∧ cs = ds ++ rest := by
  cases cs with
  | nil => cases skipped
  | cons c cs =>
    rw [skipDigits] at skipped
    split at skipped
    next digit =>
      cases skipped
      obtain ⟨ds, digits, split⟩ := exists_digits cs
      refine ⟨c :: ds, ⟨List.cons_ne_nil c ds, List.forall_mem_cons.2 ⟨digit, digits⟩⟩, ?_⟩
      rw [List.cons_append, ← split]
    · cases skipped

theorem exists_sign (cs : List Char) :
    ∃ sign ∈ [[], ['+'], ['-']], cs = sign ++ dropSign cs := by
  cases cs with
  | nil => exact ⟨[], by simp, rfl⟩
  | cons c cs =>
    rw [dropSign]
    split
    next sign => exact ⟨[c], by rcases sign with rfl | rfl <;> simp, rfl⟩
    next => exact ⟨[], by simp, rfl⟩

theorem skipExponent_sound (skipped : skipExponent cs = .ok rest) :
    ∃ exp, ExponentPart exp ∧ cs = exp ++ rest := by
  cases cs with
  | nil =>
    cases skipped
    exact ⟨[], .absent, rfl⟩
  | cons c cs =>
    rw [skipExponent] at skipped
    split at skipped
    next letter =>
      obtain ⟨sign, optional, split⟩ := exists_sign cs
      obtain ⟨ds, digits, split'⟩ := skipDigits_sound skipped
      refine ⟨c :: (sign ++ ds), .digits letter optional digits, ?_⟩
      rw [List.cons_append, List.append_assoc, ← split', ← split]
    next =>
      cases skipped
      exact ⟨[], .absent, rfl⟩

theorem skipFraction_sound (skipped : skipFraction cs = .ok rest) :
    ∃ frac exp, FractionPart frac ∧ ExponentPart exp ∧ cs = frac ++ (exp ++ rest) := by
  cases cs with
  | nil =>
    cases skipped
    exact ⟨[], [], .absent, .absent, rfl⟩
  | cons c cs =>
    rw [skipFraction] at skipped
    split at skipped
    next point =>
      subst point
      cases fraction : skipDigits cs with
      | error fault =>
        rw [fraction] at skipped
        cases skipped
      | ok behind =>
        rw [fraction] at skipped
        obtain ⟨ds, digits, rfl⟩ := skipDigits_sound fraction
        obtain ⟨exp, exponent, rfl⟩ := skipExponent_sound skipped
        exact ⟨'.' :: ds, exp, .digits digits, exponent, rfl⟩
    next =>
      obtain ⟨exp, exponent, split⟩ := skipExponent_sound skipped
      exact ⟨[], exp, .absent, exponent, split⟩

theorem skipUnsigned_sound (skipped : skipUnsigned cs = .ok rest) :
    ∃ int frac exp, IntegerPart int ∧ FractionPart frac ∧ ExponentPart exp ∧
      cs = int ++ (frac ++ (exp ++ rest)) := by
  cases cs with
  | nil => cases skipped
  | cons c cs =>
    rw [skipUnsigned] at skipped
    split_ifs at skipped with zero follows digit
    · subst zero
      obtain ⟨frac, exp, fraction, exponent, rfl⟩ := skipFraction_sound skipped
      exact ⟨['0'], frac, exp, .zero, fraction, exponent, rfl⟩
    · obtain ⟨ds, digits, split⟩ := exists_digits cs
      obtain ⟨frac, exp, fraction, exponent, behind⟩ := skipFraction_sound skipped
      refine ⟨c :: ds, frac, exp, .digits zero (List.forall_mem_cons.2 ⟨digit, digits⟩), fraction,
        exponent, ?_⟩
      rw [List.cons_append, ← behind, ← split]

theorem skipNumber_sound (skipped : skipNumber cs = .ok rest) :
    ∃ tok, Numeral tok ∧ cs = tok ++ rest := by
  have signed : ∃ sign ∈ [[], ['-']], ∃ ds, cs = sign ++ ds ∧ skipUnsigned ds = .ok rest := by
    cases cs with
    | nil => cases skipped
    | cons c cs =>
      rw [skipNumber] at skipped
      split at skipped
      next minus => exact ⟨['-'], by simp, cs, by rw [minus]; rfl, skipped⟩
      next => exact ⟨[], by simp, c :: cs, rfl, skipped⟩
  obtain ⟨sign, optional, ds, rfl, unsigned⟩ := signed
  obtain ⟨int, frac, exp, integer, fraction, exponent, rfl⟩ := skipUnsigned_sound unsigned
  exact ⟨_, .mk optional integer fraction exponent, by simp⟩

end

end PipelineParams.Json
