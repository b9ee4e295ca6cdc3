import Mathlib.Data.Nat.Digits.Defs
import PipelineParams.Proofs.Reference.FanOut
import PipelineParams.Proofs.Reference.Occurrences

/-! # What a reference points at

The kind of a reference comes from tests that are made in a fixed order.  `Classified` says for each kind
what the expression looks like, without an order, and `Reference.kind_eq_iff` that the kind is the one
whose description fits.

The order does not matter because at most one of the first three tests succeeds.  What ends in a star
or in a number ends in a bracket, and a fan-out expression never does
(`MatrixContext.parse_eq_none_of_bracket`); and a star is no digit.

A number may have leading zeros, so how long it is says nothing about how large it is.
`EndsInNumber.trailingIndex?_eq` takes its value in base ten: it is the index if it has at most 64 bits,
and otherwise there is no index at all, not one with some bits left out.
-/

namespace PipelineParams

/-! ## Endings -/

theorem Text.isSome_stripEnd?_iff {last cs : List Char} :
    (stripEnd? last cs).isSome ↔ last <:+ cs := by
  rw [Option.isSome_iff_exists]
  simp only [stripEnd?_eq_some_iff, List.IsSuffix, eq_comm (a := cs)]

/-- The number that decimal digits are written for, the last digit being the ones. -/
def decimalValue (digits : List Char) : Nat :=
  Nat.ofDigits 10 (digits.reverse.map fun d => d.toNat - '0'.toNat)

/-- Reading the digits from the left comes to the same. -/
theorem foldl_eq_decimalValue (digits : List Char) :
    digits.foldl (fun n d => n * 10 + (d.toNat - '0'.toNat)) 0 = decimalValue digits := by
  rw [decimalValue, Nat.ofDigits_eq_foldr, List.foldr_map, List.foldr_reverse]
  congr 1
  funext n d
  simp only [Nat.cast_id]
  omega

def EndsInNumber (cs : List Char) (n : Nat) : Prop :=
  ∃ name digits, cs = name ++ '[' :: (digits ++ [']']) ∧ digits ≠ [] ∧
    (∀ d ∈ digits, '0' ≤ d ∧ d ≤ '9') ∧ decimalValue digits = n

def EndsInStar (cs : List Char) : Prop := ['[', '*', ']'] <:+ cs

section

variable {cs : List Char} {n : Nat}

/-- What the last brackets of a text hold decides about its index. -/
theorem trailingIndex?_bracketed (name : List Char) {inner : List Char} (clean : '[' ∉ inner) :
    trailingIndex? (name ++ '[' :: (inner ++ [']'])) =
      if inner ≠ [] ∧ inner.all Char.isDigit ∧ decimalValue inner < 2 ^ 64 then
        some (decimalValue inner)
      else none := by
  have backwards : (name ++ '[' :: (inner ++ [']'])).reverse =
      ']' :: (inner.reverse ++ '[' :: name.reverse) := by simp
  have read : (inner.reverse ++ '[' :: name.reverse).takeWhile (· ≠ '[') = inner.reverse := by
    rw [List.takeWhile_append_of_pos]
    · simp
    · intro c member
      simp only [List.mem_reverse] at member
      have other : c ≠ '[' := by
        rintro rfl
        exact clean member
      simpa using other
  rw [trailingIndex?, backwards]
  simp only [read, List.reverse_reverse, foldl_eq_decimalValue]
  simp

theorem exists_bracketed_of_trailingIndex? (found : trailingIndex? cs = some n) :
    ∃ name inner, '[' ∉ inner ∧ cs = name ++ '[' :: (inner ++ [']']) := by
  unfold trailingIndex? at found
  split at found
  · cases found
  next c body backwards =>
    split at found
    next brackets =>
      obtain ⟨rfl, opens⟩ := brackets
      obtain ⟨inner, name, rfl, clean⟩ := List.eq_append_cons_of_mem opens
      refine ⟨name.reverse, inner.reverse, by simpa using clean, ?_⟩
      have forwards := congrArg List.reverse backwards
      simpa using forwards
    · cases found

theorem bracket_not_mem_digits {digits : List Char} (decimal : ∀ d ∈ digits, '0' ≤ d ∧ d ≤ '9') :
    '[' ∉ digits :=
  fun member => absurd (decimal '[' member) (by decide)

/-- A number that has more than 64 bits is no index. -/
theorem EndsInNumber.trailingIndex?_eq (number : EndsInNumber cs n) :
    trailingIndex? cs = if n < 2 ^ 64 then some n else none := by
  obtain ⟨name, digits, rfl, nonempty, decimal, rfl⟩ := number
  have all : digits.all Char.isDigit := by
    simpa only [List.all_eq_true, isDigit_iff] using decimal
  rw [trailingIndex?_bracketed name (bracket_not_mem_digits decimal)]
  simp only [nonempty, all, ne_eq, not_false_eq_true, true_and]

theorem trailingIndex?_eq_some_iff :
    trailingIndex? cs = some n ↔ EndsInNumber cs n ∧ n < 2 ^ 64 := by
  constructor
  · intro found
    obtain ⟨name, inner, clean, rfl⟩ := exists_bracketed_of_trailingIndex? found
    rw [trailingIndex?_bracketed name clean] at found
    split at found
    next fits =>
      cases found
      obtain ⟨nonempty, decimal, small⟩ := fits
      simp only [List.all_eq_true, isDigit_iff] at decimal
      exact ⟨⟨name, inner, rfl, nonempty, decimal, rfl⟩, small⟩
    · cases found
  · rintro ⟨number, small⟩
    rw [number.trailingIndex?_eq, if_pos small]

theorem EndsInNumber.getLast?_eq (number : EndsInNumber cs n) : cs.getLast? = some ']' := by
  obtain ⟨name, digits, rfl, -⟩ := number
  simp [List.getLast?_eq_head?_reverse]

theorem EndsInStar.getLast?_eq (starred : EndsInStar cs) : cs.getLast? = some ']' := by
  obtain ⟨name, rfl⟩ := starred
  simp

/-- The last character between the brackets is a digit in one case and a star in the other. -/
theorem EndsInNumber.not_endsInStar (number : EndsInNumber cs n) : ¬ EndsInStar cs := by
  rintro ⟨name', starred⟩
  obtain ⟨name, digits, rfl, nonempty, decimal, -⟩ := number
  have backwards := congrArg List.reverse starred
  cases last : digits.reverse with
  | nil => simp [nonempty] at last
  | cons d front =>
    have digit := decimal d (List.mem_reverse.1 (last ▸ List.mem_cons_self))
    obtain ⟨rfl, -⟩ : '*' = d ∧ '[' :: name'.reverse = front ++ '[' :: name.reverse := by
      simpa [last] using backwards
    exact absurd digit (by decide)

end

/-- A fan-out expression ends in a letter, or in a parenthesis if it has delimiters. -/
theorem MatrixContext.parse_eq_none_of_bracket {text : String}
    (bracket : text.toList.getLast? = some ']') : parse text = none := by
  rw [parse_eq_none_iff]
  rintro ⟨task, result⟩ ⟨-, rfl | rfl⟩
  · cases result <;> simp [expression, List.getLast?_eq_head?_reverse] at bracket
  · simp [List.getLast?_eq_head?_reverse] at bracket

namespace Reference

/-! ## Kinds -/

/-- The expression is of no special form: it names no fan-out and has no subscript that counts. -/
structure Plain (r : Reference) : Prop where
  noFanOut : MatrixContext.parse r.expression = none
  noStar : ¬ EndsInStar r.expression.toList
  noIndex : ∀ n, EndsInNumber r.expression.toList n → 2 ^ 64 ≤ n

inductive Classified (r : Reference) : ReferenceKind → Prop
  | matrix : (MatrixContext.parse r.expression).isSome → Classified r .matrix
  | star : EndsInStar r.expression.toList → Classified r .star
  | index {n : Nat} : EndsInNumber r.expression.toList n → n < 2 ^ 64 → Classified r (.index n)
  | field {name : String} :
      r.Plain → Unscoped r.expression name → '.' ∈ name.toList → Classified r .field
  | scalar {name : String} :
      r.Plain → Unscoped r.expression name → '.' ∉ name.toList → Classified r .scalar

variable {r : Reference} {k : ReferenceKind}

theorem Unscoped.unique {key name name' : String} (first : Unscoped key name)
    (second : Unscoped key name') : name = name' := by
  rcases first with under | ⟨bare, rfl⟩
  · rcases second with under' | ⟨bare', -⟩
    · exact String.append_right_inj _ |>.1 (under.symm.trans under')
    · exact absurd under (bare' name)
  · rcases second with under' | ⟨-, rfl⟩
    · exact absurd under' (bare name')
    · rfl

theorem Plain.trailingIndex?_eq_none (plain : r.Plain) :
    trailingIndex? r.expression.toList = none := by
  cases found : trailingIndex? r.expression.toList with
  | none => rfl
  | some n =>
    obtain ⟨number, small⟩ := trailingIndex?_eq_some_iff.1 found
    exact absurd (plain.noIndex n number) (Nat.not_le.2 small)

/-- The tests find a kind that fits. -/
theorem classified_kind (r : Reference) : Classified r r.kind := by
  rw [kind, classify]
  split
  next fanOut => exact .matrix fanOut
  next noFanOut =>
    split
    next starred => exact .star (Text.isSome_stripEnd?_iff.1 starred)
    next noStar =>
      split
      next n found =>
        obtain ⟨number, small⟩ := trailingIndex?_eq_some_iff.1 found
        exact .index number small
      next missing =>
        have plain : r.Plain :=
          { noFanOut := Option.not_isSome_iff_eq_none.1 noFanOut
            noStar := mt Text.isSome_stripEnd?_iff.2 noStar
            noIndex := fun n number => by
              by_contra large
              rw [number.trailingIndex?_eq, if_pos (Nat.lt_of_not_le large)] at missing
              cases missing }
        have unscoped := unscoped_stripStart? r.expression.toList
        rw [String.ofList_toList] at unscoped
        split
        next dot => exact .field plain unscoped (by simpa using dot)
        next noDot => exact .scalar plain unscoped (by simpa using noDot)

/-- Without a special form all that counts is a dot behind the scope. -/
theorem Plain.kind_eq {name : String} (plain : r.Plain) (unscoped : Unscoped r.expression name) :
    r.kind = if '.' ∈ name.toList then .field else .scalar := by
  have noFanOut : ¬ (MatrixContext.ofChars? r.expression.toList).isSome :=
    Option.not_isSome_iff_eq_none.2 plain.noFanOut
  have noStar := mt Text.isSome_stripEnd?_iff.1 plain.noStar
  have stripped := unscoped_stripStart? r.expression.toList
  rw [String.ofList_toList] at stripped
  rw [kind, classify, if_neg noFanOut, if_neg noStar, plain.trailingIndex?_eq_none,
    unscoped.unique stripped]
  simp only [String.toList_ofList]

/-- A kind that fits passes its test, and no test before it. -/
theorem Classified.kind_eq (fits : Classified r k) : r.kind = k := by
  have noFanOut (bracket : r.expression.toList.getLast? = some ']') :
      ¬ (MatrixContext.ofChars? r.expression.toList).isSome :=
    Option.not_isSome_iff_eq_none.2 (MatrixContext.parse_eq_none_of_bracket bracket)
  -- a subscript rules out the first test, and a number the second one
  cases fits with
  | matrix fanOut => exact kind_eq_matrix_iff.2 fanOut
  | star starred =>
    rw [kind, classify, if_neg (noFanOut starred.getLast?_eq),
      if_pos (Text.isSome_stripEnd?_iff.2 starred)]
  | index number small =>
    have noStar := mt Text.isSome_stripEnd?_iff.1 number.not_endsInStar
    rw [kind, classify, if_neg (noFanOut number.getLast?_eq), if_neg noStar,
      trailingIndex?_eq_some_iff.2 ⟨number, small⟩]
  | field plain unscoped dot => rw [plain.kind_eq unscoped, if_pos dot]
  | scalar plain unscoped noDot => rw [plain.kind_eq unscoped, if_neg noDot]

theorem kind_eq_iff : r.kind = k ↔ Classified r k :=
  ⟨fun same => same ▸ classified_kind r, Classified.kind_eq⟩

/-! ## References of a text -/

/-- What is read from a text is a reference as it is written. -/
theorem delimited_of_read {text : String}
    (read : r ∈ references text ∨ wholeReference text = some r) :
    IsExpression r.expression.toList ∧ r = delimited r.expression.toList := by
  rcases read with listed | whole
  · obtain ⟨_, plain, written, -⟩ := exists_occursFrom_of_mem listed
    exact ⟨plain, eq_delimited_iff.2 ⟨rfl, written⟩⟩
  · obtain ⟨rfl, named, split⟩ := wholeReference_iff.1 whole
    exact ⟨named.isExpression, eq_delimited_self_iff.2 split⟩

theorem delimited?_of_isExpression {expr : List Char} (plain : IsExpression expr) :
    MatrixContext.delimited? expr = none := by
  cases delimited : MatrixContext.delimited? expr with
  | none => rfl
  | some inner =>
    refine absurd ?_ plain.no_opener
    rw [delimited?_eq_some_iff.1 delimited]
    exact (List.prefix_append ['$', '('] _).isInfix

/-- There are no delimiters inside the delimiters, so what is read with them is what is read without. -/
theorem parse_raw (plain : IsExpression r.expression.toList)
    (written : r = delimited r.expression.toList) :
    MatrixContext.parse r.raw = MatrixContext.parse r.expression := by
  have between : MatrixContext.delimited? r.raw.toList = some r.expression.toList :=
    delimited?_eq_some_iff.2 (eq_delimited_self_iff.1 written)
  rw [MatrixContext.parse, MatrixContext.parse, MatrixContext.ofChars?, MatrixContext.ofChars?, between,
    delimited?_of_isExpression plain]
  rfl

theorem key_ne_expression_iff : r.key ≠ r.expression ↔ EndsInStar r.expression.toList := by
  rw [EndsInStar, ← Text.isSome_stripEnd?_iff, key]
  cases stripped : Text.stripEnd? ['[', '*', ']'] r.expression.toList with
  | none => simp
  | some name =>
    refine iff_of_true (fun same => ?_) rfl
    have starred := Text.stripEnd?_eq_some_iff.1 stripped
    rw [← same] at starred
    simp at starred

/-- The kind of a reference that is read from a text is a matter of its expression alone.  It names a
fan-out, with delimiters or without; or it ends in a star, which is then not part of the key; or it ends
in a number, which has at most 64 bits; or else it is a field or a scalar, by whether there is a dot
behind the scope.  A number of more bits gives no index, neither its own nor another one. -/
theorem kind_of_read {text : String} (read : r ∈ references text ∨ wholeReference text = some r) :
    (r.kind = .matrix ↔ (MatrixContext.parse r.raw).isSome) ∧
    (r.kind = .star ↔ r.key ≠ r.expression) ∧
    (r.key ≠ r.expression ↔ EndsInStar r.expression.toList) ∧
    (∀ n, r.kind = .index n ↔ EndsInNumber r.expression.toList n ∧ n ≤ 2 ^ 64 - 1) ∧
    (∀ n, EndsInNumber r.expression.toList n → 2 ^ 64 - 1 < n → ∀ i, r.kind ≠ .index i) ∧
    (r.kind = .field ↔ r.Plain ∧ ∃ name, Unscoped r.expression name ∧ '.' ∈ name.toList) ∧
    (r.kind = .scalar ↔ r.Plain ∧ ∃ name, Unscoped r.expression name ∧ '.' ∉ name.toList) := by
  obtain ⟨plain, written⟩ := delimited_of_read read
  rw [parse_raw plain written]
  refine ⟨kind_eq_matrix_iff, ?_, key_ne_expression_iff, fun n => ?_, fun n number large i same => ?_,
    ?_, ?_⟩
  · rw [key_ne_expression_iff, kind_eq_iff]
    exact ⟨fun | .star starred => starred, .star⟩
  · rw [kind_eq_iff]
    constructor
    · rintro (_ | _ | ⟨number, small⟩)
      exact ⟨number, Nat.le_pred_of_lt small⟩
    · rintro ⟨number, small⟩
      exact .index number (by omega)
  · -- the index would be the number, but that is too large
    obtain _ | _ | ⟨number', small⟩ := kind_eq_iff.1 same
    have found := trailingIndex?_eq_some_iff.2 ⟨number', small⟩
    rw [number.trailingIndex?_eq, if_neg (by omega)] at found
    cases found
  · rw [kind_eq_iff]
    constructor
    · rintro (_ | _ | _ | ⟨plain, unscoped, dot⟩)
      exact ⟨plain, _, unscoped, dot⟩
    · rintro ⟨plain, name, unscoped, dot⟩
      exact .field plain unscoped dot
  · rw [kind_eq_iff]
    constructor
    · rintro (_ | _ | _ | _ | ⟨plain, unscoped, noDot⟩)
      exact ⟨plain, _, unscoped, noDot⟩
    · rintro ⟨plain, name, unscoped, noDot⟩
      exact .scalar plain unscoped noDot

/-- The largest index there is, written with a zero in front, and the number behind it. -/
theorem kind_of_read_largest :
    let largest : Reference :=
      ⟨"$(params.a.b[0][018446744073709551615])", "params.a.b[0][018446744073709551615]"⟩
    let tooLarge : Reference :=
      ⟨"$(params.a[18446744073709551616])", "params.a[18446744073709551616]"⟩
    (largest ∈ references "$(x$(params.a.b[0][018446744073709551615])" ∧
      largest.kind = .index 18446744073709551615) ∧
    (wholeReference "$(params.a[18446744073709551616])" = some tooLarge ∧
      tooLarge.kind = .scalar ∧ ∀ i, tooLarge.kind ≠ .index i) := by
  intro largest tooLarge
  have listed : largest ∈ references "$(x$(params.a.b[0][018446744073709551615])" := by
    decide +kernel
  have whole : wholeReference "$(params.a[18446744073709551616])" = some tooLarge := by
    decide +kernel
  have number : EndsInNumber largest.expression.toList 18446744073709551615 :=
    ⟨"params.a.b[0]".toList, "018446744073709551615".toList, by simp [largest], by simp, by simp,
      by decide +kernel⟩
  have number' : EndsInNumber tooLarge.expression.toList 18446744073709551616 :=
    ⟨"params.a".toList, "18446744073709551616".toList, by simp [tooLarge], by simp, by simp,
      by decide +kernel⟩
  obtain ⟨-, -, -, index, -⟩ := kind_of_read (.inl listed)
  obtain ⟨-, -, -, -, noIndex, -⟩ := kind_of_read (.inr whole)
  exact ⟨⟨listed, (index _).2 ⟨number, by decide⟩⟩, whole, by decide +kernel,
    noIndex _ number' (by decide)⟩

end Reference

end PipelineParams
