import PipelineParams.Reference.Basic

/-! # Texts that are one reference

The expressions that a whole reference may have, as a grammar: a name of letters, digits, `_`, `.`
and `-`, and behind it at most one subscript, a number or a star between brackets.
`isNameExpression_iff` says that the matcher accepts exactly this grammar, `wholeReference_iff`
carries it over to texts.

The matcher cuts an expression at its first bracket.  A name has none, so the cut is the one between
name and subscript.
-/

namespace PipelineParams

/-! ## Delimiters -/

theorem delimited?_eq_some_iff {cs expr : List Char} :
    MatrixContext.delimited? cs = some expr ↔ cs = '$' :: '(' :: (expr ++ [')']) := by
  simp only [MatrixContext.delimited?, Option.bind_eq_some_iff, Text.stripStart?_eq_some_iff,
    Text.stripEnd?_eq_some_iff]
  constructor
  · rintro ⟨body, rfl, rfl⟩
    rfl
  · rintro rfl
    exact ⟨_, rfl, rfl⟩

/-! ## Grammar -/

def NameChar (c : Char) : Prop :=
  'a' ≤ c ∧ c ≤ 'z' ∨ 'A' ≤ c ∧ c ≤ 'Z' ∨ '0' ≤ c ∧ c ≤ '9' ∨ c = '_' ∨ c = '.' ∨ c = '-'

instance : DecidablePred NameChar := fun c =>
  inferInstanceAs (Decidable
    ('a' ≤ c ∧ c ≤ 'z' ∨ 'A' ≤ c ∧ c ≤ 'Z' ∨ '0' ≤ c ∧ c ≤ '9' ∨ c = '_' ∨ c = '.' ∨ c = '-'))

inductive Subscript : List Char → Prop
  | none : Subscript []
  | star : Subscript ['[', '*', ']']
  | index {digits : List Char} :
      digits ≠ [] → (∀ d ∈ digits, '0' ≤ d ∧ d ≤ '9') → Subscript ('[' :: (digits ++ [']']))

def NameExpression (expr : List Char) : Prop :=
  ∃ name subscript, name ≠ [] ∧ (∀ c ∈ name, NameChar c) ∧ Subscript subscript ∧
    expr = name ++ subscript

/-- A text is one reference and nothing else, with this expression. -/
def IsReference (text : String) (expr : List Char) : Prop :=
  NameExpression expr ∧ text.toList = '$' :: '(' :: (expr ++ [')'])

/-! ## The matcher -/

theorem isDigit_iff {c : Char} : c.isDigit = true ↔ '0' ≤ c ∧ c ≤ '9' := by
  simp only [Char.isDigit, Bool.and_eq_true, decide_eq_true_eq, Char.le_def, ge_iff_le]

theorem isLower_iff {c : Char} : c.isLower = true ↔ 'a' ≤ c ∧ c ≤ 'z' := by
  show (decide ('a' ≤ c) && decide (c ≤ 'z')) = true ↔ _
  rw [Bool.and_eq_true, decide_eq_true_eq, decide_eq_true_eq]

theorem isUpper_iff {c : Char} : c.isUpper = true ↔ 'A' ≤ c ∧ c ≤ 'Z' := by
  show decide ('A' ≤ c ∧ c ≤ 'Z') = true ↔ _
  rw [decide_eq_true_eq]

theorem isAlphanum_iff {c : Char} :
    c.isAlphanum = true ↔ (c.isUpper = true ∨ c.isLower = true) ∨ c.isDigit = true := by
  show (c.isUpper || c.isLower || c.isDigit) = true ↔ _
  rw [Bool.or_eq_true, Bool.or_eq_true]

theorem isNameChar_iff {c : Char} : isNameChar c = true ↔ NameChar c := by
  simp only [isNameChar, Bool.or_eq_true, decide_eq_true_eq, isAlphanum_iff, isLower_iff,
    isUpper_iff, isDigit_iff, NameChar]
  simp only [or_assoc, or_left_comm]

theorem isSubscript_iff {cs : List Char} : cs = [] ∨ isSubscript cs = true ↔ Subscript cs := by
  constructor
  · rintro (rfl | accepted)
    · exact .none
    · cases cs with
      | nil => cases accepted
      | cons c cs =>
        rw [isSubscript, Bool.and_eq_true, decide_eq_true_eq] at accepted
        obtain ⟨rfl, closes⟩ := accepted
        split at closes
        · cases closes
        next inner stripped =>
          rw [Text.stripEnd?_eq_some_iff.1 stripped]
          simp only [Bool.or_eq_true, Bool.and_eq_true, decide_eq_true_eq, List.all_eq_true,
            isDigit_iff] at closes
          rcases closes with rfl | ⟨nonempty, digits⟩
          · exact .star
          · exact .index nonempty digits
  · rintro (_ | _ | ⟨nonempty, digits⟩)
    · exact .inl rfl
    · exact .inr (by decide)
    · right
      rw [isSubscript, Text.stripEnd?_eq_some_iff.2 rfl]
      simp only [Bool.and_eq_true, Bool.or_eq_true, decide_eq_true_eq, List.all_eq_true,
        isDigit_iff, true_and]
      exact .inr ⟨nonempty, digits⟩

theorem NameChar.ne_bracket {c : Char} (allowed : NameChar c) : c ≠ '[' := by
  rintro rfl
  exact absurd allowed (by decide)

theorem isNameExpression_iff {expr : List Char} :
    isNameExpression expr = true ↔ NameExpression expr := by
  simp only [isNameExpression, Bool.and_eq_true, Bool.or_eq_true, decide_eq_true_eq,
    List.all_eq_true, isNameChar_iff, isSubscript_iff]
  constructor
  · rintro ⟨⟨nonempty, name⟩, subscript⟩
    exact ⟨_, _, nonempty, name, subscript, List.takeWhile_append_dropWhile.symm⟩
  · rintro ⟨name, subscript, nonempty, allowed, grammar, rfl⟩
    have inName : ∀ c ∈ name, decide (c ≠ '[') = true := fun c member =>
      decide_eq_true (allowed c member).ne_bracket
    -- the bracket of the subscript, if there is one, is the first one
    have front : subscript.takeWhile (· ≠ '[') = [] := by cases grammar <;> rfl
    have behind : subscript.dropWhile (· ≠ '[') = subscript := by cases grammar <;> rfl
    rw [List.takeWhile_append_of_pos inName, List.dropWhile_append_of_pos inName, front, behind,
      List.append_nil]
    exact ⟨⟨nonempty, allowed⟩, grammar⟩

theorem NameExpression.forall_mem {expr : List Char} (named : NameExpression expr) :
    ∀ c ∈ expr, NameChar c ∨ c ∈ ['[', '*', ']'] := by
  obtain ⟨name, subscript, -, allowed, grammar, rfl⟩ := named
  intro c member
  rcases List.mem_append.1 member with member | member
  · exact .inl (allowed c member)
  · cases grammar with
    | none => cases member
    | star => exact .inr member
    | index _ digits =>
      simp only [List.mem_cons, List.mem_append, List.not_mem_nil, or_false] at member
      rcases member with rfl | inside | rfl
      · exact .inr (by decide)
      · exact .inl (.inr (.inr (.inl (digits c inside))))
      · exact .inr (by decide)

/-- Neither a name nor a subscript has a closing parenthesis. -/
theorem close_not_mem_of_isNameExpression {expr : List Char}
    (named : isNameExpression expr = true) : ')' ∉ expr :=
  fun member => absurd ((isNameExpression_iff.1 named).forall_mem ')' member) (by decide)

/-! ## Texts -/

theorem wholeReference_eq_some_iff {text : String} {r : Reference} :
    wholeReference text = some r ↔
      r.raw = text ∧ text.toList = '$' :: '(' :: (r.expression.toList ++ [')']) ∧
        isNameExpression r.expression.toList = true := by
  rw [wholeReference]
  constructor
  · intro found
    split at found
    · cases found
    next expr delimited =>
      split at found
      next named =>
        cases found
        exact ⟨rfl, by simpa using delimited?_eq_some_iff.1 delimited, by simpa using named⟩
      · cases found
  · obtain ⟨raw, expression⟩ := r
    rintro ⟨rfl, delimited, named⟩
    rw [delimited?_eq_some_iff.2 delimited]
    simp [named]

theorem wholeReference_iff {text : String} {r : Reference} :
    wholeReference text = some r ↔ r.raw = text ∧ IsReference text r.expression.toList := by
  rw [wholeReference_eq_some_iff, isNameExpression_iff, IsReference,
    and_comm (a := text.toList = _)]

end PipelineParams
