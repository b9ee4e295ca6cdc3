import Mathlib.Computability.Language
import PipelineParams.Proofs.Reference.Whole

/-! # The language of whole references

The texts that are one reference and nothing else are a regular language, written here as the regular
expression that describes them (`reference`).  `wholeReference_language` says that exactly these texts
are taken for a whole reference, and that the reference is the text itself.

The expression describes a name as runs of characters with dots between them.  A dot is a character of
a run as well, so one run says the same (`dotted_eq_name`), and with it the shorter expression
`simpleReference` describes the same language.  That step is Kleene algebra and looks at no text.
-/

namespace PipelineParams

open scoped Computability

namespace Regular

variable {p : Char → Prop} {l : Language Char} {cs : List Char}

/-! ## Parts of expressions -/

/-- The texts of one character of a class. -/
def one (p : Char → Prop) : Language Char := {cs | ∃ c, p c ∧ cs = [c]}

def literal (text : String) : Language Char := {text.toList}

def repeated (l : Language Char) : Language Char := l * l∗

def optional (l : Language Char) : Language Char := 1 + l

theorem mem_one_iff : cs ∈ one p ↔ ∃ c, p c ∧ cs = [c] := Iff.rfl

theorem mem_optional_iff : cs ∈ optional l ↔ cs = [] ∨ cs ∈ l := Iff.rfl

theorem mem_kstar_one_iff : cs ∈ (one p)∗ ↔ ∀ c ∈ cs, p c := by
  rw [Language.mem_kstar]
  constructor
  · rintro ⟨parts, rfl, single⟩ c member
    obtain ⟨part, inParts, inPart⟩ := List.mem_flatten.1 member
    obtain ⟨d, allowed, rfl⟩ := single part inParts
    rwa [List.mem_singleton.1 inPart]
  · intro allowed
    refine ⟨cs.map ([·]), (List.flatMap_singleton' cs).symm, ?_⟩
    simpa [mem_one_iff] using allowed

theorem mem_repeated_one_iff : cs ∈ repeated (one p) ↔ cs ≠ [] ∧ ∀ c ∈ cs, p c := by
  rw [repeated, Language.mem_mul]
  constructor
  · rintro ⟨_, ⟨c, allowed, rfl⟩, rest, more, rfl⟩
    exact ⟨List.cons_ne_nil _ _, List.forall_mem_cons.2 ⟨allowed, mem_kstar_one_iff.1 more⟩⟩
  · rintro ⟨nonempty, allowed⟩
    obtain ⟨c, rest, rfl⟩ := List.exists_cons_of_ne_nil nonempty
    obtain ⟨first, more⟩ := List.forall_mem_cons.1 allowed
    exact ⟨[c], ⟨c, first, rfl⟩, rest, mem_kstar_one_iff.2 more, rfl⟩

/-- One or more members with a separator between any two, where the separator can stand for a member:
these are one or more members. -/
theorem mul_kstar_mul_kstar {K : Type*} [KleeneAlgebra K] {a b : K} (inside : b ≤ a) :
    a * a∗ * (b * (a * a∗))∗ = a * a∗ := by
  apply le_antisymm
  · apply mul_kstar_le_self
    calc a * a∗ * (b * (a * a∗))
      _ ≤ a * a∗ * (a∗ * (a * a∗)) := by
        gcongr
        exact inside.trans le_kstar
      _ = a * (a∗ * (a∗ * (a * a∗))) := mul_assoc a a∗ _
      _ = a * (a∗ * (a * a∗)) := by rw [← mul_assoc a∗ a∗, kstar_mul_kstar]
      _ ≤ a * (a∗ * a∗) := by grw [mul_kstar_le_kstar]
      _ = a * a∗ := by rw [kstar_mul_kstar]
  · calc a * a∗
      _ = a * a∗ * 1 := (mul_one _).symm
      _ ≤ a * a∗ * (b * (a * a∗))∗ := by grw [one_le_kstar]

/-! ## References -/

/-- `[_a-zA-Z0-9.-]+` -/
def name : Language Char := repeated (one NameChar)

/-- `[_a-zA-Z0-9.-]+(\.[_a-zA-Z0-9.-]+)*` -/
def dotted : Language Char := name * (literal "." * name)∗

/-- `\[([0-9]+|\*)\]` -/
def subscript : Language Char :=
  literal "[" * (repeated (one fun c => '0' ≤ c ∧ c ≤ '9') + literal "*") * literal "]"

def expression : Language Char := dotted * optional subscript

def delimited (l : Language Char) : Language Char := literal "$(" * l * literal ")"

/-- `\$\(([_a-zA-Z0-9.-]+(\.[_a-zA-Z0-9.-]+)*(\[([0-9]+|\*)\])?)\)` -/
def reference : Language Char := delimited expression

/-- `\$\(([_a-zA-Z0-9.-]+)(\[([0-9]+|\*)\])?\)` -/
def simpleReference : Language Char := delimited (name * optional subscript)

theorem dotted_eq_name : dotted = name := by
  refine mul_kstar_mul_kstar ?_
  rintro _ rfl
  exact ⟨'.', by decide, rfl⟩

theorem mem_optional_subscript_iff : cs ∈ optional subscript ↔ Subscript cs := by
  rw [mem_optional_iff]
  constructor
  · rintro (rfl | ⟨_, ⟨_, rfl, inner, digits | rfl, rfl⟩, _, rfl, rfl⟩)
    · exact .none
    · obtain ⟨nonempty, digits⟩ := mem_repeated_one_iff.1 digits
      exact .index nonempty digits
    · exact .star
  · rintro (_ | _ | ⟨nonempty, digits⟩)
    · exact .inl rfl
    · exact .inr ⟨['[', '*'], ⟨['['], rfl, ['*'], .inr rfl, rfl⟩, [']'], rfl, rfl⟩
    · exact .inr ⟨_, ⟨['['], rfl, _, .inl (mem_repeated_one_iff.2 ⟨nonempty, digits⟩), rfl⟩,
        [']'], rfl, rfl⟩

theorem mem_expression_iff : cs ∈ expression ↔ NameExpression cs := by
  rw [expression, dotted_eq_name, Language.mem_mul]
  constructor
  · rintro ⟨front, named, behind, optional, rfl⟩
    obtain ⟨nonempty, allowed⟩ := mem_repeated_one_iff.1 named
    exact ⟨front, behind, nonempty, allowed, mem_optional_subscript_iff.1 optional, rfl⟩
  · rintro ⟨front, behind, nonempty, allowed, grammar, rfl⟩
    exact ⟨front, mem_repeated_one_iff.2 ⟨nonempty, allowed⟩, behind,
      mem_optional_subscript_iff.2 grammar, rfl⟩

theorem mem_delimited_iff : cs ∈ delimited l ↔ ∃ inner ∈ l, cs = '$' :: '(' :: (inner ++ [')']) := by
  rw [delimited, Language.mem_mul]
  constructor
  · rintro ⟨_, ⟨_, rfl, inner, member, rfl⟩, _, rfl, rfl⟩
    exact ⟨inner, member, rfl⟩
  · rintro ⟨inner, member, rfl⟩
    exact ⟨_, ⟨_, rfl, inner, member, rfl⟩, _, rfl, rfl⟩

end Regular

theorem wholeReference_eq_some_iff_mem {text : String} {r : Reference} :
    wholeReference text = some r ↔ r.raw = text ∧ text = "$(" ++ r.expression ++ ")" ∧
      r.expression.toList ∈ Regular.expression := by
  have delimited : text = "$(" ++ r.expression ++ ")" ↔
      text.toList = '$' :: '(' :: (r.expression.toList ++ [')']) := by
    rw [← String.toList_inj]
    simp
  rw [wholeReference_iff, IsReference, delimited, Regular.mem_expression_iff,
    and_comm (a := NameExpression _)]

/-- A text is taken for a whole reference exactly if all of it matches the regular expression, or the
simpler one, which means the same.  The reference is then the text itself, and its expression is what
stands between the delimiters. -/
theorem wholeReference_language (text : String) :
    ((wholeReference text).isSome ↔ text.toList ∈ Regular.reference) ∧
    ((wholeReference text).isSome ↔ text.toList ∈ Regular.simpleReference) ∧
    ∀ r, wholeReference text = some r ↔ r.raw = text ∧ text = "$(" ++ r.expression ++ ")" ∧
      r.expression.toList ∈ Regular.expression := by
  have accepted : (wholeReference text).isSome ↔ text.toList ∈ Regular.reference := by
    rw [Option.isSome_iff_exists, Regular.reference, Regular.mem_delimited_iff]
    simp only [wholeReference_iff, IsReference, ← Regular.mem_expression_iff]
    constructor
    · rintro ⟨r, -, member, split⟩
      exact ⟨_, member, split⟩
    · rintro ⟨inner, member, split⟩
      exact ⟨⟨text, String.ofList inner⟩, rfl, by simpa using member, by simpa using split⟩
  have same : Regular.simpleReference = Regular.reference := by
    rw [Regular.simpleReference, Regular.reference, Regular.expression, Regular.dotted_eq_name]
  exact ⟨accepted, same ▸ accepted, fun r => wholeReference_eq_some_iff_mem⟩

/-- Brackets are no characters of a name, and nothing may stand before or behind the reference. -/
example : (wholeReference "$(a.b[*][0])", wholeReference "$(a)\n", wholeReference "$(..-[007])") =
    (none, none, some ⟨"$(..-[007])", "..-[007]"⟩) := by
  decide +kernel

end PipelineParams
