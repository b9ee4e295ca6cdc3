import PipelineParams.Proofs.Reference.Whole
import PipelineParams.Proofs.SortedMap.Lookup
import PipelineParams.Substitution

/-! # What a reference is looked up by

A reference to an array or an object is looked up without its star, and then with it
(`Reference.lookup?_eq_or`); an item is looked up the other way round (`itemArray?_eq_or`).  In maps
whose keys do not end in a star the attempt with the star never succeeds, so one lookup under the
expression without its star (`starless`) is all there is: `lookup?_eq`, `itemArray?_eq` and
`promote?_eq`.

`Names` says the same without a function: the keys that an expression names.
-/

namespace PipelineParams

/-! ## Stars -/

def starless (expr : List Char) : List Char := (Text.stripEnd? ['[', '*', ']'] expr).getD expr

theorem starless_append_star (name : List Char) : starless (name ++ ['[', '*', ']']) = name := by
  rw [starless, Text.stripEnd?_eq_some_iff.2 rfl]
  rfl

/-- Either there was no star, or it has been taken off. -/
theorem eq_starless_or (expr : List Char) :
    expr = starless expr ∨ expr = starless expr ++ ['[', '*', ']'] := by
  rw [starless]
  cases stripped : Text.stripEnd? ['[', '*', ']'] expr with
  | none => exact .inl rfl
  | some name => exact .inr (Text.stripEnd?_eq_some_iff.1 stripped)

theorem starless_eq_self {expr : List Char} (noStar : ¬ ['[', '*', ']'] <:+ expr) :
    starless expr = expr := by
  rcases eq_starless_or expr with same | starred
  · exact same.symm
  · exact absurd ⟨starless expr, starred.symm⟩ noStar

/-- A star has no closing parenthesis. -/
theorem close_not_mem_of_starless {expr : List Char} (absent : ')' ∉ starless expr) :
    ')' ∉ expr := by
  rcases eq_starless_or expr with same | starred
  · rw [same]
    exact absent
  · rw [starred]
    simpa using absent

/-- An expression names a key as it stands, or with a star behind it. -/
def Names (expr : List Char) (key : String) : Prop :=
  expr = key.toList ∨ expr = key.toList ++ ['[', '*', ']']

instance (expr : List Char) : DecidablePred (Names expr) := fun key =>
  inferInstanceAs (Decidable (expr = key.toList ∨ expr = key.toList ++ ['[', '*', ']']))

theorem names_self (expr : List Char) : Names expr (String.ofList expr) := by
  left
  rw [String.toList_ofList]

theorem names_starless (expr : List Char) : Names expr (String.ofList (starless expr)) := by
  rw [Names, String.toList_ofList]
  exact eq_starless_or expr

theorem eq_of_names {expr : List Char} {key : String} (names : Names expr key) :
    key = String.ofList expr ∨ key = String.ofList (starless expr) := by
  rcases names with rfl | rfl
  · left
    rw [String.ofList_toList]
  · right
    rw [starless_append_star, String.ofList_toList]

/-! ## Two attempts -/

theorem Reference.key_eq (r : Reference) :
    r.key = String.ofList (starless r.expression.toList) := by
  rw [Reference.key, starless]
  cases Text.stripEnd? ['[', '*', ']'] r.expression.toList with
  | none => rw [Option.getD_none, String.ofList_toList]
  | some name => rfl

/-- A reference is looked up without its star first. -/
theorem Reference.lookup?_eq_or {α : Type} (r : Reference) (m : SortedMap α) :
    r.lookup? m =
      (m.get? (String.ofList (starless r.expression.toList))).or (m.get? r.expression) := by
  rw [Reference.lookup?, Reference.key_eq]
  cases m.get? (String.ofList (starless r.expression.toList)) <;> rfl

/-- An item is looked up with its star first. -/
theorem itemArray?_eq_or (arrays : SortedMap (List String)) (item : String) :
    itemArray? arrays item =
      (MatrixContext.delimited? item.toList).bind fun expr =>
        (arrays.get? (String.ofList expr)).or (arrays.get? (String.ofList (starless expr))) := by
  rw [itemArray?]
  cases MatrixContext.delimited? item.toList with
  | none => rfl
  | some expr =>
    rw [Option.bind_some]
    dsimp only
    cases known : arrays.get? (String.ofList expr) with
    | some items => rfl
    | none =>
      rw [Option.none_or, starless]
      cases Text.stripEnd? ['[', '*', ']'] expr with
      | none => exact known.symm
      | some name => rfl

/-! ## Keys without a star -/

def StarlessKeys {α : Type} (m : SortedMap α) : Prop :=
  ∀ key value, m.get? key = some value → ¬ ['[', '*', ']'] <:+ key.toList

section

variable {α : Type} {m : SortedMap α}

/-- With its star an expression is no key, so looking it up both ways is looking it up without. -/
theorem get?_eq_none_or_starless (starlessKeys : StarlessKeys m) (expr : List Char) :
    starless expr = expr ∨ m.get? (String.ofList expr) = none := by
  rcases eq_starless_or expr with same | starred
  · exact .inl same.symm
  · right
    cases known : m.get? (String.ofList expr) with
    | none => rfl
    | some value =>
      refine absurd ?_ (starlessKeys _ value known)
      rw [String.toList_ofList]
      exact ⟨starless expr, starred.symm⟩

theorem StarlessKeys.merge {n : SortedMap α} (left : StarlessKeys m) (right : StarlessKeys n) :
    StarlessKeys (m.merge n) := by
  intro key value known
  rw [SortedMap.get?_merge] at known
  rcases Option.or_eq_some_iff.1 known with known | ⟨-, known⟩
  · exact right key value known
  · exact left key value known

theorem lookup?_eq (starlessKeys : StarlessKeys m) (r : Reference) :
    r.lookup? m = m.get? (String.ofList (starless r.expression.toList)) := by
  rw [Reference.lookup?_eq_or]
  rcases get?_eq_none_or_starless starlessKeys r.expression.toList with same | unknown
  · rw [same, String.ofList_toList, Option.or_self]
  · rw [String.ofList_toList] at unknown
    rw [unknown, Option.or_none]

end

theorem itemArray?_eq {arrays : SortedMap (List String)} (starlessKeys : StarlessKeys arrays)
    (item : String) :
    itemArray? arrays item =
      (MatrixContext.delimited? item.toList).bind fun expr =>
        arrays.get? (String.ofList (starless expr)) := by
  rw [itemArray?_eq_or]
  congr 1
  funext expr
  rcases get?_eq_none_or_starless starlessKeys expr with same | unknown
  · rw [same, Option.or_self]
  · rw [unknown, Option.none_or]

/-! ## Promotion -/

/-- What a context has under a key that can take the place of a whole text: an array or else an
object. -/
def ReplacementContext.wholeValue? (c : ReplacementContext) (key : String) : Option ParamValue :=
  ((c.arrays.get? key).map .array).or ((c.objects.get? key).map .object)

theorem promote?_eq {c : ReplacementContext} (arrays : StarlessKeys c.arrays)
    (objects : StarlessKeys c.objects) (text : String) :
    promote? c text =
      (wholeReference text).bind fun r =>
        c.wholeValue? (String.ofList (starless r.expression.toList)) := by
  rw [promote?]
  cases wholeReference text with
  | none => rfl
  | some r =>
    rw [Option.bind_some, ReplacementContext.wholeValue?]
    dsimp only
    rw [lookup?_eq arrays, lookup?_eq objects]
    cases c.arrays.get? (String.ofList (starless r.expression.toList)) <;> rfl

end PipelineParams
