import Mathlib.Algebra.GroupWithZero.Nat
import Mathlib.Data.List.Forall2
import PipelineParams.Collection
import PipelineParams.Proofs.Resolution.Mention
import PipelineParams.Proofs.Resolution.Promotion

/-! # How long resolved arrays are

A matrixed task runs once for every item of an array, so the length of a resolved array is known before
anything runs.  `ResolvedLength` predicts it from the value and the context: an item counts as the array
that it refers to, or else as one, and a text counts as the array that it becomes.

`resolvedLength_iff` says that the prediction is right and that there is one exactly for the values that
become arrays.  `Param.arrayLengths_resolveAll` carries it over to lists of parameters.
-/

namespace PipelineParams

/-! ## Items -/

/-- The number of items that take the place of one item.  An item can refer to two keys, one of which
ends in `[*]`; the longer one counts. -/
inductive ItemLength (arrays : SortedMap (List String)) (item : String) : Nat → Prop
  | array {key : String} {items : List String} :
      RefersTo item key → arrays.get? key = some items →
      (∀ other ∈ arrays.keys, RefersTo item other → other.toList.length ≤ key.toList.length) →
        ItemLength arrays item items.length
  | other : (∀ key ∈ arrays.keys, ¬ RefersTo item key) → ItemLength arrays item 1

theorem refersTo_iff {item key : String} :
    RefersTo item key ↔
      ∃ expr, MatrixContext.delimited? item.toList = some expr ∧ Names expr key := by
  simp only [delimited?_eq_some_iff]
  constructor
  · rintro (plain | starred)
    · exact ⟨key.toList, plain, .inl rfl⟩
    · exact ⟨key.toList ++ ['[', '*', ']'], by simpa using starred, .inr rfl⟩
  · rintro ⟨expr, delimited, names⟩
    exact refersTo_of_names delimited names

section

variable {expr : List Char} {key : String}

/-- An expression names no longer key than itself. -/
theorem Names.length_le (names : Names expr key) : key.toList.length ≤ expr.length := by
  rcases names with rfl | rfl
  · exact Nat.le_refl _
  · simp

theorem Names.eq_self (names : Names expr key) (long : expr.length ≤ key.toList.length) :
    key = String.ofList expr := by
  rcases names with rfl | rfl
  · rw [String.ofList_toList]
  · simp only [List.length_append, List.length_cons, List.length_nil] at long
    omega

end

section

variable {arrays : SortedMap (List String)} {item : String} {items : List String}

theorem itemArray?_eq_none_iff :
    itemArray? arrays item = none ↔ ∀ key ∈ arrays.keys, ¬ RefersTo item key := by
  rw [itemArray?_eq_or]
  simp only [refersTo_iff]
  cases MatrixContext.delimited? item.toList with
  | none => simp
  | some expr =>
    simp only [Option.bind_some, Option.or_eq_none_iff, SortedMap.get?_eq_none_iff,
      Option.some.injEq, exists_eq_left']
    constructor
    · rintro ⟨whole, shorter⟩ key member names
      rcases eq_of_names names with rfl | rfl
      · exact whole member
      · exact shorter member
    · intro unnamed
      exact ⟨fun member => unnamed _ member (names_self expr),
        fun member => unnamed _ member (names_starless expr)⟩

theorem itemArray?_eq_some_iff :
    itemArray? arrays item = some items ↔
      ∃ key, RefersTo item key ∧ arrays.get? key = some items ∧
        ∀ other ∈ arrays.keys, RefersTo item other → other.toList.length ≤ key.toList.length := by
  rw [itemArray?_eq_or]
  simp only [refersTo_iff]
  cases MatrixContext.delimited? item.toList with
  | none => simp
  | some expr =>
    simp only [Option.bind_some, Option.some.injEq, exists_eq_left']
    cases whole : arrays.get? (String.ofList expr) with
    | some found =>
      rw [Option.some_or, Option.some.injEq]
      constructor
      · rintro rfl
        refine ⟨_, names_self expr, whole, fun other _ names => ?_⟩
        rw [String.toList_ofList]
        exact names.length_le
      · rintro ⟨key, names, known, longest⟩
        have long := longest _ (SortedMap.mem_keys_of_get? whole) (names_self expr)
        rw [String.toList_ofList] at long
        rw [names.eq_self long] at known
        exact Option.some.inj (whole.symm.trans known)
    | none =>
      rw [Option.none_or]
      constructor
      · intro shorter
        refine ⟨_, names_starless expr, shorter, fun other member names => ?_⟩
        rcases eq_of_names names with rfl | rfl
        · exact absurd member (SortedMap.get?_eq_none_iff.1 whole)
        · exact Nat.le_refl _
      · rintro ⟨key, names, known, -⟩
        rcases eq_of_names names with rfl | rfl
        · cases whole.symm.trans known
        · exact known

theorem length_expandItem_iff {strings : SortedMap String} {n : Nat} :
    (expandItem strings arrays item).length = n ↔ ItemLength arrays item n := by
  rw [expandItem]
  cases found : itemArray? arrays item with
  | some items =>
    dsimp only
    constructor
    · rintro rfl
      obtain ⟨key, refers, known, longest⟩ := itemArray?_eq_some_iff.1 found
      exact .array refers known longest
    · rintro (⟨refers, known, longest⟩ | none)
      · have same := itemArray?_eq_some_iff.2 ⟨_, refers, known, longest⟩
        rw [Option.some.inj (found.symm.trans same)]
      · cases found.symm.trans (itemArray?_eq_none_iff.2 none)
  | none =>
    dsimp only
    constructor
    · rintro rfl
      exact .other (itemArray?_eq_none_iff.1 found)
    · rintro (⟨refers, known, longest⟩ | -)
      · cases found.symm.trans (itemArray?_eq_some_iff.2 ⟨_, refers, known, longest⟩)
      · rfl

end

/-! ## Values -/

inductive ResolvedLength (c : ReplacementContext) : ParamValue → Nat → Prop
  | array {items : List String} {lengths : List Nat} :
      List.Forall₂ (ItemLength c.arrays) items lengths → ResolvedLength c (.array items) lengths.sum
  | promoted {text : String} {expr : List Char} {items : List String} :
      IsReference text expr → StandsFor c.arrays expr items →
        ResolvedLength c (.string text) items.length

section

variable {c : ReplacementContext}

theorem length_resolve_items_iff {items : List String} {lengths : List Nat} :
    items.map (fun item => (expandItem c.strings c.arrays item).length) = lengths ↔
      List.Forall₂ (ItemLength c.arrays) items lengths := by
  rw [← List.forall₂_eq_eq_eq, List.forall₂_map_left_iff]
  simp only [length_expandItem_iff]

theorem resolve_string_of_standsFor {text : String} {expr : List Char} {items : List String}
    (reference : IsReference text expr) (stands : StandsFor c.arrays expr items) :
    (ParamValue.string text).resolve c = .array items := by
  rw [← String.toList_ofList (l := expr)] at reference stands
  have whole : wholeReference text = some ⟨text, String.ofList expr⟩ :=
    wholeReference_iff.2 ⟨rfl, reference⟩
  exact (resolve_string_eq_array_iff whole).2 (Reference.lookup?_eq_some_iff.2 stands)

/-- The prediction is right, and there is one exactly for what becomes an array. -/
theorem resolvedLength_iff {v : ParamValue} {n : Nat} :
    ResolvedLength c v n ↔ ∃ items, v.resolve c = .array items ∧ items.length = n := by
  constructor
  · rintro (lengths | ⟨reference, stands⟩)
    · refine ⟨_, rfl, ?_⟩
      rw [List.length_flatMap, length_resolve_items_iff.2 lengths]
    · exact ⟨_, resolve_string_of_standsFor reference stands, rfl⟩
  · rintro ⟨items, resolved, rfl⟩
    have shaped := shaped_resolve c v
    rw [resolved] at shaped
    cases shaped with
    | promotedArray reference stands => exact .promoted reference stands
    | @array given =>
      rw [ParamValue.resolve, ParamValue.array.injEq] at resolved
      rw [← resolved, List.length_flatMap]
      exact .array (length_resolve_items_iff.1 rfl)

theorem length?_resolve_eq_some_iff {v : ParamValue} {n : Nat} :
    (v.resolve c).length? = some n ↔ ResolvedLength c v n := by
  rw [resolvedLength_iff]
  cases v.resolve c <;> simp [ParamValue.length?, ParamValue.array?]

theorem length?_resolve_eq_none_iff {v : ParamValue} :
    (v.resolve c).length? = none ↔ ∀ items, v.resolve c ≠ .array items := by
  cases v.resolve c <;> simp [ParamValue.length?, ParamValue.array?]

end

/-! ## Lists of parameters -/

namespace Param

theorem arrayLengths_resolveAll_eq (c : ReplacementContext) (ps : List Param) :
    arrayLengths (resolveAll c ps) =
      SortedMap.ofList (ps.filterMap fun p => (p.value.resolve c).length?.map fun n => (p.name, n)) := by
  rw [arrayLengths, resolveAll, List.filterMap_map]
  rfl

/-- A name has a length after resolving exactly if a parameter of this name becomes an array, whatever
comes behind it.  The length is the one predicted for the last parameter of this name that becomes an
array. -/
theorem arrayLengths_resolveAll (c : ReplacementContext) (ps : List Param) :
    (∀ name, name ∈ (arrayLengths (resolveAll c ps)).keys ↔
      ∃ p ∈ ps, p.name = name ∧ ∃ items, p.value.resolve c = .array items) ∧
    (∀ name n, (arrayLengths (resolveAll c ps)).get? name = some n ↔
      ∃ before p after, ps = before ++ p :: after ∧ p.name = name ∧ ResolvedLength c p.value n ∧
        ∀ q ∈ after, q.name = name → ∀ items, q.value.resolve c ≠ .array items) ∧
    (∀ v n, ResolvedLength c v n ↔ ∃ items, v.resolve c = .array items ∧ items.length = n) := by
  rw [arrayLengths_resolveAll_eq]
  refine ⟨fun name => ?_, fun name n => ?_, fun v n => resolvedLength_iff⟩
  · simp only [SortedMap.mem_keys_ofList, List.mem_map, List.mem_filterMap, Option.map_eq_some_iff,
      length?_resolve_eq_some_iff, resolvedLength_iff]
    constructor
    · rintro ⟨_, ⟨p, member, n, ⟨items, becomes, -⟩, rfl⟩, rfl⟩
      exact ⟨p, member, rfl, items, becomes⟩
    · rintro ⟨p, member, rfl, items, becomes⟩
      exact ⟨_, ⟨p, member, _, ⟨items, becomes, rfl⟩, rfl⟩, rfl⟩
  · rw [SortedMap.get?_ofList_filterMap_eq_some_iff]
    simp only [length?_resolve_eq_some_iff, length?_resolve_eq_none_iff]

/-- An empty array takes the place of its item, and of two parameters with one name only one becomes an
array. -/
example :
    let c := (ReplacementContext.empty.withArray "none" []).withArray "two" ["1", "2"]
    let ps : List Param :=
      [⟨"x", .array ["$(none)", "$(two[*])", "x$(two)"]⟩, ⟨"y", .string "$(two)"⟩,
        ⟨"y", .string "$(two) "⟩]
    arrayLengths (resolveAll c ps) = SortedMap.ofList [("x", 3), ("y", 2)] := by
  decide +kernel

end Param

end PipelineParams
