import Mathlib.Data.List.Forall2
import PipelineParams.Proofs.Resolution.Lookup

/-! # What a resolved value looks like

Resolving keeps the shape of a list of parameters and of each value in it, with one exception: a
text that is one reference to a known array or object becomes that array or object.  `Shaped` lists
the cases, `resolveAll_shape` says that there are no others.

An expression can name two keys of a map, one with a star at its end and one without.  A text then
becomes what the shorter key has (`StandsFor`).  An item is replaced by what the longer one has, so
the same reference is the same array in both places only as long as the two keys do not have two
different arrays (`whole_text_and_item_agree_iff`).
-/

namespace PipelineParams

/-! ## Entries -/

section

variable {α : Type} {m : SortedMap α} {expr : List Char}

def Known (m : SortedMap α) (expr : List Char) : Prop := ∃ key ∈ m.keys, Names expr key

/-- What a map has for an expression, under the shortest of its keys that the expression names. -/
def StandsFor (m : SortedMap α) (expr : List Char) (a : α) : Prop :=
  ∃ key, Names expr key ∧ m.get? key = some a ∧
    ∀ other ∈ m.keys, Names expr other → key.toList.length ≤ other.toList.length

/-- Taking a star off makes an expression shorter. -/
theorem starless_eq_or_length_lt (expr : List Char) :
    starless expr = expr ∨ (starless expr).length < expr.length := by
  rcases eq_starless_or expr with same | starred
  · exact .inl same.symm
  · right
    have longer := congrArg List.length starred
    simp only [List.length_append, List.length_cons, List.length_nil] at longer
    omega

/-- Of the keys that an expression names, the one without a star is the shortest. -/
theorem Names.length_starless_le {key : String} (names : Names expr key) :
    (starless expr).length ≤ key.toList.length := by
  rcases eq_of_names names with rfl | rfl
  · rw [String.toList_ofList]
    rcases starless_eq_or_length_lt expr with same | shorter
    · exact Nat.le_of_eq (congrArg List.length same)
    · exact Nat.le_of_lt shorter
  · exact Nat.le_of_eq (congrArg List.length String.toList_ofList.symm)

theorem Names.eq_starless {key : String} (names : Names expr key)
    (short : key.toList.length ≤ (starless expr).length) : key = String.ofList (starless expr) := by
  rcases eq_of_names names with rfl | rfl
  · rw [String.toList_ofList] at short
    rcases starless_eq_or_length_lt expr with same | shorter
    · rw [same]
    · exact absurd short (Nat.not_le.2 shorter)
  · rfl

theorem Reference.lookup?_eq_none_iff {r : Reference} :
    r.lookup? m = none ↔ ¬ Known m r.expression.toList := by
  rw [Reference.lookup?_eq_or, Option.or_eq_none_iff, SortedMap.get?_eq_none_iff,
    SortedMap.get?_eq_none_iff]
  constructor
  · rintro ⟨shorter, whole⟩ ⟨key, member, names⟩
    rcases eq_of_names names with rfl | rfl
    · rw [String.ofList_toList] at member
      exact whole member
    · exact shorter member
  · intro unknown
    exact ⟨fun member => unknown ⟨_, member, names_starless _⟩,
      fun member => unknown ⟨_, member, .inl rfl⟩⟩

theorem Reference.lookup?_eq_some_iff {r : Reference} {a : α} :
    r.lookup? m = some a ↔ StandsFor m r.expression.toList a := by
  rw [Reference.lookup?_eq_or]
  cases shorter : m.get? (String.ofList (starless r.expression.toList)) with
  | some b =>
    constructor
    · rintro ⟨⟩
      refine ⟨_, names_starless _, shorter, fun other _ names => ?_⟩
      rw [String.toList_ofList]
      exact names.length_starless_le
    · rintro ⟨key, names, known, shortest⟩
      have short := shortest _ (SortedMap.mem_keys_of_get? shorter) (names_starless _)
      rw [String.toList_ofList] at short
      rw [names.eq_starless short, shorter] at known
      exact known
  | none =>
    rw [Option.none_or]
    constructor
    · intro known
      refine ⟨r.expression, .inl rfl, known, fun other member names => ?_⟩
      rcases eq_of_names names with rfl | rfl
      · exact Nat.le_of_eq (congrArg List.length String.toList_ofList.symm)
      · exact absurd member (SortedMap.get?_eq_none_iff.1 shorter)
    · rintro ⟨key, names, known, -⟩
      rcases eq_of_names names with rfl | rfl
      · rw [← known, String.ofList_toList]
      · rw [shorter] at known
        cases known

end

/-! ## Shapes -/

/-- A text is one reference to an array or to an object of the context. -/
def Promotes (c : ReplacementContext) (text : String) : Prop :=
  ∃ expr, IsReference text expr ∧ (Known c.arrays expr ∨ Known c.objects expr)

inductive Shaped (c : ReplacementContext) : ParamValue → ParamValue → Prop
  /-- A reference to an array is that array, whatever else has the same key. -/
  | promotedArray {text : String} {expr : List Char} {items : List String} :
      IsReference text expr → StandsFor c.arrays expr items → Shaped c (.string text) (.array items)
  | promotedObject {text : String} {expr : List Char} {fields : SortedMap String} :
      IsReference text expr → ¬ Known c.arrays expr → StandsFor c.objects expr fields →
        Shaped c (.string text) (.object fields)
  | text {text out : String} : ¬ Promotes c text → Shaped c (.string text) (.string out)
  | array {items out : List String} : Shaped c (.array items) (.array out)
  | object {fields out : SortedMap String} :
      out.keys = fields.keys → Shaped c (.object fields) (.object out)

variable {c : ReplacementContext}

theorem StandsFor.known {α : Type} {m : SortedMap α} {expr : List Char} {a : α}
    (stands : StandsFor m expr a) : Known m expr := by
  obtain ⟨key, names, there, -⟩ := stands
  exact ⟨key, SortedMap.mem_keys_of_get? there, names⟩

theorem IsReference.unique {text : String} {expr other : List Char}
    (first : IsReference text expr) (second : IsReference text other) : expr = other := by
  have same := first.2.symm.trans second.2
  simpa using same

theorem shaped_resolve (c : ReplacementContext) (v : ParamValue) : Shaped c v (v.resolve c) := by
  cases v with
  | string text =>
    rw [ParamValue.resolve, promote?]
    cases whole : wholeReference text with
    | none =>
      apply Shaped.text
      rintro ⟨expr, reference, -⟩
      rw [← String.toList_ofList (l := expr)] at reference
      have found : wholeReference text = some ⟨text, String.ofList expr⟩ :=
        wholeReference_iff.2 ⟨rfl, reference⟩
      rw [whole] at found
      cases found
    | some r =>
      have reference := (wholeReference_iff.1 whole).2
      dsimp only
      cases arrays : r.lookup? c.arrays with
      | some items => exact .promotedArray reference (Reference.lookup?_eq_some_iff.1 arrays)
      | none =>
        have noArray := Reference.lookup?_eq_none_iff.1 arrays
        cases objects : r.lookup? c.objects with
        | some fields =>
          exact .promotedObject reference noArray (Reference.lookup?_eq_some_iff.1 objects)
        | none =>
          have noObject := Reference.lookup?_eq_none_iff.1 objects
          apply Shaped.text
          rintro ⟨expr, again, known⟩
          rw [again.unique reference] at known
          exact known.elim noArray noObject
  | array items => exact .array
  | object fields => exact .object (SortedMap.keys_map _ fields)

theorem Shaped.promotes_iff {text : String} {v : ParamValue} (shaped : Shaped c (.string text) v) :
    (∀ out, v ≠ .string out) ↔ Promotes c text := by
  cases shaped with
  | promotedArray reference stands =>
    refine iff_of_true (fun out same => ?_) ⟨_, reference, .inl stands.known⟩
    cases same
  | promotedObject reference _ stands =>
    refine iff_of_true (fun out same => ?_) ⟨_, reference, .inr stands.known⟩
    cases same
  | text plain => exact iff_of_false (fun other => other _ rfl) plain

/-- Resolving a list of parameters keeps their number, names and order, and each value its shape,
but for the texts that are one reference to a known array or object. -/
theorem resolveAll_shape (c : ReplacementContext) (ps : List Param) :
    (resolveAll c ps).map Param.name = ps.map Param.name ∧
      List.Forall₂ (fun p q => Shaped c p.value q.value ∧
        ∀ text, p.value = .string text → ((∀ out, q.value ≠ .string out) ↔ Promotes c text))
        ps (resolveAll c ps) := by
  constructor
  · rw [resolveAll, List.map_map]
    rfl
  · rw [resolveAll, List.forall₂_map_right_iff, List.forall₂_same]
    intro p _
    have shaped := shaped_resolve c p.value
    refine ⟨shaped, fun text here => ?_⟩
    rw [here] at shaped
    rw [Param.resolve, here]
    exact shaped.promotes_iff

/-! ## Texts and items -/

section

variable {text : String} {r : Reference} {items : List String}

theorem resolve_string_eq_array_iff (whole : wholeReference text = some r) :
    (ParamValue.string text).resolve c = .array items ↔ r.lookup? c.arrays = some items := by
  rw [ParamValue.resolve, promote?, whole]
  dsimp only
  cases r.lookup? c.arrays with
  | some found => rw [Option.getD_some, ParamValue.array.injEq, Option.some.injEq]
  | none =>
    refine iff_of_false (fun same => ?_) (fun found => ?_)
    · cases objects : r.lookup? c.objects <;> rw [objects] at same <;> cases same
    · cases found

theorem itemArray?_of_wholeReference (whole : wholeReference text = some r)
    (arrays : SortedMap (List String)) :
    itemArray? arrays text = (arrays.get? r.expression).or (arrays.get? r.key) := by
  have delimited := delimited?_eq_some_iff.2 (wholeReference_iff.1 whole).2.2
  rw [itemArray?_eq_or, delimited, Option.bind_some, String.ofList_toList, Reference.key_eq]

theorem resolve_singleton_of_itemArray? (found : itemArray? c.arrays text = some items) :
    (ParamValue.array [text]).resolve c = .array items := by
  rw [ParamValue.resolve, List.flatMap_singleton, expandItem, found]

/-- Which of two values comes first only matters where both are there and differ. -/
theorem or_agree_iff {α : Type} {a b : Option α} :
    (∀ x, a.or b = some x ↔ b.or a = some x) ↔ ∀ x y, a = some x → b = some y → x = y := by
  cases a with
  | none => simp
  | some x =>
    cases b with
    | none => simp
    | some y =>
      simp only [Option.some_or, Option.some.injEq]
      constructor
      · rintro same _ _ rfl rfl
        exact ((same x).1 rfl).symm
      · intro same z
        rw [same x y rfl rfl]

/-- A whole text and an item are the same array exactly if the context does not have two arrays for
the reference, one under its key and another one under its expression.  One of the two is an array
whenever the other is. -/
theorem whole_text_and_item_agree_iff (whole : wholeReference text = some r)
    (c : ReplacementContext) :
    ((∀ xs, (ParamValue.string text).resolve c = .array xs ↔ itemArray? c.arrays text = some xs) ↔
      ∀ short long, c.arrays.get? r.key = some short → c.arrays.get? r.expression = some long →
        short = long) ∧
    ((∃ xs, (ParamValue.string text).resolve c = .array xs) ↔
      ∃ xs, itemArray? c.arrays text = some xs) ∧
    ∀ xs, itemArray? c.arrays text = some xs → (ParamValue.array [text]).resolve c = .array xs := by
  simp only [resolve_string_eq_array_iff whole, itemArray?_of_wholeReference whole,
    Reference.lookup?_eq_or, ← Reference.key_eq]
  refine ⟨or_agree_iff, ?_, fun xs found => resolve_singleton_of_itemArray? ?_⟩
  · rw [← Option.isSome_iff_exists, ← Option.isSome_iff_exists, Option.isSome_or, Option.isSome_or,
      Bool.or_comm]
  · rw [itemArray?_of_wholeReference whole, found]

/-- Both keys are there, with the same array. -/
theorem whole_text_and_item_agree_starred_key :
    let c := (ReplacementContext.empty.withArray "a" ["1", "2"]).withArray "a[*]" ["1", "2"]
    wholeReference "$(a[*])" = some ⟨"$(a[*])", "a[*]"⟩ ∧
      (∀ xs, (ParamValue.string "$(a[*])").resolve c = .array xs ↔
        itemArray? c.arrays "$(a[*])" = some xs) ∧
      (ParamValue.array ["$(a[*])"]).resolve c = .array ["1", "2"] := by
  intro c
  have whole : wholeReference "$(a[*])" = some ⟨"$(a[*])", "a[*]"⟩ := by decide
  have spliced : itemArray? c.arrays "$(a[*])" = some ["1", "2"] := by decide
  obtain ⟨agree, -, item⟩ := whole_text_and_item_agree_iff whole c
  refine ⟨whole, agree.2 fun short long key expression => ?_, item _ spliced⟩
  have first : c.arrays.get? "a" = some ["1", "2"] := by decide
  have second : c.arrays.get? "a[*]" = some ["1", "2"] := by decide
  rw [show Reference.key ⟨"$(a[*])", "a[*]"⟩ = "a" by decide, first] at key
  rw [second] at expression
  exact Option.some.inj (key.symm.trans expression)

/-- With two arrays a whole text is the one under the key, an item the one under the expression. -/
theorem whole_text_and_item_differ :
    ¬ ∀ (c : ReplacementContext) (text : String) (r : Reference), wholeReference text = some r →
      ∀ xs, (ParamValue.string text).resolve c = .array xs ↔
        itemArray? c.arrays text = some xs := by
  intro agree
  let c := (ReplacementContext.empty.withArray "a" ["1"]).withArray "a[*]" ["2"]
  have promoted : (ParamValue.string "$(a[*])").resolve c = .array ["1"] := by decide
  have spliced : itemArray? c.arrays "$(a[*])" = some ["2"] := by decide
  have same := (agree c "$(a[*])" ⟨"$(a[*])", "a[*]"⟩ (by decide) ["1"]).1 promoted
  rw [spliced] at same
  exact absurd same (by decide)

end

end PipelineParams
