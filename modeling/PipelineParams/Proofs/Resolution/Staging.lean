import Mathlib.Data.List.Basic
import PipelineParams.Proofs.Context.Merge
import PipelineParams.Proofs.Resolution.Lookup
import PipelineParams.Proofs.Substitution.Staging

/-! # Resolution in stages

Resolving a value in one context and the result in another is resolving it once in the merge of the
two, so the order does not matter and a second resolution in the same context changes nothing.  The
contexts have to be tame (`ReplacementContext.Tame`: nothing that they put into a value can be taken
up later) and to agree on the keys that they share, and the references in the value must not be
nested.

Promotion and splicing are where a first resolution could spoil a second one.  Two facts rule it
out:
`substitute_eq_self_of_delimited` says that no text becomes one reference that was not, and
`knows_of_substitute_ne` says that a reference which was replaced by a text belongs to a key of the
first context, which has no array and no object to offer and no say in the second one.
-/

namespace PipelineParams

/-! ## Tame contexts -/

structure TameKey (key : String) : Prop where
  no_close : ')' ∉ key.toList
  no_opener : ¬ ['$', '('] <:+: key.toList
  no_star : ¬ ['[', '*', ']'] <:+ key.toList

instance : DecidablePred TameKey := fun key =>
  decidable_of_iff
    (')' ∉ key.toList ∧ ¬ ['$', '('] <:+: key.toList ∧ ¬ ['[', '*', ']'] <:+ key.toList)
    ⟨fun ⟨h₁, h₂, h₃⟩ => ⟨h₁, h₂, h₃⟩, fun ⟨h₁, h₂, h₃⟩ => ⟨h₁, h₂, h₃⟩⟩

namespace ReplacementContext

/-- Nothing that the context puts into a value can be taken up by a later resolution. -/
structure Tame (c : ReplacementContext) : Prop where
  string_keys : ∀ key ∈ c.strings.keys, TameKey key
  array_keys : ∀ key ∈ c.arrays.keys, TameKey key
  object_keys : ∀ key ∈ c.objects.keys, TameKey key
  values : ∀ value ∈ c.strings.values, InertValue value
  items : ∀ items ∈ c.arrays.values, ∀ item ∈ items, ¬ ['$', '('] <:+: item.toList
  fields : ∀ fields ∈ c.objects.values, ∀ value ∈ fields.values, ¬ ['$', '('] <:+: value.toList

instance : DecidablePred Tame := fun c =>
  decidable_of_iff
    ((∀ key ∈ c.strings.keys, TameKey key) ∧ (∀ key ∈ c.arrays.keys, TameKey key) ∧
      (∀ key ∈ c.objects.keys, TameKey key) ∧ (∀ value ∈ c.strings.values, InertValue value) ∧
      (∀ items ∈ c.arrays.values, ∀ item ∈ items, ¬ ['$', '('] <:+: item.toList) ∧
      (∀ fields ∈ c.objects.values, ∀ value ∈ fields.values, ¬ ['$', '('] <:+: value.toList))
    ⟨fun ⟨h₁, h₂, h₃, h₄, h₅, h₆⟩ => ⟨h₁, h₂, h₃, h₄, h₅, h₆⟩,
      fun ⟨h₁, h₂, h₃, h₄, h₅, h₆⟩ => ⟨h₁, h₂, h₃, h₄, h₅, h₆⟩⟩

def Knows (c : ReplacementContext) (key : String) : Prop :=
  key ∈ c.strings.keys ∨ key ∈ c.arrays.keys ∨ key ∈ c.objects.keys

instance (c : ReplacementContext) : DecidablePred c.Knows := fun key =>
  inferInstanceAs
    (Decidable (key ∈ c.strings.keys ∨ key ∈ c.arrays.keys ∨ key ∈ c.objects.keys))

structure SameAt (c d : ReplacementContext) (key : String) : Prop where
  strings : c.strings.get? key = d.strings.get? key
  arrays : c.arrays.get? key = d.arrays.get? key
  objects : c.objects.get? key = d.objects.get? key

/-- Two contexts have the same under every key that both of them know. -/
def Agree (c d : ReplacementContext) : Prop :=
  ∀ key, c.Knows key → d.Knows key → c.SameAt d key

instance (c d : ReplacementContext) : DecidablePred (c.SameAt d) := fun key =>
  decidable_of_iff
    (c.strings.get? key = d.strings.get? key ∧ c.arrays.get? key = d.arrays.get? key ∧
      c.objects.get? key = d.objects.get? key)
    ⟨fun ⟨h₁, h₂, h₃⟩ => ⟨h₁, h₂, h₃⟩, fun ⟨h₁, h₂, h₃⟩ => ⟨h₁, h₂, h₃⟩⟩

instance (c d : ReplacementContext) : Decidable (c.Agree d) :=
  decidable_of_iff
    (∀ key ∈ c.strings.keys ++ c.arrays.keys ++ c.objects.keys, d.Knows key → c.SameAt d key)
    ⟨fun h key left => h key (by simpa [Knows, or_assoc] using left),
      fun h key left => h key (by simpa [Knows, or_assoc] using left)⟩

theorem SameAt.symm {c d : ReplacementContext} {key : String} (same : c.SameAt d key) :
    d.SameAt c key :=
  ⟨same.strings.symm, same.arrays.symm, same.objects.symm⟩

theorem Agree.symm {c d : ReplacementContext} (agree : c.Agree d) : d.Agree c :=
  fun key left right => (agree key right left).symm

theorem agree_refl (c : ReplacementContext) : c.Agree c :=
  fun _ _ _ => ⟨rfl, rfl, rfl⟩

theorem SameAt.wholeValue?_eq {c d : ReplacementContext} {key : String} (same : c.SameAt d key) :
    c.wholeValue? key = d.wholeValue? key := by
  rw [wholeValue?, wholeValue?, same.arrays, same.objects]

variable {c : ReplacementContext}

theorem Tame.plainKeys (tame : c.Tame) : PlainKeys c.strings :=
  fun key _ known => (tame.string_keys key (SortedMap.mem_keys_of_get? known)).no_close

theorem Tame.plainArrayKeys (tame : c.Tame) : PlainKeys c.arrays :=
  fun key _ known => (tame.array_keys key (SortedMap.mem_keys_of_get? known)).no_close

theorem Tame.inertValues (tame : c.Tame) : InertValues c.strings :=
  fun _ value known => tame.values value (SortedMap.mem_values_of_get? known)

theorem Tame.starlessKeys (tame : c.Tame) : StarlessKeys c.strings :=
  fun key _ known => (tame.string_keys key (SortedMap.mem_keys_of_get? known)).no_star

theorem Tame.starlessArrays (tame : c.Tame) : StarlessKeys c.arrays :=
  fun key _ known => (tame.array_keys key (SortedMap.mem_keys_of_get? known)).no_star

theorem Tame.starlessObjects (tame : c.Tame) : StarlessKeys c.objects :=
  fun key _ known => (tame.object_keys key (SortedMap.mem_keys_of_get? known)).no_star

/-! ## Merging contexts that agree -/

variable {d : ReplacementContext} {key : String}

theorem get?_eq_none_of_not_knows (unknown : ¬ c.Knows key) :
    c.strings.get? key = none ∧ c.arrays.get? key = none ∧ c.objects.get? key = none := by
  simp only [Knows, not_or] at unknown
  exact ⟨SortedMap.get?_eq_none_of_not_mem_keys unknown.1,
    SortedMap.get?_eq_none_of_not_mem_keys unknown.2.1,
    SortedMap.get?_eq_none_of_not_mem_keys unknown.2.2⟩

theorem sameAt_merge_of_knows (agree : c.Agree d) (known : c.Knows key) :
    (c.merge d).SameAt c key := by
  by_cases shared : d.Knows key
  · obtain ⟨strings, arrays, objects⟩ := agree key known shared
    constructor <;> simp [merge, SortedMap.get?_merge, strings, arrays, objects]
  · obtain ⟨strings, arrays, objects⟩ := get?_eq_none_of_not_knows shared
    constructor <;> simp [merge, SortedMap.get?_merge, strings, arrays, objects]

theorem sameAt_merge_of_not_knows (unknown : ¬ c.Knows key) : (c.merge d).SameAt d key := by
  obtain ⟨strings, arrays, objects⟩ := get?_eq_none_of_not_knows unknown
  constructor <;> simp [merge, SortedMap.get?_merge, strings, arrays, objects]

theorem get?_merge_strings (agree : c.Agree d) (key : String) :
    (c.merge d).strings.get? key = (c.strings.get? key).or (d.strings.get? key) := by
  cases known : c.strings.get? key with
  | none => simp [merge, SortedMap.get?_merge, known]
  | some value =>
    have same := sameAt_merge_of_knows agree (.inl (SortedMap.mem_keys_of_get? known))
    rw [same.strings, known, Option.some_or]

private theorem merge_map_comm {α : Type} {m n : SortedMap α}
    (agree : ∀ key, key ∈ m.keys → key ∈ n.keys → m.get? key = n.get? key) :
    m.merge n = n.merge m := by
  apply SortedMap.merge_comm_of_agree
  intro key a b left right
  have same := agree key (SortedMap.mem_keys_of_get? left) (SortedMap.mem_keys_of_get? right)
  rw [left, right] at same
  exact Option.some.inj same

theorem merge_comm (agree : c.Agree d) : c.merge d = d.merge c := by
  rw [merge, merge, mk.injEq]
  refine ⟨merge_map_comm fun key left right => ?_, merge_map_comm fun key left right => ?_,
    merge_map_comm fun key left right => ?_⟩
  · exact (agree key (.inl left) (.inl right)).strings
  · exact (agree key (.inr (.inl left)) (.inr (.inl right))).arrays
  · exact (agree key (.inr (.inr left)) (.inr (.inr right))).objects

end ReplacementContext

/-! ## What a first resolution leaves -/

variable {c : ReplacementContext}

/-- A text that has become a reference was that reference before. -/
theorem substitute_eq_self_of_delimited (tame : c.Tame) {text : String} {expr : List Char}
    (flat : ¬ NestedOpener text.toList) (noClose : ')' ∉ expr)
    (delimited : (substitute c.strings text).toList = '$' :: '(' :: (expr ++ [')'])) :
    substitute c.strings text = text := by
  rw [toList_substitute] at delimited
  rw [← String.toList_inj, toList_substitute]
  exact substituteChars_eq_self_of_reference tame.plainKeys tame.inertValues flat delimited noClose

/-- A reference that was replaced by a text has a key that the context knows. -/
theorem knows_of_substitute_ne (tame : c.Tame) {text : String} {expr : List Char}
    (delimited : text.toList = '$' :: '(' :: (expr ++ [')'])) (noClose : ')' ∉ expr)
    (flat : ¬ NestedOpener text.toList) (changed : substitute c.strings text ≠ text) :
    c.Knows (String.ofList (starless expr)) := by
  rw [delimited] at flat
  cases known : c.strings.get? (String.ofList expr) with
  | some value =>
    -- No key of the context ends in a star, so the expression names it as it stands.
    have noStar := tame.starlessKeys _ value known
    rw [String.toList_ofList] at noStar
    rw [starless_eq_self noStar]
    exact .inl (SortedMap.mem_keys_of_get? known)
  | none =>
    refine absurd ?_ changed
    rw [← String.toList_inj, toList_substitute, delimited,
      substituteChars_reference tame.plainKeys noClose (no_opener_of_flat noClose flat),
      replacement, known, substituteChars_nil, List.append_nil]

theorem substitute_of_no_opener {text : String} (absent : ¬ ['$', '('] <:+: text.toList) :
    substitute c.strings text = text := by
  rw [← String.toList_inj, toList_substitute, substituteChars_of_no_opener absent]

theorem not_infix_of_delimited {text : String} {expr : List Char}
    (delimited : text.toList = '$' :: '(' :: (expr ++ [')'])) : ['$', '('] <:+: text.toList := by
  rw [delimited]
  exact (List.prefix_append ['$', '('] _).isInfix

theorem promote?_of_no_opener {text : String} (absent : ¬ ['$', '('] <:+: text.toList) :
    promote? c text = none := by
  rw [promote?]
  split
  · rfl
  next r whole =>
    exact absurd (not_infix_of_delimited (wholeReference_eq_some_iff.1 whole).2.1) absent

theorem expandItem_of_no_opener {item : String} (absent : ¬ ['$', '('] <:+: item.toList) :
    expandItem c.strings c.arrays item = [item] := by
  have plain : itemArray? c.arrays item = none := by
    rw [itemArray?]
    split
    · rfl
    next expr delimited =>
      exact absurd (not_infix_of_delimited (delimited?_eq_some_iff.1 delimited)) absent
  rw [expandItem, plain, substitute_of_no_opener absent]

/-! ## Replacing a whole text -/

/-- A way to replace a text that is one reference: how its expression is found, and what a context
has for it. -/
structure Taking (α : Type) where
  expression? : List Char → Option (List Char)
  look? : ReplacementContext → String → Option α
  delimited : ∀ {cs expr : List Char}, expression? cs = some expr →
    cs = '$' :: '(' :: (expr ++ [')'])
  congr : ∀ {c d : ReplacementContext} {key : String}, c.SameAt d key → look? c key = look? d key
  empty : ∀ key, look? .empty key = none
  no_close : ∀ {c : ReplacementContext} {cs expr : List Char} {a : α}, c.Tame →
    expression? cs = some expr → look? c (String.ofList (starless expr)) = some a → ')' ∉ expr

namespace Taking

variable {α : Type} (t : Taking α) {d : ReplacementContext}

def take? (c : ReplacementContext) (text : String) : Option α :=
  (t.expression? text.toList).bind fun expr => t.look? c (String.ofList (starless expr))

theorem look?_of_not_knows {key : String} (unknown : ¬ c.Knows key) : t.look? c key = none := by
  obtain ⟨strings, arrays, objects⟩ := ReplacementContext.get?_eq_none_of_not_knows unknown
  rw [← t.empty key]
  exact t.congr ⟨strings, arrays, objects⟩

/-- The merge has what the first context has, and else what the second one has. -/
theorem look?_merge (agree : c.Agree d) (key : String) :
    t.look? (c.merge d) key = (t.look? c key).or (t.look? d key) := by
  by_cases known : c.Knows key
  · rw [t.congr (ReplacementContext.sameAt_merge_of_knows agree known)]
    by_cases shared : d.Knows key
    · rw [t.congr (agree key known shared), Option.or_self]
    · rw [t.look?_of_not_knows shared, Option.or_none]
  · rw [t.congr (ReplacementContext.sameAt_merge_of_not_knows known), t.look?_of_not_knows known,
      Option.none_or]

theorem take?_merge_of_some (agree : c.Agree d) {text : String} {a : α}
    (taken : t.take? c text = some a) : t.take? (c.merge d) text = some a := by
  obtain ⟨expr, found, known⟩ := Option.bind_eq_some_iff.1 taken
  rw [take?, found, Option.bind_some, t.look?_merge agree, known, Option.some_or]

/-- A text that the first context does not replace as a whole is replaced by the second one, after
its references have been substituted, exactly if the merge replaces it. -/
theorem take?_substitute (tameC : c.Tame) (tameD : d.Tame) (agree : c.Agree d) {text : String}
    (flat : ¬ NestedOpener text.toList) (untaken : t.take? c text = none) :
    t.take? d (substitute c.strings text) = t.take? (c.merge d) text := by
  have untaken' : ∀ {expr}, t.expression? text.toList = some expr →
      t.look? c (String.ofList (starless expr)) = none := by
    intro expr found
    rw [take?, found] at untaken
    exact untaken
  by_cases same : substitute c.strings text = text
  · rw [same, take?, take?]
    cases found : t.expression? text.toList with
    | none => rfl
    | some expr =>
      rw [Option.bind_some, Option.bind_some, t.look?_merge agree, untaken' found, Option.none_or]
  · -- The text has changed, so it is no reference now, and its key belongs to the first context.
    have left : t.take? d (substitute c.strings text) = none := by
      rw [Option.eq_none_iff_forall_ne_some]
      intro a taken
      obtain ⟨expr, found, known⟩ := Option.bind_eq_some_iff.1 taken
      exact same (substitute_eq_self_of_delimited tameC flat (t.no_close tameD found known)
        (t.delimited found))
    have right : t.take? (c.merge d) text = none := by
      rw [Option.eq_none_iff_forall_ne_some]
      intro a taken
      obtain ⟨expr, found, known⟩ := Option.bind_eq_some_iff.1 taken
      rw [t.look?_merge agree, untaken' found, Option.none_or] at known
      have owned := knows_of_substitute_ne tameC (t.delimited found)
        (t.no_close tameD found known) flat same
      by_cases shared : d.Knows (String.ofList (starless expr))
      · rw [← t.congr (agree _ owned shared), untaken' found] at known
        cases known
      · rw [t.look?_of_not_knows shared] at known
        cases known
    rw [left, right]

/-- Splicing. -/
def item : Taking (List String) where
  expression? := MatrixContext.delimited?
  look? c key := c.arrays.get? key
  delimited := delimited?_eq_some_iff.1
  congr same := same.arrays
  empty _ := rfl
  no_close tame _ known := close_not_mem_of_starless (by
    simpa using tame.plainArrayKeys _ _ known)

/-- Promotion. -/
def text : Taking ParamValue where
  expression? cs := (MatrixContext.delimited? cs).filter isNameExpression
  look? := ReplacementContext.wholeValue?
  delimited found := delimited?_eq_some_iff.1 (Option.filter_eq_some_iff.1 found).1
  congr same := same.wholeValue?_eq
  empty _ := rfl
  no_close _ found _ := close_not_mem_of_isNameExpression (Option.filter_eq_some_iff.1 found).2

theorem take?_item (starlessKeys : StarlessKeys c.arrays) (text : String) :
    item.take? c text = itemArray? c.arrays text :=
  (itemArray?_eq starlessKeys text).symm

theorem take?_text (arrays : StarlessKeys c.arrays) (objects : StarlessKeys c.objects)
    (s : String) : text.take? c s = promote? c s := by
  rw [promote?_eq arrays objects, take?, wholeReference]
  dsimp only [text]
  cases MatrixContext.delimited? s.toList with
  | none => rfl
  | some expr =>
    rw [Option.filter_some]
    by_cases named : isNameExpression expr = true
    · simp [named]
    · simp [named]

end Taking

/-! ## Items and values -/

section

variable {d : ReplacementContext}

theorem substitute_substitute (tameC : c.Tame) (tameD : d.Tame) (agree : c.Agree d) {text : String}
    (flat : ¬ NestedOpener text.toList) :
    substitute d.strings (substitute c.strings text) = substitute (c.merge d).strings text := by
  simp only [← String.toList_inj, toList_substitute]
  exact substituteChars_substituteChars tameC.plainKeys tameD.plainKeys tameC.inertValues
    (ReplacementContext.get?_merge_strings agree) flat

/-- What stands in the place of an item is left alone by a later resolution. -/
theorem not_infix_of_mem_itemArray? (tame : c.Tame) {item x : String} {items : List String}
    (taken : itemArray? c.arrays item = some items) (member : x ∈ items) :
    ¬ ['$', '('] <:+: x.toList := by
  rw [itemArray?_eq tame.starlessArrays] at taken
  obtain ⟨expr, -, known⟩ := Option.bind_eq_some_iff.1 taken
  exact tame.items items (SortedMap.mem_values_of_get? known) x member

theorem not_infix_of_mem_promote? (tame : c.Tame) {text x : String} {v : ParamValue}
    (taken : promote? c text = some v) (member : x ∈ v.texts) : ¬ ['$', '('] <:+: x.toList := by
  rw [promote?_eq tame.starlessArrays tame.starlessObjects] at taken
  obtain ⟨r, -, known⟩ := Option.bind_eq_some_iff.1 taken
  rw [ReplacementContext.wholeValue?] at known
  rcases Option.or_eq_some_iff.1 known with array | ⟨-, object⟩
  · obtain ⟨items, listed, rfl⟩ := Option.map_eq_some_iff.1 array
    exact tame.items items (SortedMap.mem_values_of_get? listed) x member
  · obtain ⟨fields, listed, rfl⟩ := Option.map_eq_some_iff.1 object
    exact tame.fields fields (SortedMap.mem_values_of_get? listed) x member

theorem expandItem_expandItem (tameC : c.Tame) (tameD : d.Tame) (agree : c.Agree d) {item : String}
    (flat : ¬ NestedOpener item.toList) :
    (expandItem c.strings c.arrays item).flatMap (expandItem d.strings d.arrays) =
      expandItem (c.merge d).strings (c.merge d).arrays item := by
  have starlessM : StarlessKeys (c.merge d).arrays :=
    tameC.starlessArrays.merge tameD.starlessArrays
  cases taken : itemArray? c.arrays item with
  | some items =>
    -- The items that were spliced in have no opener, so the second context leaves them alone.
    have inert : ∀ x ∈ items, expandItem d.strings d.arrays x = [x] := fun x member =>
      expandItem_of_no_opener (not_infix_of_mem_itemArray? tameC taken member)
    have merged : itemArray? (c.merge d).arrays item = some items := by
      rw [← Taking.take?_item tameC.starlessArrays] at taken
      rw [← Taking.take?_item starlessM]
      exact Taking.item.take?_merge_of_some agree taken
    rw [expandItem, expandItem, taken, merged]
    dsimp only
    rw [List.flatMap_congr inert]
    exact List.flatMap_singleton' items
  | none =>
    have second : itemArray? d.arrays (substitute c.strings item) =
        itemArray? (c.merge d).arrays item := by
      rw [← Taking.take?_item tameC.starlessArrays] at taken
      rw [← Taking.take?_item tameD.starlessArrays, ← Taking.take?_item starlessM]
      exact Taking.item.take?_substitute tameC tameD agree flat taken
    rw [expandItem, taken, List.flatMap_singleton, expandItem, expandItem, second,
      substitute_substitute tameC tameD agree flat]

theorem resolve_of_no_opener {v : ParamValue}
    (absent : ∀ text ∈ v.texts, ¬ ['$', '('] <:+: text.toList) : v.resolve c = v := by
  cases v with
  | string text =>
    have here := absent text (List.mem_singleton.2 rfl)
    rw [ParamValue.resolve, promote?_of_no_opener here, substitute_of_no_opener here]
    rfl
  | array items =>
    have inert : ∀ x ∈ items, expandItem c.strings c.arrays x = [x] := fun x member =>
      expandItem_of_no_opener (absent x member)
    rw [ParamValue.resolve, List.flatMap_congr inert, List.flatMap_singleton']
  | object fields =>
    rw [ParamValue.resolve]
    congr 1
    apply SortedMap.ext
    refine (List.map_congr_left fun e member => ?_).trans (List.map_id _)
    have here := absent e.2 (List.mem_map.2 ⟨e, member, rfl⟩)
    rw [substitute_of_no_opener here]
    rfl

theorem promote?_substitute (tameC : c.Tame) (tameD : d.Tame) (agree : c.Agree d) {text : String}
    (flat : ¬ NestedOpener text.toList) (untaken : promote? c text = none) :
    promote? d (substitute c.strings text) = promote? (c.merge d) text := by
  rw [← Taking.take?_text tameC.starlessArrays tameC.starlessObjects] at untaken
  rw [← Taking.take?_text tameD.starlessArrays tameD.starlessObjects,
    ← Taking.take?_text (tameC.starlessArrays.merge tameD.starlessArrays)
      (tameC.starlessObjects.merge tameD.starlessObjects)]
  exact Taking.text.take?_substitute tameC tameD agree flat untaken

theorem promote?_merge_of_some (tameC : c.Tame) (tameD : d.Tame) (agree : c.Agree d)
    {text : String} {v : ParamValue} (taken : promote? c text = some v) :
    promote? (c.merge d) text = some v := by
  rw [← Taking.take?_text tameC.starlessArrays tameC.starlessObjects] at taken
  rw [← Taking.take?_text (tameC.starlessArrays.merge tameD.starlessArrays)
      (tameC.starlessObjects.merge tameD.starlessObjects)]
  exact Taking.text.take?_merge_of_some agree taken

theorem resolve_resolve (tameC : c.Tame) (tameD : d.Tame) (agree : c.Agree d) {v : ParamValue}
    (flat : ∀ text ∈ v.texts, ¬ NestedOpener text.toList) :
    (v.resolve c).resolve d = v.resolve (c.merge d) := by
  cases v with
  | string text =>
    have here := flat text (List.mem_singleton.2 rfl)
    cases taken : promote? c text with
    | some w =>
      -- What has been promoted holds no opener in any of its texts.
      rw [ParamValue.resolve, ParamValue.resolve, taken,
        promote?_merge_of_some tameC tameD agree taken, Option.getD_some]
      exact resolve_of_no_opener fun x member => not_infix_of_mem_promote? tameC taken member
    | none =>
      rw [ParamValue.resolve, taken, Option.getD_none, ParamValue.resolve, ParamValue.resolve,
        promote?_substitute tameC tameD agree here taken,
        substitute_substitute tameC tameD agree here]
  | array items =>
    rw [ParamValue.resolve, ParamValue.resolve, ParamValue.resolve, List.flatMap_assoc]
    congr 1
    exact List.flatMap_congr fun x member =>
      expandItem_expandItem tameC tameD agree (flat x member)
  | object fields =>
    rw [ParamValue.resolve, ParamValue.resolve, ParamValue.resolve]
    congr 1
    apply SortedMap.ext
    refine List.map_map.trans (List.map_congr_left fun e member => ?_)
    have here := flat e.2 (List.mem_map.2 ⟨e, member, rfl⟩)
    rw [← substitute_substitute tameC tameD agree here]
    rfl

/-- Resolving in stages, in either order, is resolving once in the merge of both contexts; so a
second resolution in the same context changes nothing. -/
theorem resolve_in_stages (tameC : c.Tame) (tameD : d.Tame) (agree : c.Agree d) {v : ParamValue}
    (flat : ∀ text ∈ v.texts, ¬ NestedOpener text.toList) :
    (v.resolve c).resolve d = v.resolve (c.merge d) ∧
      (v.resolve d).resolve c = v.resolve (c.merge d) ∧
      (v.resolve c).resolve c = v.resolve c := by
  refine ⟨resolve_resolve tameC tameD agree flat, ?_, ?_⟩
  · rw [ReplacementContext.merge_comm agree]
    exact resolve_resolve tameD tameC agree.symm flat
  · rw [resolve_resolve tameC tameC c.agree_refl flat, ReplacementContext.merge_self]

/-- The key `a` is known to both contexts, `$$(a)(b)` and the opener that is never closed stay in
the text, and the starred item is spliced by the second context. -/
theorem resolve_in_stages_shared_key :
    let c := (ReplacementContext.empty.withString "a" "1").withArray "empty" []
    let d := (ReplacementContext.empty.withString "a" "1").withArray "xs" ["p", "q"]
    let v := ParamValue.array ["$(a)-$$(a)(b)", "$(xs[*])", "$(empty)", "$(b) $($(a"]
    c.Tame ∧ d.Tame ∧ c.Agree d ∧ (∀ text ∈ v.texts, ¬ NestedOpener text.toList) ∧
      (v.resolve c).resolve d = v.resolve (c.merge d) ∧
      (v.resolve d).resolve c = v.resolve (c.merge d) ∧
      (v.resolve c).resolve c = v.resolve c ∧
      v.resolve (c.merge d) = .array ["1-$1(b)", "p", "q", "$(b) $($(a"] := by
  intro c d v
  have tameC : c.Tame := by decide +kernel
  have tameD : d.Tame := by decide +kernel
  have agree : c.Agree d := by decide +kernel
  have flat : ∀ text ∈ v.texts, ¬ NestedOpener text.toList := by decide +kernel
  obtain ⟨first, second, third⟩ := resolve_in_stages tameC tameD agree flat
  exact ⟨tameC, tameD, agree, flat, first, second, third, by decide +kernel⟩

end

end PipelineParams
