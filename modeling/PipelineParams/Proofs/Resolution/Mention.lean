import Mathlib.Data.List.Basic
import PipelineParams.Proofs.Resolution.Lookup
import PipelineParams.Proofs.Substitution.Rewriting

/-! # What a resolution depends on

Resolving a value looks at the keys that its texts mention and at nothing else.  Two contexts that
have the same under these keys cannot be told apart (`resolve_eq_of_sameFor`), so keys that are not
mentioned can be added at will, and a value that mentions no key comes back as it is.

Other keys do take part in the run: one of them is enough to leave the short cut for an empty map,
and a long one makes the search behind every opener go on for longer.  Neither shows in `Rewrites`,
which is why a rewriting with one map can be carried over step by step to another one
(`Rewrites.congr`).
-/

namespace PipelineParams

/-- `$(key)` stands somewhere in a text. -/
def Mentions (text key : String) : Prop :=
  '$' :: '(' :: (key.toList ++ [')']) <:+: text.toList

/-- A text is `$(key)` or `$(key[*])` and nothing else. -/
def RefersTo (text key : String) : Prop :=
  text.toList = '$' :: '(' :: (key.toList ++ [')']) ∨
    text.toList = '$' :: '(' :: (key.toList ++ ['[', '*', ']', ')'])

instance (text : String) : DecidablePred (Mentions text) := fun key =>
  inferInstanceAs (Decidable ('$' :: '(' :: (key.toList ++ [')']) <:+: text.toList))

instance (text : String) : DecidablePred (RefersTo text) := fun key =>
  inferInstanceAs (Decidable
    (text.toList = '$' :: '(' :: (key.toList ++ [')']) ∨
      text.toList = '$' :: '(' :: (key.toList ++ ['[', '*', ']', ')'])))

theorem refersTo_of_names {text key : String} {expr : List Char}
    (delimited : text.toList = '$' :: '(' :: (expr ++ [')'])) (names : Names expr key) :
    RefersTo text key := by
  rcases names with rfl | rfl
  · exact .inl delimited
  · right
    simpa using delimited

/-! ## Substitution -/

section

variable {s t : SortedMap String}

def SameAtFront (s t : SortedMap String) (cs : List Char) : Prop :=
  ∀ key rest, StandsAt key cs rest → s.get? key = t.get? key

theorem SameAtFront.symm {cs : List Char} (same : SameAtFront s t cs) : SameAtFront t s cs :=
  fun key rest stands => (same key rest stands).symm

theorem KeyStandsAt.congr {cs : List Char} (same : SameAtFront s t cs)
    (stands : KeyStandsAt s cs) : KeyStandsAt t cs := by
  obtain ⟨key, value, rest, known, here⟩ := stands
  exact ⟨key, value, rest, same key rest here ▸ known, here⟩

theorem ShortestKeyAt.congr {cs rest : List Char} {key value : String}
    (same : SameAtFront s t cs) (front : ShortestKeyAt s cs value rest key) :
    ShortestKeyAt t cs value rest key where
  known := same key rest front.stands ▸ front.known
  stands := front.stands
  shortest other value' rest' known' stands' :=
    front.shortest other value' rest' ((same other rest' stands').trans known') stands'

/-- A rewriting is one with any other map that has the same wherever it gets to. -/
theorem Rewrites.congr {cs out : List Char} (rewrites : Rewrites s cs out)
    (same : ∀ ds, ds <:+ cs → SameAtFront s t ds) : Rewrites t cs out := by
  induction rewrites with
  | done => exact .done
  | @replaced cs rest out key value front _ ih =>
    -- behind a reference the rewriting goes on with the rest, which is the end of the same text
    have behind : rest <:+ cs := by
      rw [front.stands]
      exact ⟨'$' :: '(' :: (key.toList ++ [')']), by simp⟩
    exact .replaced (front.congr (same _ (List.suffix_refl _)))
      (ih fun ds suffix => same ds (suffix.trans behind))
  | @copied c cs out nowhere _ ih =>
    have here := same _ (List.suffix_refl (c :: cs))
    exact .copied (fun stands => nowhere (stands.congr here.symm))
      (ih fun ds suffix => same ds (suffix.trans (List.suffix_cons c cs)))

theorem mentions_of_standsAt {text key : String} {ds rest : List Char} (behind : ds <:+ text.toList)
    (stands : StandsAt key ds rest) : Mentions text key := by
  obtain ⟨before, split⟩ := behind
  exact ⟨before, rest, by rw [← split, stands]; simp⟩

theorem substitute_congr {text : String}
    (same : ∀ key, Mentions text key → s.get? key = t.get? key) :
    substitute s text = substitute t text := by
  have carried : Rewrites t text.toList (substituteChars s text.toList) := by
    refine (rewrites_substituteChars s text.toList).congr fun ds behind key rest stands => ?_
    exact same key (mentions_of_standsAt behind stands)
  rw [← String.toList_inj, toList_substitute, toList_substitute,
    substituteChars_eq_of_rewrites carried]

end

/-! ## Contexts that a text cannot tell apart -/

namespace ReplacementContext

/-- Two contexts have the same for everything that a text mentions. -/
structure SameFor (c d : ReplacementContext) (text : String) : Prop where
  strings : ∀ key, Mentions text key → c.strings.get? key = d.strings.get? key
  arrays : ∀ key, RefersTo text key → c.arrays.get? key = d.arrays.get? key
  objects : ∀ key, RefersTo text key → c.objects.get? key = d.objects.get? key

/-- A text mentions no key of the context. -/
structure UnknownTo (c : ReplacementContext) (text : String) : Prop where
  strings : ∀ key ∈ c.strings.keys, ¬ Mentions text key
  arrays : ∀ key ∈ c.arrays.keys, ¬ RefersTo text key
  objects : ∀ key ∈ c.objects.keys, ¬ RefersTo text key

instance (c d : ReplacementContext) : DecidablePred (c.SameFor d) := fun text =>
  decidable_of_iff
    ((∀ key ∈ c.strings.keys ++ d.strings.keys, Mentions text key →
        c.strings.get? key = d.strings.get? key) ∧
      (∀ key ∈ c.arrays.keys ++ d.arrays.keys, RefersTo text key →
        c.arrays.get? key = d.arrays.get? key) ∧
      (∀ key ∈ c.objects.keys ++ d.objects.keys, RefersTo text key →
        c.objects.get? key = d.objects.get? key))
    ⟨fun ⟨h₁, h₂, h₃⟩ => ⟨SortedMap.get?_eq_of_keys h₁, SortedMap.get?_eq_of_keys h₂,
        SortedMap.get?_eq_of_keys h₃⟩,
      fun ⟨h₁, h₂, h₃⟩ => ⟨fun key _ => h₁ key, fun key _ => h₂ key, fun key _ => h₃ key⟩⟩

instance (c : ReplacementContext) : DecidablePred c.UnknownTo := fun text =>
  decidable_of_iff
    ((∀ key ∈ c.strings.keys, ¬ Mentions text key) ∧ (∀ key ∈ c.arrays.keys, ¬ RefersTo text key) ∧
      (∀ key ∈ c.objects.keys, ¬ RefersTo text key))
    ⟨fun ⟨h₁, h₂, h₃⟩ => ⟨h₁, h₂, h₃⟩, fun ⟨h₁, h₂, h₃⟩ => ⟨h₁, h₂, h₃⟩⟩

variable {c d : ReplacementContext} {text : String}

section

variable (unknown : d.UnknownTo text) {key : String}
include unknown

theorem UnknownTo.get?_strings (mentions : Mentions text key) : d.strings.get? key = none :=
  SortedMap.get?_eq_none_of_not_mem_keys fun member => unknown.strings key member mentions

theorem UnknownTo.get?_arrays (refers : RefersTo text key) : d.arrays.get? key = none :=
  SortedMap.get?_eq_none_of_not_mem_keys fun member => unknown.arrays key member refers

theorem UnknownTo.get?_objects (refers : RefersTo text key) : d.objects.get? key = none :=
  SortedMap.get?_eq_none_of_not_mem_keys fun member => unknown.objects key member refers

theorem UnknownTo.sameFor_merge_right : (c.merge d).SameFor c text where
  strings _ mentions := (SortedMap.get?_merge_of_eq_none (unknown.get?_strings mentions)).1
  arrays _ refers := (SortedMap.get?_merge_of_eq_none (unknown.get?_arrays refers)).1
  objects _ refers := (SortedMap.get?_merge_of_eq_none (unknown.get?_objects refers)).1

theorem UnknownTo.sameFor_merge_left : (d.merge c).SameFor c text where
  strings _ mentions := (SortedMap.get?_merge_of_eq_none (unknown.get?_strings mentions)).2
  arrays _ refers := (SortedMap.get?_merge_of_eq_none (unknown.get?_arrays refers)).2
  objects _ refers := (SortedMap.get?_merge_of_eq_none (unknown.get?_objects refers)).2

/-- To the text the context is as good as the empty one. -/
theorem UnknownTo.sameFor_empty : d.SameFor .empty text where
  strings _ mentions := unknown.get?_strings mentions
  arrays _ refers := unknown.get?_arrays refers
  objects _ refers := unknown.get?_objects refers

end

end ReplacementContext

/-! ## Resolution -/

variable {c d : ReplacementContext}

theorem Reference.lookup?_congr {α : Type} {m n : SortedMap α} {r : Reference}
    (same : ∀ key, Names r.expression.toList key → m.get? key = n.get? key) :
    r.lookup? m = r.lookup? n := by
  have whole := same _ (names_self r.expression.toList)
  rw [String.ofList_toList] at whole
  rw [Reference.lookup?_eq_or, Reference.lookup?_eq_or, same _ (names_starless _), whole]

theorem promote?_congr {text : String} (same : c.SameFor d text) :
    promote? c text = promote? d text := by
  rw [promote?, promote?]
  cases whole : wholeReference text with
  | none => rfl
  | some r =>
    have delimited := (wholeReference_eq_some_iff.1 whole).2.1
    have arrays : r.lookup? c.arrays = r.lookup? d.arrays :=
      r.lookup?_congr fun key names => same.arrays key (refersTo_of_names delimited names)
    have objects : r.lookup? c.objects = r.lookup? d.objects :=
      r.lookup?_congr fun key names => same.objects key (refersTo_of_names delimited names)
    dsimp only
    rw [arrays, objects]

theorem itemArray?_congr {item : String} (same : c.SameFor d item) :
    itemArray? c.arrays item = itemArray? d.arrays item := by
  rw [itemArray?_eq_or, itemArray?_eq_or]
  cases found : MatrixContext.delimited? item.toList with
  | none => rfl
  | some expr =>
    have delimited := delimited?_eq_some_iff.1 found
    rw [Option.bind_some, Option.bind_some,
      same.arrays _ (refersTo_of_names delimited (names_self expr)),
      same.arrays _ (refersTo_of_names delimited (names_starless expr))]

theorem expandItem_congr {item : String} (same : c.SameFor d item) :
    expandItem c.strings c.arrays item = expandItem d.strings d.arrays item := by
  rw [expandItem, expandItem, itemArray?_congr same, substitute_congr same.strings]

theorem resolve_eq_of_sameFor {v : ParamValue} (same : ∀ text ∈ v.texts, c.SameFor d text) :
    v.resolve c = v.resolve d := by
  cases v with
  | string text =>
    have here := same text (List.mem_singleton.2 rfl)
    rw [ParamValue.resolve, ParamValue.resolve, promote?_congr here, substitute_congr here.strings]
  | array items =>
    rw [ParamValue.resolve, ParamValue.resolve]
    congr 1
    exact List.flatMap_congr fun item member => expandItem_congr (same item member)
  | object fields =>
    rw [ParamValue.resolve, ParamValue.resolve]
    congr 1
    apply SortedMap.ext
    refine List.map_congr_left fun e member => ?_
    rw [substitute_congr (same e.2 (List.mem_map.2 ⟨e, member, rfl⟩)).strings]

theorem promote?_empty (text : String) : promote? .empty text = none := by
  rw [promote?]
  cases wholeReference text with
  | none => rfl
  | some r => rfl

theorem expandItem_empty (item : String) :
    expandItem SortedMap.empty SortedMap.empty item = [item] := by
  have plain : itemArray? SortedMap.empty item = none := by
    rw [itemArray?_eq_or]
    cases MatrixContext.delimited? item.toList with
    | none => rfl
    | some expr => rfl
  rw [expandItem, plain]
  rfl

theorem resolve_empty (v : ParamValue) : v.resolve .empty = v := by
  cases v with
  | string text =>
    rw [ParamValue.resolve, promote?_empty]
    rfl
  | array items =>
    rw [ParamValue.resolve]
    congr 1
    refine (List.flatMap_congr fun item _ => expandItem_empty item).trans ?_
    exact List.flatMap_singleton' items
  | object fields =>
    rw [ParamValue.resolve]
    congr 1
    exact SortedMap.ext (List.map_id fields.entries)

/-- Resolving depends on nothing but what the texts of a value mention.  So a context whose keys
they do not mention can be laid over the other one or under it, and does nothing on its own. -/
theorem resolve_depends_on_mentioned (v : ParamValue) :
    (∀ c d : ReplacementContext, (∀ text ∈ v.texts, c.SameFor d text) →
      v.resolve c = v.resolve d) ∧
    (∀ c d : ReplacementContext, (∀ text ∈ v.texts, d.UnknownTo text) →
      v.resolve (c.merge d) = v.resolve c ∧ v.resolve (d.merge c) = v.resolve c) ∧
    (∀ c : ReplacementContext, (∀ text ∈ v.texts, c.UnknownTo text) → v.resolve c = v) := by
  refine ⟨fun c d => resolve_eq_of_sameFor, fun c d unknown => ⟨?_, ?_⟩, fun c unknown => ?_⟩
  · exact resolve_eq_of_sameFor fun text member => (unknown text member).sameFor_merge_right
  · exact resolve_eq_of_sameFor fun text member => (unknown text member).sameFor_merge_left
  · rw [resolve_eq_of_sameFor fun text member => (unknown text member).sameFor_empty]
    exact resolve_empty v

/-- The keys of `d` are close to what is mentioned: one goes on where the text breaks off, one is
empty, one stands in a text without being all of it, and one has another subscript. -/
theorem resolve_depends_on_mentioned_near_misses :
    let c := (ReplacementContext.empty.withString "a" "1").withArray "xs" ["p", "$(b)"]
    let d := (((ReplacementContext.empty.withString "b) and on" "2").withString "" "3").withArray
      "a" ["q"]).withObject "xs[0]" SortedMap.empty
    let v := ParamValue.array ["$(a) $(b) and", "$(xs[*])", "$($(a)"]
    ((∀ text ∈ v.texts, c.SameFor (c.merge d) text) ∧ v.resolve c = v.resolve (c.merge d)) ∧
      ((∀ text ∈ v.texts, d.UnknownTo text) ∧ v.resolve (c.merge d) = v.resolve c ∧
        v.resolve (d.merge c) = v.resolve c ∧ v.resolve d = v) ∧
      v.resolve (c.merge d) = .array ["1 $(b) and", "p", "$(b)", "$(1"] := by
  intro c d v
  have same : ∀ text ∈ v.texts, c.SameFor (c.merge d) text := by decide +kernel
  have unknown : ∀ text ∈ v.texts, d.UnknownTo text := by decide +kernel
  obtain ⟨congruent, added, alone⟩ := resolve_depends_on_mentioned v
  obtain ⟨above, below⟩ := added c d unknown
  exact ⟨⟨same, congruent c (c.merge d) same⟩, ⟨unknown, above, below, alone d unknown⟩,
    by decide +kernel⟩

end PipelineParams
