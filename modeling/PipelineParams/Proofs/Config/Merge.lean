import PipelineParams.Config.Basic
import PipelineParams.Proofs.Context.Merge

/-! # Laying configurations over each other

Configurations form a monoid under `Config.merge` in which the right side wins, so a stack of them can
be put together in groups of any kind (`foldl_merge_flatten`).  Its sections are treated in two ways:
how to log and how to print is taken from the upper configuration as a whole, replacements are merged
key by key.  An absent section of replacements counts as one that says nothing, but it stays absent
unless the other side has one, which is why `mergeReplacements` has laws of its own.
-/

namespace PipelineParams.Config

/-! ## Sections of replacements -/

theorem mergeReplacements_none_left (r : Option ReplacementContext) :
    mergeReplacements none r = r := by
  cases r <;> rfl

theorem mergeReplacements_none_right (r : Option ReplacementContext) :
    mergeReplacements r none = r := by
  cases r <;> rfl

theorem mergeReplacements_assoc (r s t : Option ReplacementContext) :
    mergeReplacements (mergeReplacements r s) t = mergeReplacements r (mergeReplacements s t) := by
  rcases r with _ | c
  · rw [mergeReplacements_none_left, mergeReplacements_none_left]
  rcases s with _ | d
  · rw [mergeReplacements_none_left, mergeReplacements_none_right]
  rcases t with _ | e
  · rw [mergeReplacements_none_right, mergeReplacements_none_right]
  exact congrArg some (c.merge_assoc d e)

theorem mergeReplacements_self (r : Option ReplacementContext) : mergeReplacements r r = r := by
  rcases r with _ | c
  · rfl
  · exact congrArg some c.merge_self

theorem isSome_mergeReplacements (r s : Option ReplacementContext) :
    (mergeReplacements r s).isSome = (r.isSome || s.isSome) := by
  cases r <;> cases s <;> rfl

theorem getD_mergeReplacements (r s : Option ReplacementContext) :
    (mergeReplacements r s).getD .empty = (r.getD .empty).merge (s.getD .empty) := by
  rcases s with _ | d
  · rw [mergeReplacements_none_right]
    exact (ReplacementContext.merge_empty _).symm
  rcases r with _ | c
  · exact (ReplacementContext.empty_merge d).symm
  · rfl

/-! ## Configurations -/

section

variable (a b c : Config)

theorem merge_assoc : (a.merge b).merge c = a.merge (b.merge c) := by
  simp only [merge, Option.or_assoc, mergeReplacements_assoc]

theorem empty_merge : empty.merge a = a := by
  simp only [merge, empty, Option.or_none, mergeReplacements_none_left]

theorem merge_empty : a.merge empty = a := by
  simp only [merge, empty, Option.none_or, mergeReplacements_none_right]

theorem merge_self : a.merge a = a := by
  simp only [merge, Option.or_self, mergeReplacements_self]

end

instance : Std.Associative merge := ⟨merge_assoc⟩

/-- Laying configurations over a given one is laying them over each other first. -/
theorem foldl_merge (a : Config) (layers : List Config) :
    layers.foldl merge a = a.merge (layers.foldl merge empty) :=
  calc
    layers.foldl merge a = layers.foldl merge (a.merge empty) := by rw [merge_empty]
    _ = a.merge (layers.foldl merge empty) := List.foldl_assoc

/-- A stack of configurations can be put together in groups. -/
theorem foldl_merge_flatten (groups : List (List Config)) :
    (groups.map fun group => group.foldl merge empty).foldl merge empty =
      groups.flatten.foldl merge empty := by
  induction groups with
  | nil => rfl
  | cons group groups ih =>
    rw [List.map_cons, List.foldl_cons, empty_merge, foldl_merge, ih, ← foldl_merge,
      ← List.foldl_append, List.flatten_cons]

/-- Configurations are an idempotent monoid under merging.  How to log and how to print is what the
upper configuration says if it has the section and else what the lower one says.  The replacements of
the merge are those of the lower configuration under those of the upper one, in each of the three maps
key by key, and the section is there if one of them has it. -/
theorem merge_laws :
    (∀ a b c : Config, (a.merge b).merge c = a.merge (b.merge c)) ∧
    (∀ a : Config, empty.merge a = a ∧ a.merge empty = a ∧ a.merge a = a) ∧
    ∀ a b : Config,
      (a.merge b).logging = b.logging.or a.logging ∧
      (a.merge b).output = b.output.or a.output ∧
      (a.merge b).replacements.isSome = (a.replacements.isSome || b.replacements.isSome) ∧
      (a.merge b).replacementContext = a.replacementContext.merge b.replacementContext ∧
      ∀ key,
        (a.merge b).replacementContext.strings.get? key =
          (b.replacementContext.strings.get? key).or (a.replacementContext.strings.get? key) ∧
        (a.merge b).replacementContext.arrays.get? key =
          (b.replacementContext.arrays.get? key).or (a.replacementContext.arrays.get? key) ∧
        (a.merge b).replacementContext.objects.get? key =
          (b.replacementContext.objects.get? key).or (a.replacementContext.objects.get? key) := by
  refine ⟨merge_assoc, fun a => ⟨a.empty_merge, a.merge_empty, a.merge_self⟩, fun a b => ?_⟩
  have contexts : (a.merge b).replacementContext =
      a.replacementContext.merge b.replacementContext :=
    getD_mergeReplacements a.replacements b.replacements
  refine ⟨rfl, rfl, isSome_mergeReplacements _ _, contexts, fun key => ?_⟩
  rw [contexts]
  exact ⟨SortedMap.get?_merge .., SortedMap.get?_merge .., SortedMap.get?_merge ..⟩

/-- A section that is there but says nothing takes the place of one that says something. -/
example :
    (merge { logging := some { level := some "warn", json := true } } { logging := some {} }).logging =
      some {} :=
  rfl

end PipelineParams.Config
