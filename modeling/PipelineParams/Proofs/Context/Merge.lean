import PipelineParams.Context.Basic
import PipelineParams.Proofs.SortedMap.Lookup

/-! # Laying contexts over each other

A context is three maps, and merging acts on each of them by itself, so the laws of merging contexts
are those of merging maps.
-/

namespace PipelineParams.ReplacementContext

variable (c d e : ReplacementContext)

theorem merge_assoc : (c.merge d).merge e = c.merge (d.merge e) := by
  simp only [merge, SortedMap.merge_assoc]

theorem empty_merge : empty.merge c = c := by
  simp only [merge, empty, SortedMap.empty_merge]

theorem merge_empty : c.merge empty = c := by
  simp only [merge, empty, SortedMap.merge_empty]

theorem merge_self : c.merge c = c := by
  simp only [merge, SortedMap.merge_self]

end PipelineParams.ReplacementContext
