import Mathlib.Data.List.Destutter
import Mathlib.Data.List.Sort
import Mathlib.Data.String.Basic
import Mathlib.Tactic.TFAE
import PipelineParams.FieldError
import PipelineParams.Proofs.SortedMap.Lookup

/-! # The paths of gathered failures

* `ascending_eq_iff`: a list of texts in ascending order is known by its members.  Sorting a list and
  then dropping what repeats its neighbour gives it too (`destutter_mergeSort`).
* A `Gathering` puts failures together two at a time, in some order and some bracketing.  The paths of
  the result are those of all its failures in ascending order (`Gathering.paths_result`), so neither
  the order nor the bracketing matters to them.
* `FieldError.ascending_tfae`: the failures that gathering leaves in order are those whose paths are in
  ascending order already.
-/

namespace PipelineParams

/-! ## Ascending lists -/

theorem mem_ascending_iff {xs : List String} {x : String} : x ∈ ascending xs ↔ x ∈ xs := by
  rw [ascending, SortedMap.mem_keys_ofList, List.map_map]
  simp

theorem ascending_pairwise (xs : List String) : (ascending xs).Pairwise (· < ·) := by
  rw [ascending, SortedMap.keys, List.pairwise_map]
  exact (SortedMap.ofList _).ascending

theorem ascending_eq_iff {xs ys : List String} :
    ascending xs = ys ↔ ys.Pairwise (· < ·) ∧ ∀ y, y ∈ ys ↔ y ∈ xs := by
  constructor
  · rintro rfl
    exact ⟨ascending_pairwise xs, fun y => mem_ascending_iff⟩
  · rintro ⟨inOrder, members⟩
    refine (ascending_pairwise xs).eq_of_mem_iff inOrder fun y => ?_
    rw [mem_ascending_iff, members]

theorem ascending_eq_nil_iff {xs : List String} : ascending xs = [] ↔ xs = [] := by
  simp only [List.eq_nil_iff_forall_not_mem, mem_ascending_iff]

theorem ascending_congr {xs ys : List String} (same : ∀ x, x ∈ xs ↔ x ∈ ys) :
    ascending xs = ascending ys :=
  ascending_eq_iff.2 ⟨ascending_pairwise ys, fun x => mem_ascending_iff.trans (same x).symm⟩

/-- Two lists in ascending order agree on the order of what they share. -/
theorem sublist_of_subset {xs ys : List String} (left : xs.Pairwise (· < ·))
    (right : ys.Pairwise (· < ·)) (subset : xs ⊆ ys) : xs.Sublist ys :=
  List.sublist_of_subperm_of_pairwise (List.subperm_of_subset (left.imp ne_of_lt) subset) left right

/-- In a sorted list all repeats are neighbours. -/
theorem destutter_mergeSort (xs : List String) :
    (xs.mergeSort (· ≤ ·)).destutter (· ≠ ·) = ascending xs := by
  have sorted : (xs.mergeSort (· ≤ ·)).Pairwise (· ≤ ·) := List.pairwise_mergeSort' _ xs
  rw [sorted.destutter_eq_dedup, eq_comm, ascending_eq_iff]
  constructor
  · have inOrder := (sorted.sublist (List.dedup_sublist _)).and (List.nodup_dedup _)
    exact inOrder.imp fun both => lt_of_le_of_ne both.1 both.2
  · intro x
    rw [List.mem_dedup, List.mem_mergeSort]

theorem mergeSort_eq_ascending {xs : List String} (distinct : xs.Nodup) :
    xs.mergeSort (· ≤ ·) = ascending xs := by
  have distinct' : (xs.mergeSort (· ≤ ·)).Nodup := (List.mergeSort_perm xs _).nodup_iff.2 distinct
  rw [← destutter_mergeSort, List.destutter_of_isChain _ _ distinct'.isChain]

namespace FieldError

/-! ## Two failures -/

variable {e f : FieldError}

theorem mem_paths_also {path : String} :
    path ∈ (e.also f).paths ↔ path ∈ e.paths ∨ path ∈ f.paths := by
  rw [also, mem_ascending_iff, List.mem_append]

theorem paths_also_pairwise (e f : FieldError) : (e.also f).paths.Pairwise (· < ·) :=
  ascending_pairwise _

theorem message_also {message : String} (left : e.message = message) (right : f.message = message) :
    (e.also f).message = message := by
  rw [also, left, right, if_pos rfl]

/-! ## Any number of failures -/

/-- A way to put failures together, in some order and some bracketing. -/
inductive Gathering where
  | one (failure : FieldError)
  | also (left right : Gathering)

namespace Gathering

def failures : Gathering → List FieldError
  | one e => [e]
  | also g h => g.failures ++ h.failures

def result : Gathering → FieldError
  | one e => e
  | also g h => g.result.also h.result

/-- Taking one failure after the other is one of the ways. -/
theorem exists_foldl (e : FieldError) (es : List FieldError) :
    ∃ g : Gathering, g.failures = e :: es ∧ g.result = es.foldl FieldError.also e := by
  suffices further : ∀ g : Gathering, ∃ h : Gathering,
      h.failures = g.failures ++ es ∧ h.result = es.foldl FieldError.also g.result from further (one e)
  induction es with
  | nil => exact fun g => ⟨g, (List.append_nil _).symm, rfl⟩
  | cons f es ih =>
    intro g
    obtain ⟨h, failures, result⟩ := ih (g.also (one f))
    exact ⟨h, by rw [failures, Gathering.failures, List.append_assoc]; rfl, result⟩

theorem mem_paths_result {g : Gathering} {path : String} :
    path ∈ g.result.paths ↔ ∃ e ∈ g.failures, path ∈ e.paths := by
  induction g with
  | one e => simp [result, failures]
  | also g h left right =>
    rw [result, mem_paths_also, left, right, failures]
    simp only [List.mem_append, or_and_right, exists_or]

/-- Paths come in order as soon as something is put together. -/
theorem paths_result_pairwise {g : Gathering} (several : 2 ≤ g.failures.length) :
    g.result.paths.Pairwise (· < ·) := by
  cases g with
  | one e => exact absurd several (Nat.not_succ_le_self 1)
  | also g h => exact paths_also_pairwise _ _

theorem paths_result {g : Gathering} (several : 2 ≤ g.failures.length) :
    g.result.paths = ascending (g.failures.flatMap (·.paths)) := by
  rw [eq_comm, ascending_eq_iff]
  refine ⟨paths_result_pairwise several, fun path => ?_⟩
  rw [mem_paths_result, List.mem_flatMap]

theorem message_result {g : Gathering} {message : String}
    (same : ∀ e ∈ g.failures, e.message = message) : g.result.message = message := by
  induction g with
  | one e => exact same e (List.mem_singleton_self e)
  | also g h left right =>
    rw [failures, List.forall_mem_append] at same
    exact message_also (left same.1) (right same.2)

end Gathering

/-- Gathering two failures sorts all their paths and drops repeats among neighbours.  When several
failures are gathered, one after the other or in any other order and bracketing, the paths are always
the same: those of all failures, in ascending order.  Failures with one message keep it. -/
theorem gathered_in_any_way :
    (∀ e f : FieldError,
      (e.also f).paths = ((e.paths ++ f.paths).mergeSort (· ≤ ·)).destutter (· ≠ ·)) ∧
    (∀ (e : FieldError) (es : List FieldError),
      ∃ g : Gathering, g.failures = e :: es ∧ g.result = es.foldl also e) ∧
    (∀ es : List FieldError, 2 ≤ es.length →
      ∃ paths : List String, paths.Pairwise (· < ·) ∧
        (∀ path, path ∈ paths ↔ ∃ e ∈ es, path ∈ e.paths) ∧
        ∀ g : Gathering, g.failures.Perm es →
          g.result.paths = paths ∧
          ∀ message, (∀ e ∈ es, e.message = message) → g.result.message = message) := by
  refine ⟨fun e f => (destutter_mergeSort _).symm, Gathering.exists_foldl, fun es several => ?_⟩
  refine ⟨ascending (es.flatMap (·.paths)), ascending_pairwise _, fun path => ?_, fun g order => ?_⟩
  · rw [mem_ascending_iff, List.mem_flatMap]
  · constructor
    · rw [Gathering.paths_result (order.length_eq ▸ several)]
      exact ascending_congr fun path => (order.flatMap_right _).mem_iff
    · intro message same
      exact Gathering.message_result fun e member => same e (order.mem_iff.1 member)

/-- Repeated paths, no paths and paths out of order, in two orders and two bracketings. -/
theorem gathered_in_any_way_unsorted :
    let e : FieldError := ⟨"missing field", ["b", "a", "b"]⟩
    let f : FieldError := ⟨"missing field", []⟩
    let d : FieldError := ⟨"missing field", ["c", "a"]⟩
    let g : Gathering := .also (.also (.one e) (.one f)) (.one d)
    let h : Gathering := .also (.one d) (.also (.one e) (.one f))
    g.failures.Perm [e, f, d] ∧ h.failures.Perm [e, f, d] ∧ g.result.paths = h.result.paths ∧
      g.result = ⟨"missing field", ["a", "b", "c"]⟩ ∧ h.result.message = "missing field" := by
  intro e f d g h
  have left : g.failures.Perm [e, f, d] := by decide
  have right : h.failures.Perm [e, f, d] := by decide
  obtain ⟨paths, -, -, ways⟩ := gathered_in_any_way.2.2 [e, f, d] (by decide)
  exact ⟨left, right, (ways g left).1.trans (ways h right).1.symm, by decide +kernel,
    (ways h right).2 _ (by decide)⟩

/-! ## Failures that stay in order -/

theorem also_self_eq_iff : e.also e = e ↔ e.paths.Pairwise (· < ·) := by
  constructor
  · intro same
    rw [← same]
    exact paths_also_pairwise e e
  · intro inOrder
    have paths : ascending (e.paths ++ e.paths) = e.paths :=
      ascending_eq_iff.2 ⟨inOrder, fun path => by rw [List.mem_append, or_self]⟩
    rw [also, if_pos rfl, paths]

/-- Without repeats all that happens is that the paths are sorted. -/
theorem also_self_of_nodup (distinct : e.paths.Nodup) :
    e.also e = { e with paths := e.paths.mergeSort (· ≤ ·) } := by
  rw [also, if_pos rfl, mergeSort_eq_ascending distinct]
  congr 1
  exact ascending_congr fun path => by rw [List.mem_append, or_self]

theorem Gathering.sublist_paths_result {g : Gathering} (member : e ∈ g.failures)
    (inOrder : e.paths.Pairwise (· < ·)) : e.paths.Sublist g.result.paths := by
  cases g with
  | one f =>
    obtain rfl := List.mem_singleton.1 member
    exact List.Sublist.refl _
  | also g h =>
    exact sublist_of_subset inOrder (paths_also_pairwise _ _)
      fun path here => mem_paths_result.2 ⟨e, member, here⟩

/-- The failures whose paths are in ascending order are those that gathering leaves as they are, and
those whose paths keep their order whatever they are gathered with. -/
theorem ascending_tfae (e : FieldError) :
    [e.paths.Pairwise (· < ·),
      e.also e = e,
      ∀ f : FieldError, f.message = e.message →
        e.paths.Sublist (e.also f).paths ∧ e.paths.Sublist (f.also e).paths,
      ∀ g : Gathering, e ∈ g.failures → e.paths.Sublist g.result.paths].TFAE := by
  tfae_have 1 ↔ 2 := also_self_eq_iff.symm
  tfae_have 1 → 4 := fun inOrder g member => Gathering.sublist_paths_result member inOrder
  tfae_have 4 → 3 := by
    intro kept f _
    exact ⟨kept (.also (.one e) (.one f)) (by simp [Gathering.failures]),
      kept (.also (.one f) (.one e)) (by simp [Gathering.failures])⟩
  tfae_have 3 → 1 := fun kept => (paths_also_pairwise e e).sublist (kept e rfl).1
  tfae_finish

end FieldError

end PipelineParams
