import Mathlib.Data.List.Nodup
import PipelineParams.Collection
import PipelineParams.Proofs.FieldError.Paths

/-! # Names that are declared more than once

* `mem_repeats_iff` is what the scan for repeated names finds: the names that come again, and those
  that had been seen before it began.
* `duplicates_eq_none_iff`: nothing is reported exactly if all names are distinct.
* `duplicates_eq_some_iff`: what is reported otherwise are the names that come at least twice.  How often
  a name comes does not depend on the order of the declarations, so the report does not either
  (`duplicates_report`).
-/

namespace PipelineParams

namespace ParamSpec

/-! ## Names seen before -/

theorem mem_repeats_iff {seen names : List String} {name : String} :
    name ∈ repeats seen names ↔ 2 ≤ names.count name ∨ name ∈ seen ∧ name ∈ names := by
  induction names generalizing seen with
  | nil => simp [repeats]
  | cons first names ih =>
    rw [repeats]
    by_cases same : name = first
    · subst same
      split
      next old => simp [old]
      next new =>
        rw [ih, List.count_cons_self, Nat.succ_le_succ_iff, List.one_le_count_iff]
        have once : 2 ≤ names.count name → name ∈ names :=
          fun twice => List.one_le_count_iff.1 (Nat.le_of_succ_le twice)
        simpa [new] using once
    · split
      next old => simp [ih, same, List.count_cons_of_ne (Ne.symm same)]
      next new => simp [ih, same, List.count_cons_of_ne (Ne.symm same)]

theorem repeats_eq_nil_iff {names : List String} : repeats [] names = [] ↔ names.Nodup := by
  rw [List.nodup_iff_count_le_one, List.eq_nil_iff_forall_not_mem]
  refine forall_congr' fun name => ?_
  simp only [mem_repeats_iff, List.not_mem_nil, false_and, or_false, Nat.not_le]
  exact Nat.lt_succ_iff

theorem mem_ascending_repeats_iff {names : List String} {name : String} :
    name ∈ ascending (repeats [] names) ↔ 2 ≤ names.count name := by
  simp [mem_ascending_iff, mem_repeats_iff]

/-! ## The report -/

theorem duplicates_eq_none_iff {specs : List ParamSpec} :
    duplicates specs = none ↔ (names specs).Nodup := by
  rw [← repeats_eq_nil_iff, ← ascending_eq_nil_iff, duplicates]
  cases ascending (repeats [] (names specs)) with
  | nil => exact iff_of_true rfl rfl
  | cons => exact iff_of_false nofun nofun

theorem duplicates_eq_some_iff {specs : List ParamSpec} {e : FieldError} :
    duplicates specs = some e ↔ e.message = "parameter appears more than once" ∧
      ∃ repeated, repeated ≠ [] ∧ repeated.Pairwise (· < ·) ∧
        (∀ name, name ∈ repeated ↔ 2 ≤ (names specs).count name) ∧
        e.paths = repeated.map fun name => "params[" ++ name ++ "]" := by
  have members (name : String) : name ∈ ascending (repeats [] (names specs)) ↔
      2 ≤ (names specs).count name := mem_ascending_repeats_iff
  have inOrder := ascending_pairwise (repeats [] (names specs))
  constructor
  · intro reported
    rw [duplicates] at reported
    split at reported
    · cases reported
    next first rest found =>
      cases reported
      rw [found] at members inOrder
      exact ⟨rfl, first :: rest, List.cons_ne_nil _ _, inOrder, members, rfl⟩
  · rintro ⟨message, repeated, nonempty, inOrder', members', paths⟩
    have found : ascending (repeats [] (names specs)) = repeated :=
      ascending_eq_iff.2 ⟨inOrder', fun name => by
        rw [members', ← members, mem_ascending_iff]⟩
    obtain ⟨first, rest, rfl⟩ := List.exists_cons_of_ne_nil nonempty
    obtain ⟨_, _⟩ := e
    rw [duplicates, found]
    dsimp only at message paths ⊢
    rw [message, paths]

theorem duplicates_congr {specs specs' : List ParamSpec}
    (perm : (names specs).Perm (names specs')) : duplicates specs = duplicates specs' := by
  have same : ascending (repeats [] (names specs)) = ascending (repeats [] (names specs')) := by
    refine ascending_eq_iff.2 ⟨ascending_pairwise _, fun name => ?_⟩
    rw [mem_ascending_repeats_iff, ← perm.count_eq, ← mem_ascending_repeats_iff, mem_ascending_iff]
  rw [duplicates, duplicates, same]

/-- Nothing is reported exactly if all names are distinct.  Otherwise the names that come at least twice
are reported, each once however often it comes and in ascending order; and the report is the same for
declarations with the same names in another order. -/
theorem duplicates_report :
    (∀ specs, duplicates specs = none ↔ (names specs).Nodup) ∧
    (∀ specs e, duplicates specs = some e ↔ e.message = "parameter appears more than once" ∧
      ∃ repeated, repeated ≠ [] ∧ repeated.Pairwise (· < ·) ∧
        (∀ name, name ∈ repeated ↔ 2 ≤ (names specs).count name) ∧
        e.paths = repeated.map fun name => "params[" ++ name ++ "]") ∧
    (∀ specs specs', (names specs).Perm (names specs') → duplicates specs = duplicates specs') :=
  ⟨fun _ => duplicates_eq_none_iff, fun _ _ => duplicates_eq_some_iff, fun _ _ => duplicates_congr⟩

/-- One name comes three times and another one twice, in between. -/
theorem duplicates_report_interleaved :
    let specs : List ParamSpec := ["foo", "bar", "foo", "baz", "bar", "foo"].map fun n => { name := n }
    let specs' : List ParamSpec := ["bar", "bar", "baz", "foo", "foo", "foo"].map fun n => { name := n }
    (names specs).Perm (names specs') ∧ duplicates specs = duplicates specs' ∧
      (duplicates specs).map FieldError.paths = some ["params[bar]", "params[foo]"] := by
  intro specs specs'
  have perm : (names specs).Perm (names specs') := by decide
  exact ⟨perm, duplicates_report.2.2 specs specs' perm, by decide +kernel⟩

end ParamSpec

end PipelineParams
