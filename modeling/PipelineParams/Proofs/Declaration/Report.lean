import Mathlib.Data.String.Basic
import PipelineParams.Proofs.Declaration.Names
import PipelineParams.Proofs.FieldError.Paths

/-! # The order of reported names

A report on repeated names gives their paths in the order of the names, while gathering puts paths in
an order of their own.  The two orders differ where one name goes on from another: the longer name is
the greater one, but in the paths the closing bracket of the shorter one is compared with the character
that follows in the longer one, and a hyphen, a dot, a digit or a capital letter is below it
(`Overtakes`).

`path_lt_path_iff` says that nothing else sets the two orders apart.  So a report is left as it is when
it is gathered with other failures exactly if no name in it overtakes another one
(`duplicates_stay_in_order_iff`).
-/

namespace PipelineParams

/-- Lists with a mark at their end are in the order of the lists, unless one of them goes on from the
other with something below the mark. -/
theorem append_singleton_lt_iff {α : Type} [LinearOrder α] {xs ys : List α} {mark : α}
    (below : xs < ys) :
    xs ++ [mark] < ys ++ [mark] ↔ ∀ c rest, ys = xs ++ c :: rest → mark ≤ c := by
  induction xs generalizing ys with
  | nil =>
    cases ys with
    | nil => exact absurd below (List.not_lt_nil [])
    | cons c rest =>
      -- the mark meets the first thing that the longer list has and the shorter one has not
      have behind : [] < rest ++ [mark] := by cases rest <;> exact List.nil_lt_cons _ _
      simp [List.cons_lt_cons_iff, behind, le_iff_lt_or_eq]
  | cons x xs ih =>
    cases ys with
    | nil => exact absurd below (List.not_lt_nil _)
    | cons y ys =>
      rw [List.cons_append, List.cons_append, List.cons_lt_cons_iff]
      rcases List.cons_lt_cons_iff.1 below with first | ⟨rfl, later⟩
      · refine iff_of_true (.inl first) fun c rest same => ?_
        exact absurd (List.cons.inj same).1 first.ne'
      · simp [ih later]

namespace ParamSpec

/-! ## Names and paths -/

/-- A name goes on where another one ends, with a character below the closing bracket. -/
def Overtakes (longer shorter : String) : Prop :=
  ∃ c rest, longer.toList = shorter.toList ++ c :: rest ∧ c < ']'

theorem Overtakes.lt {longer shorter : String} (overtakes : Overtakes longer shorter) :
    shorter < longer := by
  obtain ⟨c, rest, same, -⟩ := overtakes
  have further : shorter.toList ++ [] < shorter.toList ++ c :: rest :=
    List.append_left_lt (List.nil_lt_cons c rest)
  rw [List.append_nil, ← same] at further
  exact String.lt_iff_toList_lt.2 further

theorem toList_path (name : String) :
    ("params[" ++ name ++ "]").toList = "params[".toList ++ (name.toList ++ [']']) := by
  rw [String.toList_append, String.toList_append, List.append_assoc]
  rfl

theorem path_injective : Function.Injective fun name : String => "params[" ++ name ++ "]" := by
  intro m n same
  have lists := congrArg String.toList same
  rw [toList_path, toList_path, List.append_cancel_left_eq, List.append_cancel_right_eq] at lists
  exact String.toList_inj.1 lists

theorem path_lt_path_iff {m n : String} (below : m < n) :
    "params[" ++ m ++ "]" < "params[" ++ n ++ "]" ↔ ¬ Overtakes n m := by
  rw [String.lt_iff_toList_lt, toList_path, toList_path]
  have start : "params[".toList = ['p', 'a', 'r', 'a', 'm', 's', '['] := rfl
  simp only [start, List.cons_append, List.nil_append, List.cons_lt_cons_self]
  rw [append_singleton_lt_iff below]
  simp only [Overtakes, not_exists, not_and, not_lt]

theorem paths_pairwise_iff {ns : List String} (inOrder : ns.Pairwise (· < ·)) :
    (ns.map fun name => "params[" ++ name ++ "]").Pairwise (· < ·) ↔
      ∀ m ∈ ns, ∀ n ∈ ns, ¬ Overtakes m n := by
  rw [List.pairwise_map]
  constructor
  · intro paths m longer n shorter overtakes
    have pair : [n, m].Sublist ns :=
      sublist_of_subset (List.pairwise_pair.2 overtakes.lt) inOrder (by simp [longer, shorter])
    have early := paths.sublist pair
    rw [List.pairwise_pair] at early
    exact (path_lt_path_iff overtakes.lt).1 early overtakes
  · intro none
    exact inOrder.imp_of_mem fun before after below =>
      (path_lt_path_iff below).2 (none _ after _ before)

/-! ## Reports that are gathered -/

variable {specs : List ParamSpec} {e : FieldError}

theorem duplicates_paths_nodup (reported : duplicates specs = some e) : e.paths.Nodup := by
  obtain ⟨-, repeated, -, inOrder, -, paths⟩ := duplicates_eq_some_iff.1 reported
  rw [paths]
  exact List.Nodup.map path_injective (inOrder.imp ne_of_lt)

theorem duplicates_paths_pairwise_iff (reported : duplicates specs = some e) :
    e.paths.Pairwise (· < ·) ↔ ∀ m n, 2 ≤ (names specs).count m → 2 ≤ (names specs).count n →
      ¬ Overtakes m n := by
  obtain ⟨-, repeated, -, inOrder, members, paths⟩ := duplicates_eq_some_iff.1 reported
  rw [paths, paths_pairwise_iff inOrder]
  simp only [members]
  exact forall_congr' fun m => forall_comm

/-- A report on repeated names has its paths in ascending order exactly if none of the names goes on
from another one with a character below the closing bracket.  Just then the report is left as it is
when it is gathered with itself, and its paths keep their order when it is gathered with any other
failures.  Otherwise it has the same paths in another order when it is gathered with itself. -/
theorem duplicates_stay_in_order_iff (reported : duplicates specs = some e) :
    [∀ m n, 2 ≤ (names specs).count m → 2 ≤ (names specs).count n → ¬ Overtakes m n,
      e.paths.Pairwise (· < ·),
      e.also e = e,
      ∀ f : FieldError, f.message = e.message →
        e.paths.Sublist (e.also f).paths ∧ e.paths.Sublist (f.also e).paths,
      ∀ g : FieldError.Gathering, e ∈ g.failures → e.paths.Sublist g.result.paths].TFAE ∧
    e.also e = { e with paths := e.paths.mergeSort (· ≤ ·) } := by
  constructor
  · exact List.tfae_cons_cons.2
      ⟨(duplicates_paths_pairwise_iff reported).symm, FieldError.ascending_tfae e⟩
  · exact FieldError.also_self_of_nodup (duplicates_paths_nodup reported)

/-- No name goes on with anything below the closing bracket. -/
theorem duplicates_stay_in_order_iff_images :
    let specs : List ParamSpec :=
      ["images", "image_tag", "image", "image", "tag", "image_tag", "images"].map fun n => { name := n }
    let e : FieldError :=
      ⟨"parameter appears more than once", ["params[image]", "params[image_tag]", "params[images]"]⟩
    duplicates specs = some e ∧ e.paths.Pairwise (· < ·) ∧ e.also e = e ∧
      ∀ g : FieldError.Gathering, e ∈ g.failures → e.paths.Sublist g.result.paths := by
  intro specs e
  have reported : duplicates specs = some e := by decide +kernel
  have inOrder : e.paths.Pairwise (· < ·) := by decide +kernel
  have equivalent := (duplicates_stay_in_order_iff reported).1
  exact ⟨reported, inOrder, (equivalent.out 1 2).1 inOrder, (equivalent.out 1 4).1 inOrder⟩

/-- A hyphen is below the closing bracket, so the longer of these names has the smaller path. -/
theorem duplicates_hyphenated_out_of_order :
    let specs : List ParamSpec := ["a", "a", "a-b", "a-b"].map fun n => { name := n }
    let e : FieldError := ⟨"parameter appears more than once", ["params[a]", "params[a-b]"]⟩
    duplicates specs = some e ∧ ¬ e.paths.Pairwise (· < ·) ∧ e.also e ≠ e ∧
      (e.also e).paths = ["params[a-b]", "params[a]"] ∧ ¬ e.paths.Sublist (e.also e).paths := by
  decide +kernel

end ParamSpec

end PipelineParams
