import Mathlib.Data.List.Basic
import PipelineParams.Collection

/-! # Declarations by type

* `Grouped.group_ofSpecs`: a group is the sublist of the declarations of its type.
* `Grouped.perm_ofSpecs`: the groups together are all declarations.
* `ParamSpec.impliedType_of_ne`: only what counted as a text can have another type once types have been
  filled in.  So declarations may move out of the group of texts then, but none moves into it or out of
  another group (`Grouped.sublist_setDefaultsAll`, `Grouped.string_setDefaultsAll_sublist`).
-/

namespace PipelineParams

namespace ParamSpec

theorem names_setDefaultsAll (specs : List ParamSpec) : names (setDefaultsAll specs) = names specs :=
  List.map_map

theorem impliedType_of_ne {s : ParamSpec} (other : s.effectiveType ≠ .string) :
    s.impliedType = s.effectiveType := by
  cases type : s.type with
  | none => exact absurd (by rw [effectiveType, type]; rfl) other
  | some t => simp [impliedType, effectiveType, type]

theorem type_of_mem_setDefaultsAll {specs : List ParamSpec} {s : ParamSpec}
    (member : s ∈ setDefaultsAll specs) : s.type = some s.effectiveType := by
  obtain ⟨bare, -, rfl⟩ := List.mem_map.1 member
  rfl

end ParamSpec

namespace Grouped

open ParamSpec
open scoped List

def group (g : Grouped) : ParamType → List ParamSpec
  | .string => g.string
  | .array => g.array
  | .object => g.object

theorem group_cons (s : ParamSpec) (g : Grouped) (t : ParamType) :
    (g.cons s).group t = if s.effectiveType = t then s :: g.group t else g.group t := by
  rw [cons]
  cases s.effectiveType <;> cases t <;> rfl

theorem group_ofSpecs (specs : List ParamSpec) (t : ParamType) :
    (ofSpecs specs).group t = specs.filter (fun s => s.effectiveType = t) := by
  induction specs with
  | nil => cases t <;> rfl
  | cons s specs ih =>
    rw [ofSpecs, List.foldr_cons, group_cons, List.filter_cons, ← ih, ofSpecs]
    simp only [decide_eq_true_eq]

theorem perm_ofSpecs (specs : List ParamSpec) :
    ((ofSpecs specs).string ++ (ofSpecs specs).array ++ (ofSpecs specs).object).Perm specs := by
  induction specs with
  | nil => rfl
  | cons s specs ih =>
    rw [ofSpecs, List.foldr_cons, cons]
    split
    · exact ih.cons s
    · rw [List.append_assoc] at ih ⊢
      exact List.perm_middle.trans (ih.cons s)
    · exact List.perm_middle.trans (ih.cons s)

variable (specs : List ParamSpec)

theorem group_setDefaultsAll (t : ParamType) :
    (ofSpecs (setDefaultsAll specs)).group t =
      (specs.filter (fun s => s.impliedType = t)).map setDefaults := by
  rw [group_ofSpecs, setDefaultsAll, List.filter_map]
  rfl

theorem sublist_setDefaultsAll {t : ParamType} (other : t ≠ .string) :
    ((ofSpecs specs).group t).map setDefaults <+ (ofSpecs (setDefaultsAll specs)).group t := by
  rw [group_setDefaultsAll, group_ofSpecs]
  refine (List.monotone_filter_right specs fun s => ?_).map setDefaults
  simp only [decide_eq_true_eq]
  rintro rfl
  exact impliedType_of_ne other

theorem string_setDefaultsAll_sublist :
    (ofSpecs (setDefaultsAll specs)).string <+ (ofSpecs specs).string.map setDefaults := by
  change (ofSpecs (setDefaultsAll specs)).group .string <+ ((ofSpecs specs).group .string).map _
  rw [group_setDefaultsAll, group_ofSpecs]
  refine (List.monotone_filter_right specs fun s => ?_).map setDefaults
  simp only [decide_eq_true_eq]
  intro text
  by_contra other
  exact other (impliedType_of_ne other ▸ text)

end Grouped

end PipelineParams
