import Mathlib.Data.List.Forall2
import PipelineParams.Collection
import PipelineParams.Proofs.SortedMap.Lookup

/-! # Types that are filled in

A declaration that leaves types open says what they are in other ways.  `ParamSpec.HasType` lists these
in the order in which they count, and `ParamSpec.FilledIn` adds what becomes of the rest of a declaration:
every open field is a text, and everything else is as it was.

`ParamSpec.setDefaults_eq_iff` says that filling in does this and no more.  The declarations without an
open type are then the ones that stay as they are (`ParamSpec.setDefaults_eq_self_iff`), and filling in
makes one of these, so doing it again changes nothing.
-/

namespace PipelineParams

theorem exists_of_rel_some {α β : Type} {r : α → β → Prop} {a? : Option α} {b : β}
    (related : Option.Rel r a? (some b)) : ∃ a, a? = some a ∧ r a b := by
  cases related with
  | some holds => exact ⟨_, rfl, holds⟩

/-! ## Fields -/

inductive PropertySpec.FilledIn : PropertySpec → PropertySpec → Prop
  | declared (t : ParamType) : FilledIn ⟨some t⟩ ⟨some t⟩
  | undeclared : FilledIn ⟨none⟩ ⟨some .string⟩

theorem PropertySpec.setDefaults_eq_iff {p q : PropertySpec} : p.setDefaults = q ↔ p.FilledIn q := by
  constructor
  · rintro rfl
    obtain ⟨type⟩ := p
    cases type with
    | none => exact .undeclared
    | some t => exact .declared t
  · rintro (_ | _) <;> rfl

theorem PropertySpec.FilledIn.type_ne_none {p q : PropertySpec} (filled : p.FilledIn q) :
    q.type ≠ none := by
  cases filled <;> exact nofun

theorem PropertySpec.filled_self {p : PropertySpec} (typed : p.type ≠ none) : p.FilledIn p := by
  obtain ⟨type⟩ := p
  cases type with
  | none => exact absurd rfl typed
  | some t => exact .declared t

def FieldsFilled (m n : SortedMap PropertySpec) : Prop :=
  ∀ field, Option.Rel PropertySpec.FilledIn (m.get? field) (n.get? field)

theorem map_setDefaults_eq_iff {m n : SortedMap PropertySpec} :
    m.map PropertySpec.setDefaults = n ↔ FieldsFilled m n := by
  constructor
  · rintro rfl field
    rw [SortedMap.get?_map]
    cases m.get? field with
    | none => exact .none
    | some p => exact .some (PropertySpec.setDefaults_eq_iff.1 rfl)
  · intro filled
    apply SortedMap.ext_get?
    intro field
    have here := filled field
    rw [SortedMap.get?_map]
    generalize m.get? field = before, n.get? field = after at here ⊢
    cases here with
    | none => rfl
    | some becomes => rw [Option.map_some, PropertySpec.setDefaults_eq_iff.2 becomes]

theorem defaultProperties_eq_iff {before after : Option (SortedMap PropertySpec)} :
    defaultProperties before = after ↔ Option.Rel FieldsFilled before after := by
  constructor
  · rintro rfl
    cases before with
    | none => exact .none
    | some m => exact .some (map_setDefaults_eq_iff.1 rfl)
  · rintro (filled | _)
    · rw [defaultProperties, Option.map_some, map_setDefaults_eq_iff.2 filled]
    · rfl

namespace ParamSpec

/-! ## Declarations -/

/-- The type of a parameter, by the first of these that its declaration has: a type, a default value,
fields, of which there may be none. -/
inductive HasType (s : ParamSpec) : ParamType → Prop
  | declared {t : ParamType} : s.type = some t → s.HasType t
  | ofDefault {v : ParamValue} : s.type = none → s.default = some v → s.HasType v.type
  | ofProperties {m : SortedMap PropertySpec} :
      s.type = none → s.default = none → s.properties = some m → s.HasType .object
  | bare : s.type = none → s.default = none → s.properties = none → s.HasType .string

structure FilledIn (s d : ParamSpec) : Prop where
  name : d.name = s.name
  type : ∃ t, s.HasType t ∧ d.type = some t
  description : d.description = s.description
  properties : Option.Rel FieldsFilled s.properties d.properties
  default : d.default = s.default

structure Complete (s : ParamSpec) : Prop where
  type : s.type ≠ none
  properties : ∀ m ∈ s.properties, ∀ field p, m.get? field = some p → p.type ≠ none

variable {s d : ParamSpec}

theorem impliedType_eq_iff {t : ParamType} : s.impliedType = t ↔ s.HasType t := by
  constructor
  · rintro rfl
    rw [impliedType]
    split
    next t _ _ type => exact .declared type
    next v _ type default => exact .ofDefault type default
    next m type default properties => exact .ofProperties type default properties
    next type default properties => exact .bare type default properties
  · rintro (type | ⟨type, default⟩ | ⟨type, default, properties⟩ | ⟨type, default, properties⟩) <;>
      simp only [impliedType, *]

theorem setDefaults_eq_iff : s.setDefaults = d ↔ s.FilledIn d := by
  constructor
  · rintro rfl
    exact
      { name := rfl
        type := ⟨s.impliedType, impliedType_eq_iff.1 rfl, rfl⟩
        description := rfl
        properties := defaultProperties_eq_iff.1 rfl
        default := rfl }
  · intro filled
    obtain ⟨t, hasType, type⟩ := filled.type
    rw [setDefaults, impliedType_eq_iff.2 hasType, defaultProperties_eq_iff.2 filled.properties, ← type,
      ← filled.name, ← filled.description, ← filled.default]

theorem FilledIn.complete (filled : s.FilledIn d) : d.Complete where
  type := by
    obtain ⟨t, -, type⟩ := filled.type
    rw [type]
    exact nofun
  properties n member field q found := by
    have properties := filled.properties
    rw [member] at properties
    obtain ⟨m, -, fields⟩ := exists_of_rel_some properties
    have here := fields field
    rw [found] at here
    obtain ⟨p, -, becomes⟩ := exists_of_rel_some here
    exact becomes.type_ne_none

/-- Where nothing is open nothing is filled in. -/
theorem Complete.filled_self (complete : s.Complete) : s.FilledIn s where
  name := rfl
  type := by
    obtain ⟨t, type⟩ := Option.ne_none_iff_exists'.1 complete.type
    exact ⟨t, .declared type, type⟩
  description := rfl
  properties := by
    cases properties : s.properties with
    | none => exact .none
    | some m =>
      refine .some fun field => ?_
      cases found : m.get? field with
      | none => exact .none
      | some p => exact .some (PropertySpec.filled_self (complete.properties m properties field p found))
  default := rfl

theorem setDefaults_eq_self_iff : s.setDefaults = s ↔ s.Complete :=
  ⟨fun same => (setDefaults_eq_iff.1 same).complete,
    fun complete => setDefaults_eq_iff.2 complete.filled_self⟩

theorem setDefaultsAll_eq_iff {specs filled : List ParamSpec} :
    setDefaultsAll specs = filled ↔ List.Forall₂ FilledIn specs filled := by
  rw [← List.forall₂_eq_eq_eq, setDefaultsAll, List.forall₂_map_left_iff]
  simp only [setDefaults_eq_iff]

/-- Filling in types gives each open type the one that the rest of the declaration implies, each open
field a text, and changes nothing else.  It leaves no type open, and what has no open type stays as it
is, so a second time nothing changes.  A result gets the same types as a parameter that is declared like
it and has no default value, and in a list of declarations each one is filled in by itself. -/
theorem setDefaults_fills :
    (∀ s d : ParamSpec, s.setDefaults = d ↔ s.FilledIn d) ∧
    (∀ s : ParamSpec, s.setDefaults.Complete ∧ s.setDefaults.setDefaults = s.setDefaults) ∧
    (∀ s : ParamSpec, s.setDefaults = s ↔ s.Complete) ∧
    (∀ (r : ResultSpec) (name : String) (description : Option String),
      let s : ParamSpec := { name, type := r.type, description, properties := r.properties }
      r.setDefaults.type = s.setDefaults.type ∧
        r.setDefaults.properties = s.setDefaults.properties) ∧
    (∀ specs filled : List ParamSpec,
      setDefaultsAll specs = filled ↔ List.Forall₂ FilledIn specs filled) := by
  have complete (s : ParamSpec) : s.setDefaults.Complete := (setDefaults_eq_iff.1 rfl).complete
  refine ⟨fun s d => setDefaults_eq_iff,
    fun s => ⟨complete s, setDefaults_eq_self_iff.2 (complete s)⟩,
    fun s => setDefaults_eq_self_iff, fun r name description => ⟨?_, rfl⟩,
    fun specs filled => setDefaultsAll_eq_iff⟩
  -- without a default value there are four ways to imply a type
  obtain ⟨_, type, _, properties⟩ := r
  cases type <;> cases properties <;> rfl

/-- A default value comes before the fields, and the fields are filled in all the same. -/
example :
    ({ name := "p", properties := some (SortedMap.empty.insert "k" {}),
       default := some (.array []) } : ParamSpec).setDefaults =
      { name := "p", type := some .array, properties := some (SortedMap.empty.insert "k" ⟨some .string⟩),
        default := some (.array []) } := by
  decide

end ParamSpec

end PipelineParams
