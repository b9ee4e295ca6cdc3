import PipelineParams.Value

/-! # Declarations

A task declares its parameters and the results that it promises.  A declaration may leave types open;
`setDefaults` fills them in.

* `PropertySpec` declares one field of an object.
* `ParamSpec` declares a parameter, `ResultSpec` a result, which has no default value.
-/

namespace PipelineParams

structure PropertySpec where
  type : Option ParamType := none
  deriving DecidableEq

/-- The same field with its type filled in: a text unless declared otherwise. -/
def PropertySpec.setDefaults (p : PropertySpec) : PropertySpec := ⟨some (p.type.getD .string)⟩

def defaultProperties (properties : Option (SortedMap PropertySpec)) :
    Option (SortedMap PropertySpec) :=
  properties.map (SortedMap.map PropertySpec.setDefaults)

structure ParamSpec where
  name : String
  type : Option ParamType := none
  description : Option String := none
  /-- The fields of an object parameter, if they are declared. -/
  properties : Option (SortedMap PropertySpec) := none
  /-- The value of a parameter that is given none. -/
  default : Option ParamValue := none
  deriving DecidableEq

namespace ParamSpec

/-- The declared type, or string where none is declared. -/
def effectiveType (s : ParamSpec) : ParamType := s.type.getD .string

/-- The type that a declaration implies: the declared one, else that of the default value, else object
if fields are declared, else string. -/
def impliedType (s : ParamSpec) : ParamType :=
  match s.type, s.default, s.properties with
  | some t, _, _ => t
  | none, some v, _ => v.type
  | none, none, some _ => .object
  | none, none, none => .string

def setDefaults (s : ParamSpec) : ParamSpec :=
  { s with type := some s.impliedType, properties := defaultProperties s.properties }

/-- Declares a field, in place of an earlier declaration of the same field. -/
def withProperty (s : ParamSpec) (field : String) (p : PropertySpec) : ParamSpec :=
  { s with properties := some ((s.properties.getD SortedMap.empty).insert field p) }

end ParamSpec

structure ResultSpec where
  name : String
  type : Option ParamType := none
  description : Option String := none
  /-- The fields of an object result, if they are declared. -/
  properties : Option (SortedMap PropertySpec) := none
  deriving DecidableEq

namespace ResultSpec

/-- The type that a declaration implies: the declared one, else object if fields are declared, else
string. -/
def impliedType (s : ResultSpec) : ParamType :=
  s.type.getD (if s.properties.isSome then .object else .string)

def setDefaults (s : ResultSpec) : ResultSpec :=
  { s with type := some s.impliedType, properties := defaultProperties s.properties }

/-- Declares a field, in place of an earlier declaration of the same field. -/
def withProperty (s : ResultSpec) (field : String) (p : PropertySpec) : ResultSpec :=
  { s with properties := some ((s.properties.getD SortedMap.empty).insert field p) }

end ResultSpec

end PipelineParams
