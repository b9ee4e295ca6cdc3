import PipelineParams.Declaration.Basic
import PipelineParams.FieldError
import PipelineParams.Reference.Basic

/-! # Lists of parameters and of declarations

* `Param.names` and `Param.arrayLengths` sum up a list of parameters, `ParamSpec.defaultLengths` a list
  of declarations.
* `ParamSpec.setDefaultsAll` fills in the types of a list of declarations.
* `Grouped.ofSpecs` sorts declarations by type and keeps their order within each group.
* `ParamSpec.duplicates` reports the names that are declared more than once.
* `Param.matrixNames` finds the first fan-out reference in a value.
-/

namespace PipelineParams

namespace Param

def names (ps : List Param) : List String := ascending (ps.map (·.name))

/-- The length of every array, by name; of parameters with one name the last array counts. -/
def arrayLengths (ps : List Param) : SortedMap Nat :=
  SortedMap.ofList (ps.filterMap fun p => p.value.length?.map fun n => (p.name, n))

/-- The task and the result of the first fan-out reference in a text, both empty if there is none. -/
def matrixNames (p : Param) : String × String :=
  match p.value with
  | .string text =>
    match (references text).findSome? (fun r => MatrixContext.parse r.expression) with
    | some m => m.pair
    | none => ("", "")
  | _ => ("", "")

end Param

structure Grouped where
  string : List ParamSpec
  array : List ParamSpec
  object : List ParamSpec
  deriving DecidableEq

/-- Puts each declaration into the group of its type, before those that are already there. -/
def Grouped.cons (s : ParamSpec) (g : Grouped) : Grouped :=
  match s.effectiveType with
  | .string => { g with string := s :: g.string }
  | .array => { g with array := s :: g.array }
  | .object => { g with object := s :: g.object }

def Grouped.ofSpecs (specs : List ParamSpec) : Grouped := specs.foldr Grouped.cons ⟨[], [], []⟩

namespace ParamSpec

def names (specs : List ParamSpec) : List String := specs.map (·.name)

def setDefaultsAll (specs : List ParamSpec) : List ParamSpec := specs.map setDefaults

/-- The length of every default value that is an array, by name; of declarations with one name the last
one with an array counts. -/
def defaultLengths (specs : List ParamSpec) : SortedMap Nat :=
  SortedMap.ofList (specs.filterMap fun s =>
    (s.default.bind ParamValue.length?).map fun n => (s.name, n))

/-- The names that have been seen before, at each place where they come again. -/
def repeats (seen : List String) : List String → List String
  | [] => []
  | n :: ns => if n ∈ seen then n :: repeats seen ns else repeats (n :: seen) ns

def duplicates (specs : List ParamSpec) : Option FieldError :=
  match ascending (repeats [] (names specs)) with
  | [] => none
  | n :: ns =>
    some
      { message := "parameter appears more than once"
        paths := (n :: ns).map fun name => "params[" ++ name ++ "]" }

end ParamSpec

end PipelineParams
