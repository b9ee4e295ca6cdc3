import PipelineParams.Json.Tree
import PipelineParams.SortedMap.Basic

/-! # Failures at fields

A `FieldError` says what is wrong and at which fields.  `also` gathers several failures into one, whose
paths are in order and without repeats.
-/

namespace PipelineParams

/-- The members of a list in ascending order, each of them once. -/
def ascending (xs : List String) : List String :=
  (SortedMap.ofList (xs.map fun x => (x, ()))).keys

structure FieldError where
  message : String
  paths : List String
  deriving DecidableEq

namespace FieldError

/-- Gathers two failures: the paths of both, and both messages if they differ. -/
def also (e f : FieldError) : FieldError where
  message := if e.message = f.message then e.message else e.message ++ "; " ++ f.message
  paths := ascending (e.paths ++ f.paths)

def display (e : FieldError) : String := e.message ++ ": " ++ ", ".intercalate e.paths

def toJson (e : FieldError) : Json.Tree :=
  .object [("message", .text e.message), ("paths", .texts e.paths)]

end FieldError

end PipelineParams
