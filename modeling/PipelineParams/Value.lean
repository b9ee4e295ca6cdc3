import PipelineParams.SortedMap.Basic

/-! # Parameter values

A parameter is bound to one text, to a list of texts, or to an object whose fields are texts.  Which
of the three a value is, is its type.
-/

namespace PipelineParams

inductive ParamType where
  | string
  | array
  | object
  deriving DecidableEq, Repr

def ParamType.name : ParamType → String
  | .string => "string"
  | .array => "array"
  | .object => "object"

inductive ParamValue where
  | string (text : String)
  | array (items : List String)
  | object (fields : SortedMap String)
  deriving DecidableEq

namespace ParamValue

instance : Inhabited ParamValue := ⟨.string ""⟩

def type : ParamValue → ParamType
  | .string _ => .string
  | .array _ => .array
  | .object _ => .object

def string? : ParamValue → Option String
  | .string s => some s
  | _ => none

def array? : ParamValue → Option (List String)
  | .array xs => some xs
  | _ => none

def object? : ParamValue → Option (SortedMap String)
  | .object m => some m
  | _ => none

def length? (v : ParamValue) : Option Nat := v.array?.map List.length

/-- All texts that a value is made of: itself, its items, or the values of its fields. -/
def texts : ParamValue → List String
  | .string s => [s]
  | .array xs => xs
  | .object m => m.values

end ParamValue

structure Param where
  name : String
  value : ParamValue
  deriving DecidableEq

end PipelineParams
