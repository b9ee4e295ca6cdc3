import PipelineParams.Json.Record
import PipelineParams.Json.Tree
import PipelineParams.Text.Blank
import PipelineParams.Value

/-! # Values in documents

A value is written as a string, a list of strings or an object of strings.  Reading is more liberal:
whatever else a well-formed token holds, its spelling becomes the text.

* `ParamValue.ofRaw` classifies any text and never fails; it is the rule for text that a step wrote.
* `ParamValue.decode` reads a document, and fails only if that is not well formed.
* `ParamValue.encode` writes the document.
* `Param.decodeList` reads a list of named values.
-/

namespace PipelineParams

structure PayloadError where
  cause : Json.Error
  deriving DecidableEq

def PayloadError.message (e : PayloadError) : String :=
  "failed to decode parameter payload: " ++ e.cause.message

namespace ParamValue

/-! ## Classification -/

/-- The text of a string, with nothing for `null` and the raw spelling for everything else. -/
def ofScalar (raw : String) : ParamValue :=
  match Json.read (Json.optional Json.string) raw with
  | .ok (some text) => .string text
  | .ok none => .string ""
  | .error _ => .string raw

/-- The value that a raw text stands for: a list of strings, an object of strings, a string or
`null` are read, and any other text is kept as it is.  Blank text is the empty text. -/
def ofRaw (raw : String) : ParamValue :=
  match Text.trimStart raw.toList with
  | [] => .string ""
  | c :: _ =>
    -- the first character only picks the reader, which gets the text with all of its blanks
    if c = '[' then
      match Json.read (Json.list Json.string) raw with
      | .ok items => .array items
      | .error _ => ofScalar raw
    else if c = '\x7b' then
      match Json.read (Json.mapOf Json.string) raw with
      | .ok fields => .object fields
      | .error _ => ofScalar raw
    else ofScalar raw

/-! ## Documents -/

/-- Reads any well-formed token and classifies its spelling. -/
def reader : Json.Reader ParamValue := Json.token.map ofRaw

def decode (payload : String) : Except PayloadError ParamValue :=
  (Json.read reader payload).mapError PayloadError.mk

def toJson : ParamValue → Json.Tree
  | .string s => .text s
  | .array xs => .texts xs
  | .object m => .ofMap .text m

def encode (v : ParamValue) : String := v.toJson.compact

end ParamValue

namespace Param

/-- The fields of a named value.  Without a value it has the empty text. -/
def fields : List (Json.Field Param) :=
  [⟨"name", true, Json.string.map fun name p => { p with name }⟩,
   ⟨"value", false, ParamValue.reader.map fun value p => { p with value }⟩]

def reader : Json.Reader Param := Json.record "Param" fields ⟨"", .string ""⟩

def decodeList (payload : String) : Except PayloadError (List Param) :=
  (Json.read (Json.list reader) payload).mapError PayloadError.mk

def toJson (p : Param) : Json.Tree := .object [("name", .text p.name), ("value", p.value.toJson)]

def listToJson (ps : List Param) : Json.Tree := .list (ps.map toJson)

end Param

end PipelineParams
