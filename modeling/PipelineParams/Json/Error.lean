import PipelineParams.Decimal.Notation
import PipelineParams.Text.Quoted

/-! # What can be wrong with a document

`Error` has one constructor for each fault a reader can meet, and `Error.message` has the wording.  A
value of the wrong type is reported by what stands there (`Found`) and by what is due (`Wanted`).
-/

namespace PipelineParams.Json

inductive Found where
  | null
  | boolean (value : Bool)
  | integer (value : Int)
  | floating (value : Float)
  | text (value : String)
  | sequence
  | map
  deriving DecidableEq

inductive Wanted where
  | text
  | sequence
  | map
  | record (name : String)
  | unit
  deriving DecidableEq

inductive Error where
  /-- The text ends where a value is due. -/
  | endInValue
  | endInList
  | endInObject
  | endInString
  /-- No value starts with this character. -/
  | valueExpected
  /-- A letter of `null`, `true` or `false` is wrong. -/
  | wordExpected
  /-- A key is not followed by a colon. -/
  | colonExpected
  /-- An item of a list is followed by neither a comma nor the end of the list. -/
  | listCommaExpected
  /-- An entry of an object is followed by neither a comma nor the end of the object. -/
  | objectCommaExpected
  /-- A key does not start with a quote. -/
  | keyExpected
  /-- A number breaks off or has a leading zero. -/
  | invalidNumber
  /-- A number is beyond the largest double. -/
  | numberOutOfRange
  /-- A backslash is not followed by a known escape. -/
  | invalidEscape
  /-- A character below U+0020 stands bare in a string. -/
  | bareControl
  /-- One half of a surrogate pair stands where the other one is due. -/
  | loneSurrogate
  /-- The first half of a surrogate pair is followed by no further escape. -/
  | brokenSurrogatePair
  /-- The last comma is followed by a closing bracket. -/
  | trailingComma
  /-- More text follows where the value is complete. -/
  | trailingCharacters
  /-- The value is of another type than the one due. -/
  | wrongType (found : Found) (wanted : Wanted)
  /-- A list that stands for a record ends before an item that must be present. -/
  | missingItem (index : Nat) (record : String) (arity : Nat)
  /-- A field of a record is given twice. -/
  | duplicateField (name : String)
  /-- A field that must be present is absent. -/
  | missingField (name : String)
  /-- A choice is made by a name that is none of the known ones. -/
  | unknownVariant (name : String) (known : List String)
  deriving DecidableEq

/-! ## Wording -/

/-- Numbers with a fraction are positional from `0.00001` up to sixteen places before the point. -/
def floatNotation : Decimal.Notation where
  last := 16
  first := -4

def Found.describe : Found → String
  | .null => "null"
  | .boolean true => "boolean `true`"
  | .boolean false => "boolean `false`"
  | .integer i => "integer `" ++ toString i ++ "`"
  | .floating x => "floating point `" ++ floatNotation.write (Decimal.shortest x) ++ "`"
  | .text s => "string " ++ Text.quote s
  | .sequence => "sequence"
  | .map => "map"

def Wanted.describe : Wanted → String
  | .text => "a string"
  | .sequence => "a sequence"
  | .map => "a map"
  | .record name => "struct " ++ name
  | .unit => "unit"

def Error.message : Error → String
  | .endInValue => "EOF while parsing a value"
  | .endInList => "EOF while parsing a list"
  | .endInObject => "EOF while parsing an object"
  | .endInString => "EOF while parsing a string"
  | .valueExpected => "expected value"
  | .wordExpected => "expected ident"
  | .colonExpected => "expected `:`"
  | .listCommaExpected => "expected `,` or `]`"
  | .objectCommaExpected => "expected `,` or `\x7d`"
  | .keyExpected => "key must be a string"
  | .invalidNumber => "invalid number"
  | .numberOutOfRange => "number out of range"
  | .invalidEscape => "invalid escape"
  | .bareControl => "control character (\\u0000-\\u001F) found while parsing a string"
  | .loneSurrogate => "lone leading surrogate in hex escape"
  | .brokenSurrogatePair => "unexpected end of hex escape"
  | .trailingComma => "trailing comma"
  | .trailingCharacters => "trailing characters"
  | .wrongType found wanted => "invalid type: " ++ found.describe ++ ", expected " ++ wanted.describe
  | .missingItem index record arity =>
    "invalid length " ++ toString index ++ ", expected struct " ++ record ++ " with " ++
      toString arity ++ " elements"
  | .duplicateField name => "duplicate field `" ++ name ++ "`"
  | .missingField name => "missing field `" ++ name ++ "`"
  | .unknownVariant name known =>
    "unknown variant `" ++ name ++ "`, expected one of " ++
      ", ".intercalate (known.map fun k => "`" ++ k ++ "`")

end PipelineParams.Json
