import PipelineParams.Declaration.Basic
import PipelineParams.Value.Codec

/-! # Declarations in documents

Types are written by name, and a field that is left open is left out.  Reading takes `null` for a
field that is left open.
-/

namespace PipelineParams

/-! ## Reading -/

def ParamType.choices : List (String × ParamType) :=
  [ParamType.string, .array, .object].map fun t => (t.name, t)

def ParamType.reader : Json.Reader ParamType := Json.choice ParamType.choices

def PropertySpec.reader : Json.Reader PropertySpec :=
  Json.record "PropertySpec"
    [⟨"type", false, (Json.optional ParamType.reader).map fun type _ => ⟨type⟩⟩] ⟨none⟩

namespace ParamSpec

def fields : List (Json.Field ParamSpec) :=
  [⟨"name", true, Json.string.map fun name s => { s with name }⟩,
   ⟨"type", false, (Json.optional ParamType.reader).map fun type s => { s with type }⟩,
   ⟨"description", false, (Json.optional Json.string).map fun description s =>
      { s with description }⟩,
   ⟨"properties", false, (Json.optional (Json.mapOf PropertySpec.reader)).map fun properties s =>
      { s with properties }⟩,
   ⟨"default", false, (Json.optional ParamValue.reader).map fun default s => { s with default }⟩]

def reader : Json.Reader ParamSpec := Json.record "ParamSpec" fields { name := "" }

def decodeList (payload : String) : Except PayloadError (List ParamSpec) :=
  (Json.read (Json.list reader) payload).mapError PayloadError.mk

end ParamSpec

namespace ResultSpec

def fields : List (Json.Field ResultSpec) :=
  [⟨"name", true, Json.string.map fun name s => { s with name }⟩,
   ⟨"type", false, (Json.optional ParamType.reader).map fun type s => { s with type }⟩,
   ⟨"description", false, (Json.optional Json.string).map fun description s =>
      { s with description }⟩,
   ⟨"properties", false, (Json.optional (Json.mapOf PropertySpec.reader)).map fun properties s =>
      { s with properties }⟩]

def reader : Json.Reader ResultSpec := Json.record "ResultSpec" fields { name := "" }

end ResultSpec

/-! ## Writing -/

/-- A field of a document that is left out where there is nothing to write. -/
def optionalField {α : Type} (key : String) (f : α → Json.Tree) : Option α → List (String × Json.Tree)
  | none => []
  | some a => [(key, f a)]

def ParamType.toJson (t : ParamType) : Json.Tree := .text t.name

def PropertySpec.toJson (p : PropertySpec) : Json.Tree :=
  .object (optionalField "type" ParamType.toJson p.type)

def ParamSpec.toJson (s : ParamSpec) : Json.Tree :=
  .object (("name", .text s.name) ::
    (optionalField "type" ParamType.toJson s.type ++
      optionalField "description" .text s.description ++
      optionalField "properties" (.ofMap PropertySpec.toJson) s.properties ++
      optionalField "default" ParamValue.toJson s.default))

def ResultSpec.toJson (s : ResultSpec) : Json.Tree :=
  .object (("name", .text s.name) ::
    (optionalField "type" ParamType.toJson s.type ++
      optionalField "description" .text s.description ++
      optionalField "properties" (.ofMap PropertySpec.toJson) s.properties))

end PipelineParams
