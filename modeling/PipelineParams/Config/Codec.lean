import PipelineParams.Config.Basic
import PipelineParams.Toml.Document
import PipelineParams.Toml.Printer

/-! # Configuration files

* `Config.parse` reads a configuration and checks its level.  Unknown keys are ignored; a value of the
  wrong type is a fault of the whole file.
* `Config.write` writes one.
* `ReplacementContext.parseToml` reads a file that holds nothing but a context.

A section may also be written as an array of its fields in the order of their declaration.

What is wrong with a malformed file, and where, is not part of the model: of the message about it there
is only the beginning (`ConfigError.message`), also in warnings and wherever they are shown.
-/

namespace PipelineParams

/-! ## Typed values -/

namespace Toml.Value

def string? : Value → Option String
  | .string s => some s
  | _ => none

def boolean? : Value → Option Bool
  | .boolean b => some b
  | _ => none

/-- The key under which a date or time stands where a table is due. -/
def datetimeKey : String := "$__toml_private_datetime"

/-- The entries of a table.  A date or time passes for a table with its text as the only entry. -/
def entries? : Value → Option (List (String × Value))
  | .table es => some es
  | .datetime d => some [(datetimeKey, .string d.write)]
  | _ => none

def items? : Value → Option (List Value)
  | .array vs => some vs
  | _ => none

def strings? (v : Value) : Option (List String) := v.items?.bind (List.mapM string?)

def map? {α : Type} (f : Value → Option α) (v : Value) : Option (SortedMap α) :=
  v.entries?.bind fun es =>
    (es.mapM fun e => (f e.2).map fun a => (e.1, a)).map SortedMap.ofList

/-- The fields of a record with the given names, from a table or from an array in their order. -/
def fields? (names : List String) : Value → Option (List (String × Value))
  | .array vs => some (names.zip vs)
  | v => v.entries?

def field {α : Type} (fields : List (String × Value)) (name : String) (f : Value → Option α)
    (blank : α) : Option α :=
  match fields.find? (fun e => e.1 = name) with
  | some e => f e.2
  | none => some blank

def present {α : Type} (f : Value → Option α) (v : Value) : Option (Option α) := (f v).map some

end Toml.Value

open Toml (Value)

/-! ## Sections -/

def ReplacementContext.ofFields? (fields : List (String × Value)) : Option ReplacementContext := do
  let strings ← Value.field fields "strings" (Value.map? Value.string?) SortedMap.empty
  let arrays ← Value.field fields "arrays" (Value.map? Value.strings?) SortedMap.empty
  let objects ← Value.field fields "objects" (Value.map? (Value.map? Value.string?)) SortedMap.empty
  some { strings, arrays, objects }

def ReplacementContext.ofValue? (v : Value) : Option ReplacementContext :=
  (v.fields? ["strings", "arrays", "objects"]).bind ofFields?

def LoggingSection.ofValue? (v : Value) : Option LoggingSection := do
  let fields ← v.fields? ["level", "json", "directory"]
  let level ← Value.field fields "level" (Value.present Value.string?) none
  let json ← Value.field fields "json" Value.boolean? false
  let directory ← Value.field fields "directory" (Value.present Value.string?) none
  some { level, json, directory }

def OutputSection.ofValue? (v : Value) : Option OutputSection := do
  let fields ← v.fields? ["pretty"]
  let pretty ← Value.field fields "pretty" Value.boolean? false
  some { pretty }

def Config.ofFields? (fields : List (String × Value)) : Option Config := do
  let logging ← Value.field fields "logging" (Value.present LoggingSection.ofValue?) none
  let output ← Value.field fields "output" (Value.present OutputSection.ofValue?) none
  let replacements ←
    Value.field fields "replacements" (Value.present ReplacementContext.ofValue?) none
  some { logging, output, replacements }

/-! ## Reading -/

inductive ConfigError where
  /-- The text is no configuration file, or a value is of the wrong type. -/
  | malformed
  /-- The level is not one of the known levels. -/
  | unknownLevel (level : String)
  deriving DecidableEq

/-- The wording of a fault.  For a malformed file it stops where the account of the fault would follow. -/
def ConfigError.message : ConfigError → String
  | .malformed => "failed to parse config:"
  | .unknownLevel level =>
    "invalid log level '" ++ level ++ "' (expected trace, debug, info, warn or error)"

def parseRecord {α : Type} (ofFields? : List (String × Value) → Option α) (text : String) :
    Option α :=
  match Toml.parse text with
  | .error _ => none
  | .ok fields => ofFields? fields

def ReplacementContext.parseToml (text : String) : Option ReplacementContext :=
  parseRecord ReplacementContext.ofFields? text

def Config.parse (text : String) : Except ConfigError Config :=
  match parseRecord Config.ofFields? text with
  | none => .error .malformed
  | some c =>
    match c.unknownLevel? with
    | none => .ok c
    | some level => .error (.unknownLevel level)

/-! ## Writing -/

open Toml (Block Setting)

def optionalSetting (key : String) : Option String → List (String × Setting)
  | none => []
  | some s => [(key, .text s)]

def LoggingSection.block (s : LoggingSection) : Block where
  path := ["logging"]
  settings :=
    optionalSetting "level" s.level ++ ("json", .flag s.json) ::
      optionalSetting "directory" s.directory

def OutputSection.block (s : OutputSection) : Block where
  path := ["output"]
  settings := [("pretty", .flag s.pretty)]

def mapBlock {α : Type} (path : List String) (f : α → Setting) (m : SortedMap α) : Block where
  path := path
  settings := m.entries.map fun e => (e.1, f e.2)

/-- The blocks of the objects: one for each, or an empty one for none at all. -/
def objectBlocks (path : List String) (m : SortedMap (SortedMap String)) : List Block :=
  if m.isEmpty then [⟨path, []⟩]
  else m.entries.map fun e => mapBlock (path ++ [e.1]) .text e.2

def ReplacementContext.blocks (c : ReplacementContext) : List Block :=
  mapBlock ["replacements", "strings"] .text c.strings ::
    mapBlock ["replacements", "arrays"] .texts c.arrays ::
      objectBlocks ["replacements", "objects"] c.objects

def Config.blocks (c : Config) : List Block :=
  (c.logging.map LoggingSection.block).toList ++ (c.output.map OutputSection.block).toList ++
    (c.replacements.map ReplacementContext.blocks).getD []

def Config.write (c : Config) : String := String.ofList (Toml.writeBlocks c.blocks)

end PipelineParams
