import PipelineParams.Context.Basic

/-! # Configuration

A configuration has three sections, each of which may be absent: how to log, how to print, and what
references stand for by default.

* `LogLevel` is the scale of what is logged.
* `Config.merge` lays one configuration over another.
-/

namespace PipelineParams

/-- The scale of what is logged, from everything to errors only. -/
inductive LogLevel where
  | trace
  | debug
  | info
  | warn
  | error
  deriving DecidableEq, Repr

namespace LogLevel

def all : List LogLevel := [.trace, .debug, .info, .warn, .error]

def name : LogLevel → String
  | .trace => "trace"
  | .debug => "debug"
  | .info => "info"
  | .warn => "warn"
  | .error => "error"

def rank : LogLevel → Nat
  | .trace => 0
  | .debug => 1
  | .info => 2
  | .warn => 3
  | .error => 4

def lowered (s : String) : String := String.ofList (s.toList.map Char.toLower)

def ofName? (name : String) : Option LogLevel := all.find? (fun l => l.name = lowered name)

end LogLevel

structure LoggingSection where
  /-- The least level that is logged, as it is written. -/
  level : Option String := none
  /-- Whether events are logged as objects. -/
  json : Bool := false
  /-- The directory in which a log is kept besides. -/
  directory : Option String := none
  deriving DecidableEq

structure OutputSection where
  /-- Whether documents are printed with one item per line. -/
  pretty : Bool := false
  deriving DecidableEq

structure Config where
  logging : Option LoggingSection := none
  output : Option OutputSection := none
  replacements : Option ReplacementContext := none
  deriving DecidableEq

namespace Config

def empty : Config := {}

def mergeReplacements : Option ReplacementContext → Option ReplacementContext →
    Option ReplacementContext
  | some c, some d => some (c.merge d)
  | none, d => d
  | c, none => c

/-- Lays `d` over `c`: a section of `d` replaces that of `c`, but replacements are merged key by key. -/
def merge (c d : Config) : Config where
  logging := d.logging.or c.logging
  output := d.output.or c.output
  replacements := mergeReplacements c.replacements d.replacements

def logLevel (c : Config) : Option String := c.logging.bind (·.level)

def prettyOutput (c : Config) : Bool :=
  match c.output with
  | some o => o.pretty
  | none => false

def replacementContext (c : Config) : ReplacementContext :=
  c.replacements.getD ReplacementContext.empty

def unknownLevel? (c : Config) : Option String :=
  c.logLevel.filter fun level => (LogLevel.ofName? level).isNone

end Config

end PipelineParams
