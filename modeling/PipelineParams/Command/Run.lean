import PipelineParams.Collection
import PipelineParams.Command.Arguments
import PipelineParams.Command.Event
import PipelineParams.Command.Failure
import PipelineParams.Config.Layers
import PipelineParams.Declaration.Codec
import PipelineParams.Substitution

/-! # Running commands

What a command prints, logs and fails with is a function of the disk, of the environment and of the
command line.

* `Invocation.perform` runs a command under a configuration that has been loaded.
* `Invocation.run` loads the configuration first and tells its warnings.
* `execute` starts from the command line.
-/

namespace PipelineParams

structure Result where
  stdout : String := ""
  failure : Option Failure := none
  events : List Event := []
  deriving DecidableEq

namespace Result

def failed (f : Failure) : Result := { failure := some f }

def ofExcept : Except Failure Result → Result
  | .ok r => r
  | .error f => failed f

def exitCode (r : Result) : Nat := if r.failure.isSome then 1 else 0

end Result

def printed (pretty : Bool) (t : Json.Tree) : String :=
  (if pretty then t.pretty else t.compact) ++ "\n"

/-! ## Resolving -/

/-- What references stand for: the replacements of a file, if one is named, or else those of the
configuration. -/
def chosenReplacements (disk : Disk) (config : Config) (file : Option String) :
    Except Failure ReplacementContext :=
  match file with
  | none => .ok config.replacementContext
  | some path =>
    match readInput disk path with
    | .error e => .error e
    | .ok text =>
      match ReplacementContext.parseToml text with
      | some c => .ok c
      | none => .error ⟨"failed to parse replacements in " ++ path, [""]⟩

def readyEvent (c : ReplacementContext) : Event where
  level := .debug
  target := "conduit::commands::resolve"
  message := "replacement context ready"
  data :=
    [("strings", .count c.strings.size), ("arrays", .count c.arrays.size),
     ("objects", .count c.objects.size)]

def ResolutionNote.event : ResolutionNote → Event
  | .promoted type reference =>
    { level := .debug
      target := "conduit_params::replace"
      message := "promoting string to " ++ type.name
      data := [("reference", .text reference)] }
  | .spliced item length =>
    { level := .trace
      target := "conduit_params::replace"
      message := "splicing array reference"
      data := [("element", .text item), ("len", .count length)] }

def resolvedEvent (count : Nat) : Event where
  level := .info
  target := "conduit::commands::resolve"
  message := "resolved params"
  data := [("count", .count count)]

def resolutionEvents (c : ReplacementContext) (ps : List Param) : List Event :=
  readyEvent c ::
    (ps.flatMap fun p => (p.value.notes c).map ResolutionNote.event) ++ [resolvedEvent ps.length]

def runResolve (disk : Disk) (config : Config) (pretty : Bool) (file : String)
    (replacements : Option String) : Result :=
  .ofExcept do
    let ps ← decodeInput disk Param.decodeList "params" file
    let c ← chosenReplacements disk config replacements
    return {
      stdout := printed pretty (Param.listToJson (resolveAll c ps))
      events := resolutionEvents c ps }

/-! ## Declarations and lengths -/

def Grouped.toJson (g : Grouped) : Json.Tree :=
  .object
    [("string", .list (g.string.map ParamSpec.toJson)),
     ("array", .list (g.array.map ParamSpec.toJson)),
     ("object", .list (g.object.map ParamSpec.toJson))]

def runCheck (disk : Disk) (pretty : Bool) (file : String) : Result :=
  .ofExcept do
    let specs ← decodeInput disk ParamSpec.decodeList "declarations" file
    let specs := ParamSpec.setDefaultsAll specs
    return {
      stdout := printed pretty (Grouped.ofSpecs specs).toJson
      -- what was grouped is printed even if the command fails
      failure := (ParamSpec.duplicates specs).map fun e => ⟨e.display, []⟩ }

def lengthsIn (disk : Disk) (file : String) (defaults : Bool) : Except Failure (SortedMap Nat) :=
  if defaults then
    (decodeInput disk ParamSpec.decodeList "declarations" file).map ParamSpec.defaultLengths
  else (decodeInput disk Param.decodeList "params" file).map Param.arrayLengths

def runLengths (disk : Disk) (pretty : Bool) (file : String) (defaults : Bool) : Result :=
  .ofExcept ((lengthsIn disk file defaults).map fun lengths =>
    { stdout := printed pretty (.ofMap .count lengths) })

/-! ## Fan-out references -/

/-- The task and the result of the first fan-out reference in a text, or else of the text itself. -/
def fanOutNames (text : String) : String × String :=
  let found := (Param.mk "value" (.string text)).matrixNames
  if found.1 = "" then MatrixContext.names text else found

def runMatrix (pretty : Bool) (value : String) : Result :=
  let names := fanOutNames value
  { stdout := printed pretty (.object [("result", .text names.2), ("task", .text names.1)]) }

/-! ## Configuration -/

def runConfigShow (loaded : LoadedConfig) : Result :=
  let files :=
    match loaded.loadedFrom with
    | [] => "No config files loaded (using defaults)\n\n"
    | paths => "Config files:\n" ++ String.join (paths.map fun p => "  " ++ p ++ "\n") ++ "\n"
  let warnings := String.join (loaded.warnings.map fun w => "warning: " ++ w ++ "\n")
  { stdout := "# Conduit Configuration\n\n" ++ files ++ warnings ++ loaded.config.write }

def runConfigPath (env : Environment) (configDir : Option String) : Result :=
  let user :=
    match userPath? env configDir with
    | some path => "user:    " ++ path ++ "\n"
    | none => ""
  { stdout := user ++ "project: ./conduit.toml\n" }

/-! ## Invocations -/

def Invocation.perform (disk : Disk) (env : Environment) (loaded : LoadedConfig) (i : Invocation) :
    Result :=
  let pretty := i.pretty || loaded.config.prettyOutput
  match i.command with
  | .resolve file replacements => runResolve disk loaded.config pretty file replacements
  | .check file => runCheck disk pretty file
  | .lengths file defaults => runLengths disk pretty file defaults
  | .matrix value => runMatrix pretty value
  | .configShow => runConfigShow loaded
  | .configPath => runConfigPath env i.configDir

def warningEvent (warning : String) : Event where
  level := .warn
  target := "conduit"
  message := warning

structure LogPlan where
  threshold : LogLevel
  /-- Whether events are logged as documents. -/
  json : Bool
  /-- The directory in which all events are kept besides. -/
  directory : Option String
  deriving DecidableEq

namespace LogPlan

/-- How events are logged under a configuration.  Without a level, it is `info`. -/
def ofConfig (config : Config) (verbose : Bool) : LogPlan where
  threshold :=
    if verbose then .debug else (config.logLevel.bind LogLevel.ofName?).getD .info
  json :=
    match config.logging with
    | some s => s.json
    | none => false
  directory := config.logging.bind (·.directory)

/-- The disk once events are logged as planned, if that can be done. -/
def start? (plan : LogPlan) (workspace : Workspace) : Option Disk :=
  match plan.directory with
  | none => some workspace.disk
  | some dir => workspace.withLog? dir

/-- The name of the log of a day, which is written as `YYYY-MM-DD`. -/
def fileName (day : String) : String := "conduit.log." ++ day

end LogPlan

inductive Outcome where
  | misused
  | help (scope : Scope)
  | version (scope : Scope)
  /-- The directory for the log cannot be used. -/
  | unloggable (directory : String)
  | ran (plan : LogPlan) (result : Result)
  deriving DecidableEq

def Invocation.load (disk : Disk) (env : Environment) (i : Invocation) : LoadedConfig :=
  loadLayers disk env i.configDir none

/-- Runs an invocation: loads the configuration, starts the log, tells the warnings and performs the
command on the disk as the log leaves it. -/
def Invocation.run (workspace : Workspace) (env : Environment) (i : Invocation) : Outcome :=
  let loaded := i.load workspace.disk env
  let plan := LogPlan.ofConfig loaded.config i.verbose
  match plan.start? workspace with
  -- only a plan with a directory can fail to start
  | none => .unloggable (plan.directory.getD "")
  | some disk =>
    let result := i.perform disk env loaded
    -- the warnings were gathered before there was a log, and are told once it has been started
    .ran plan { result with events := loaded.warnings.map warningEvent ++ result.events }

def execute (workspace : Workspace) (env : Environment) (args : List String) : Outcome :=
  match Invocation.ofArguments env.configDir args with
  | .error .misused => .misused
  | .error (.help scope) => .help scope
  | .error (.version scope) => .version scope
  | .ok i => i.run workspace env

def Command.files : Command → List String
  | .resolve file replacements => file :: replacements.toList
  | .check file => [file]
  | .lengths file _ => [file]
  | .matrix _ => []
  | .configShow => []
  | .configPath => []

namespace Outcome

def exitCode : Outcome → Nat
  | .misused => 2
  | .help _ => 0
  | .version _ => 0
  | .unloggable _ => 101
  | .ran _ result => result.exitCode

def release : String := "0.0.0"

def stdout : Outcome → String
  | .misused => ""
  | .help scope => scope.usage
  | .version scope => scope.title ++ " " ++ release ++ "\n"
  | .unloggable _ => ""
  | .ran _ result => result.stdout

def failure : Outcome → Option Failure
  | .ran _ result => result.failure
  | _ => none

def shownEvents : Outcome → List Event
  | .ran plan result => result.events.filter (Event.shownAt plan.threshold)
  | _ => []

def keptEvents : Outcome → Option (String × List Event)
  | .ran plan result => plan.directory.map fun dir => (dir, result.events)
  | _ => none

end Outcome

end PipelineParams
