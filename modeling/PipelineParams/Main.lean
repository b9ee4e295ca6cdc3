import PipelineParams.Command.Run
import Std.Time.DateTime

/-! # The program

Looks at the configuration files, starts the log if one is to be kept in a directory, looks at the files
that the command works on, runs the command line on what was seen and prints what came of it.
-/

namespace PipelineParams

/-- What stands at a path that could not be opened. -/
def lookAtClosed (path : String) : IO (Except FileFault FileEntry) := do
  try
    let place ← IO.FS.realPath path
    return if (← place.metadata).type == .file then .ok .closed else .error .notPermitted
  catch _ => return .error .notPermitted

def lookAt (path : String) : IO (Except FileFault FileEntry) := do
  try
    let bytes ← IO.FS.readBinFile path
    return match String.fromUTF8? bytes with
      | some contents => .ok (.text contents)
      | none => .ok .binary
  catch
    | .inappropriateType _ 21 _ => return .ok .directory
    | .inappropriateType _ _ _ => return .error .notDirectory
    | .invalidArgument _ 22 _ => return .error .nulInPath
    | .invalidArgument _ _ _ => return .error .nameTooLong
    | .permissionDenied _ _ _ => lookAtClosed path
    | _ => return .error .notFound

def snapshot (paths : List String) : IO Disk := do
  let entries ← paths.mapM fun path => return (path, ← lookAt path)
  return fun path => (entries.lookup path).getD (.error .notFound)

def surroundings : IO Environment := do
  return {
    configDir := ← IO.getEnv "CONDUIT_CONFIG_DIR"
    configHome := ← IO.getEnv "XDG_CONFIG_HOME"
    home := ← IO.getEnv "HOME" }

def today : IO String := do
  let date := Std.Time.PlainDate.ofEpochDay (← Std.Time.Timestamp.now).toDaysSinceUnixEpoch
  let two (n : Int) := if n < 10 then "0" ++ toString n else toString n
  return toString date.year.toInt ++ "-" ++ two date.month.val ++ "-" ++ two date.day.val

/-- Opens the log of the day in a directory, which is made if it is missing. -/
def openLog? (directory : String) : IO (Option IO.FS.Handle) := do
  try
    IO.FS.createDirAll directory
    return some (← IO.FS.Handle.mk (joinPath directory (LogPlan.fileName (← today))) .append)
  catch _ => return none

def report (outcome : Outcome) : IO UInt32 := do
  let errors ← IO.getStderr
  match outcome with
  | .misused => errors.putStr Scope.program.usage
  | .unloggable dir => errors.putStrLn ("the log directory cannot be used: " ++ dir)
  | .ran plan _ =>
    for e in outcome.shownEvents do
      errors.putStrLn (if plan.json then e.toJson.compact else e.line)
  | _ => pure ()
  (← IO.getStdout).putStr outcome.stdout
  for f in outcome.failure.toList do errors.putStrLn f.text
  return outcome.exitCode.toUInt32

end PipelineParams

open PipelineParams in
def main (args : List String) : IO UInt32 := do
  let env ← surroundings
  let invocation? := (Invocation.ofArguments env.configDir args).toOption
  let layers := invocation?.toList.flatMap fun i => layerPaths env i.configDir none
  let before ← snapshot layers
  let directory? := invocation?.bind fun i =>
    (LogPlan.ofConfig (i.load before env).config i.verbose).directory
  let log? ← match directory? with
    | some directory => openLog? directory
    | none => pure none
  let after ← snapshot (invocation?.toList.flatMap fun i => i.command.files)
  let workspace : Workspace :=
    { disk := fun path => if layers.contains path then before path else after path
      withLog? := fun _ => log?.map fun _ => after }
  let outcome := execute workspace env args
  match log?, outcome.keptEvents with
  | some log, some (_, events) => for e in events do log.putStrLn e.toJson.compact
  | _, _ => pure ()
  report outcome
