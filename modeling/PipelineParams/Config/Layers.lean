import PipelineParams.Config.Codec
import PipelineParams.Disk

/-! # Layers of configuration

A configuration is put together from the file of the user and the file of the project, the later over
the earlier.  A layer that is not there is passed over; one that cannot be loaded is passed over with a
warning, so loading never fails.

* `loadFile` loads one file.
* `Environment.userConfigPath?` is where the file of the user is looked for.
* `loadLayers` loads all layers.
-/

namespace PipelineParams

inductive LoadError where
  | unreadable (path : String) (fault : FileFault)
  | invalid (cause : ConfigError)
  deriving DecidableEq

def LoadError.message : LoadError → String
  | .unreadable path fault => "failed to read config file '" ++ path ++ "': " ++ fault.message
  | .invalid cause => cause.message

def loadFile (disk : Disk) (path : String) : Except LoadError Config :=
  match readFile disk path with
  | .error fault => .error (.unreadable path fault)
  | .ok text => (Config.parse text).mapError LoadError.invalid

/-! ## Places -/

structure Environment where
  /-- The directory of the user's file, if it is set. -/
  configDir : Option String := none
  /-- The directory of all configuration, if it is set. -/
  configHome : Option String := none
  /-- The home directory, if it is set. -/
  home : Option String := none
  /-- The home directory of the account, which counts where none is set. -/
  accountHome : Option String := none
  deriving DecidableEq

namespace Environment

def nonempty? (setting : Option String) : Option String := setting.filter (· ≠ "")

/-- The directory of all configuration: the one that is set, if it is an absolute path, or else the one
inside the home directory. -/
def platformDir? (env : Environment) : Option String :=
  match env.configHome.filter isAbsolute with
  | some dir => some dir
  | none => ((nonempty? env.home).or env.accountHome).map (joinPath · ".config")

def userConfigDir? (env : Environment) : Option String :=
  match nonempty? env.configDir with
  | some dir => some dir
  | none => env.platformDir?.map (joinPath · "conduit")

def userConfigPath? (env : Environment) : Option String :=
  env.userConfigDir?.map (joinPath · "config.toml")

end Environment

/-! ## Loading -/

structure Source where
  path : String
  loaded : Bool
  deriving DecidableEq

structure LoadedConfig where
  config : Config := Config.empty
  /-- Where layers were looked for, the lowest first. -/
  sources : List Source := []
  /-- Which layers could not be loaded and why. -/
  warnings : List String := []
  deriving DecidableEq

namespace LoadedConfig

def loadedFrom (l : LoadedConfig) : List String := (l.sources.filter (·.loaded)).map (·.path)

def addLayer (disk : Disk) (l : LoadedConfig) (path : String) : LoadedConfig :=
  if isFile disk path then
    match loadFile disk path with
    | .ok layer =>
      { l with config := l.config.merge layer, sources := l.sources ++ [⟨path, true⟩] }
    | .error e =>
      { l with
        sources := l.sources ++ [⟨path, false⟩]
        warnings := l.warnings ++ ["Failed to load " ++ path ++ ": " ++ e.message] }
  -- a missing layer is no reason for a warning
  else { l with sources := l.sources ++ [⟨path, false⟩] }

end LoadedConfig

/-- The path of the user's file.  A directory that is given for it counts before what the environment
says. -/
def userPath? (env : Environment) (configDir : Option String) : Option String :=
  match configDir with
  | some dir => some (joinPath dir "config.toml")
  | none => env.userConfigPath?

def layerPaths (env : Environment) (configDir projectDir : Option String) : List String :=
  (userPath? env configDir).toList ++ [joinPath (projectDir.getD "") "conduit.toml"]

def loadLayers (disk : Disk) (env : Environment) (configDir projectDir : Option String) :
    LoadedConfig :=
  (layerPaths env configDir projectDir).foldl (LoadedConfig.addLayer disk) {}

end PipelineParams
