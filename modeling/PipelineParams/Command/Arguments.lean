import PipelineParams.Text.Affix

/-! # Command lines

A command line names a command and gives options and an operand.  It is read from left to right, and
the first thing that is wrong, or that asks for help or for the version, ends the reading.

* `Scope` is the command that an argument belongs to; commands are nested.
* `Given` gathers what has been given to one command.
* `Invocation.ofArguments` reads a whole command line.

Some options belong to every command.  One may be given again to an inner command, and a value given
to the innermost counts.
-/

namespace PipelineParams

/-! ## Commands and options -/

inductive Scope where
  | program
  | resolve
  | check
  | lengths
  | matrix
  | config
  | configShow
  | configPath
  deriving DecidableEq

inductive OptionName where
  | help
  | version
  | verbose
  | pretty
  | configDir
  | replacements
  | defaults
  deriving DecidableEq

namespace OptionName

def long : OptionName → String
  | .help => "help"
  | .version => "version"
  | .verbose => "verbose"
  | .pretty => "pretty"
  | .configDir => "config-dir"
  | .replacements => "replacements"
  | .defaults => "defaults"

/-- The letter behind one dash, for options that have one. -/
def short? : OptionName → Option Char
  | .help => some 'h'
  | .version => some 'V'
  | .verbose => some 'v'
  | _ => none

def takesValue : OptionName → Bool
  | .configDir => true
  | .replacements => true
  | _ => false

end OptionName

inductive Operand where
  | none
  | path
  | text
  deriving DecidableEq

namespace Scope

def title : Scope → String
  | .program => "conduit"
  | .resolve => "conduit-resolve"
  | .check => "conduit-check"
  | .lengths => "conduit-lengths"
  | .matrix => "conduit-matrix"
  | .config => "conduit-config"
  | .configShow => "conduit-config-show"
  | .configPath => "conduit-config-path"

def sharedOptions : List OptionName := [.help, .version, .verbose, .pretty, .configDir]

def options : Scope → List OptionName
  | .resolve => .replacements :: sharedOptions
  | .lengths => .defaults :: sharedOptions
  | _ => sharedOptions

def usage : Scope → String
  | .program => "Usage: conduit [OPTIONS] <resolve|check|lengths|matrix|config>\n"
  | .resolve => "Usage: conduit resolve [OPTIONS] [--replacements FILE] <FILE>\n"
  | .check => "Usage: conduit check [OPTIONS] <FILE>\n"
  | .lengths => "Usage: conduit lengths [OPTIONS] [--defaults] <FILE>\n"
  | .matrix => "Usage: conduit matrix [OPTIONS] <VALUE>\n"
  | .config => "Usage: conduit config [OPTIONS] <show|path>\n"
  | .configShow => "Usage: conduit config show [OPTIONS]\n"
  | .configPath => "Usage: conduit config path [OPTIONS]\n"

def operand : Scope → Operand
  | .resolve => .path
  | .check => .path
  | .lengths => .path
  | .matrix => .text
  | _ => .none

def inner : Scope → List (String × Scope)
  | .program =>
    [("resolve", .resolve), ("check", .check), ("lengths", .lengths), ("matrix", .matrix),
     ("config", .config)]
  | .config => [("show", .configShow), ("path", .configPath)]
  | _ => []

def inner? (s : Scope) (name : String) : Option Scope := (s.inner.find? (·.1 = name)).map (·.2)

def long? (s : Scope) (name : String) : Option OptionName := s.options.find? (·.long = name)

def short? (s : Scope) (letter : Char) : Option OptionName :=
  s.options.find? (·.short? = some letter)

end Scope

/-! ## Arguments -/

inductive Argument where
  /-- Two dashes alone: everything behind them is an operand. -/
  | separator
  /-- A long option, perhaps with a value attached by an equals sign. -/
  | long (name : String) (value : Option String)
  | short (letters : List Char)
  /-- A value, an operand or the name of a command. -/
  | plain (text : String)
  deriving DecidableEq

def Argument.ofString (arg : String) : Argument :=
  match arg.toList with
  | ['-', '-'] => .separator
  | '-' :: '-' :: cs =>
    match cs.dropWhile (· ≠ '=') with
    | [] => .long (String.ofList cs) none
    | _ :: value => .long (String.ofList (cs.takeWhile (· ≠ '='))) (some (String.ofList value))
  | '-' :: c :: cs => .short (c :: cs)
  | _ => .plain arg

/-- Why reading ends without a command to run. -/
inductive Stop where
  | misused
  | help (scope : Scope)
  | version (scope : Scope)
  deriving DecidableEq

structure Given where
  flags : List OptionName := []
  values : List (OptionName × String) := []
  operand : Option String := none
  /-- Whether the last value is refused.  A command inside that one is read nevertheless, and it may ask
  for help. -/
  flawed : Bool := false
  deriving DecidableEq

namespace Given

def value? (g : Given) (o : OptionName) : Option String :=
  (g.values.find? (·.1 = o)).map (·.2)

/-- Whether the option may have this value now: it has none yet, and the value is not empty. -/
def accepts (g : Given) (o : OptionName) (value : String) : Bool :=
  (g.value? o).isNone && value ≠ ""

def withValue (g : Given) (o : OptionName) (value : String) : Given :=
  { g with values := (o, value) :: g.values }

def flag (scope : Scope) (g : Given) (o : OptionName) : Except Stop Given :=
  if o = .help then .error (.help scope)
  else if o = .version then .error (.version scope)
  else if o.takesValue || o ∈ g.flags then .error .misused
  else .ok { g with flags := o :: g.flags }

def letters (scope : Scope) (g : Given) : List Char → Except Stop Given
  | [] => .ok g
  | c :: cs =>
    match scope.short? c with
    | none => .error .misused
    | some o =>
      match g.flag scope o with
      | .error e => .error e
      | .ok g => letters scope g cs

def withOperand (scope : Scope) (g : Given) (text : String) : Except Stop Given :=
  if g.operand.isSome || scope.operand = .none || (scope.operand = .path && text = "") then
    .error .misused
  else .ok { g with operand := some text }

def withOperands (scope : Scope) (g : Given) : List String → Except Stop Given
  | [] => .ok g
  | text :: texts =>
    match g.withOperand scope text with
    | .error e => .error e
    | .ok g => withOperands scope g texts

end Given

/-! ## Reading -/

def helpFor (scope : Scope) : List String → Stop
  | [] => .help scope
  | name :: names =>
    match scope.inner? name with
    | some inner => helpFor inner names
    | none => if name = "help" && scope.inner ≠ [] && names = [] then .help scope else .misused

/-- Reads the arguments of a command.  The answer holds the innermost command and what has been given to
it and to the commands around it, the innermost first. -/
def readArguments (scope : Scope) (given : Given) (outer : List Given) :
    List String → Except Stop (Scope × List Given)
  | [] => .ok (scope, given :: outer)
  | arg :: args =>
    -- the name of an inner command counts before anything else that the argument could be
    match scope.inner? arg with
    | some inner => readArguments inner {} (given :: outer) args
    | none =>
      if arg = "help" && scope.inner ≠ [] then .error (helpFor scope args)
      -- behind a refused value only an inner command or a call for help is still read
      else if given.flawed then .error .misused
      else
        match Argument.ofString arg with
        | .separator => (given.withOperands scope args).map fun g => (scope, g :: outer)
        | .short letters =>
          match given.letters scope letters with
          | .error e => .error e
          | .ok g => readArguments scope g outer args
        | .plain text =>
          match given.withOperand scope text with
          | .error e => .error e
          | .ok g => readArguments scope g outer args
        | .long name attached =>
          match scope.long? name with
          | none => .error .misused
          | some o =>
            if o.takesValue then
              match attached with
              | some value =>
                if given.accepts o value then
                  readArguments scope (given.withValue o value) outer args
                else .error .misused
              | none =>
                match args with
                | [] => .error .misused
                | value :: args =>
                  -- what looks like an option is no value, even behind an option that wants one
                  match Argument.ofString value with
                  | .plain _ =>
                    let g := { given.withValue o value with flawed := !given.accepts o value }
                    readArguments scope g outer args
                  | _ => .error .misused
            else
              match attached with
              | some _ => .error .misused
              | none =>
                match given.flag scope o with
                | .error e => .error e
                | .ok g => readArguments scope g outer args

/-! ## Invocations -/

inductive Command where
  /-- Resolves the parameters of a file, by the replacements of another file or of the configuration. -/
  | resolve (file : String) (replacements : Option String)
  /-- Groups the declarations of a file by type and looks for repeated names. -/
  | check (file : String)
  /-- Counts the items of the arrays of a file, which holds declarations if `defaults` is set. -/
  | lengths (file : String) (defaults : Bool)
  /-- Finds the names in a fan-out reference. -/
  | matrix (value : String)
  | configShow
  /-- Shows where configuration is looked for. -/
  | configPath
  deriving DecidableEq

structure Invocation where
  command : Command
  verbose : Bool := false
  /-- Whether documents are printed with one item per line. -/
  pretty : Bool := false
  /-- The directory of the user's configuration. -/
  configDir : Option String := none
  deriving DecidableEq

def Command.ofGiven? (scope : Scope) (g : Given) : Option Command :=
  match scope, g.operand with
  | .resolve, some file => some (.resolve file (g.value? .replacements))
  | .check, some file => some (.check file)
  | .lengths, some file => some (.lengths file (decide (.defaults ∈ g.flags)))
  | .matrix, some value => some (.matrix value)
  | .configShow, none => some .configShow
  | .configPath, none => some .configPath
  | _, _ => none

namespace Invocation

/-- The directory of the user's configuration: the innermost that is given, or else the one of the
environment.  An empty one in the environment is refused by every command that is not given another. -/
def configDir? (setting : Option String) (givens : List Given) : Except Stop (Option String) :=
  if setting = some "" ∧ givens.any (fun g => (g.value? .configDir).isNone) then .error .misused
  else .ok ((givens.findSome? fun g => g.value? .configDir).or setting)

def ofArguments (setting : Option String) (args : List String) : Except Stop Invocation := do
  let (scope, givens) ← readArguments .program {} [] args
  if givens.any (·.flawed) then .error .misused
  let configDir ← configDir? setting givens
  match Command.ofGiven? scope (givens.headD {}) with
  | none => .error .misused
  | some command =>
    return {
      command
      verbose := givens.any fun g => decide (.verbose ∈ g.flags)
      pretty := givens.any fun g => decide (.pretty ∈ g.flags)
      configDir }

end Invocation

end PipelineParams
