import PipelineParams.Disk
import PipelineParams.Value.Codec

/-! # Failures of a command

A command that fails tells what it could not do and, below, what caused that.

* `Failure.text` is what it tells.
* `readInput` and `decodeInput` read the files that a command works on.
-/

namespace PipelineParams

structure Failure where
  message : String
  causes : List String := []
  deriving DecidableEq

namespace Failure

def indented (indent : List Char) (cs : List Char) : List Char :=
  cs.flatMap fun c => if c = '\n' then '\n' :: indent else [c]

def numbered : Nat → List String → List Char
  | _, [] => []
  | n, cause :: causes =>
    '\n' :: List.replicate 4 ' ' ++ Nat.toDigits 10 n ++ [':', ' '] ++
      indented (List.replicate 7 ' ') cause.toList ++ numbered (n + 1) causes

/-- The characters of all causes.  A cause that is alone has no number. -/
def causesText : List String → List Char
  | [] => []
  | [cause] =>
    "\n\nCaused by:\n    ".toList ++ indented (List.replicate 4 ' ') cause.toList
  | causes => "\n\nCaused by:".toList ++ numbered 0 causes

def text (f : Failure) : String := "Error: " ++ f.message ++ String.ofList (causesText f.causes)

end Failure

def readInput (disk : Disk) (path : String) : Except Failure String :=
  (readFile disk path).mapError fun fault => ⟨"failed to read " ++ path, [fault.message]⟩

/-- What a file that a command works on holds; `what` names it. -/
def decodeInput {α : Type} (disk : Disk) (decode : String → Except PayloadError α)
    (what path : String) : Except Failure α :=
  match readInput disk path with
  | .error e => .error e
  | .ok text =>
    (decode text).mapError fun e =>
      ⟨"failed to parse " ++ what ++ " in " ++ path, [e.message, e.cause.message]⟩

end PipelineParams
