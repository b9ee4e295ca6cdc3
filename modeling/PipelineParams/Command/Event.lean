import PipelineParams.Config.Basic
import PipelineParams.Json.Tree
import PipelineParams.Text.Quoted

/-! # Log events

An event says what happened in which part of the program, and carries data.

* `Event.line` writes it as one line of text, `Event.toJson` as a document.
* `Event.shownAt` compares its level with the least level that is logged.
-/

namespace PipelineParams

/-- What an event carries under one name. -/
inductive Datum where
  | text (value : String)
  | count (value : Nat)
  deriving DecidableEq

structure Event where
  level : LogLevel
  /-- The part of the program that tells. -/
  target : String
  message : String
  data : List (String × Datum) := []
  deriving DecidableEq

def LogLevel.label : LogLevel → String
  | .trace => "TRACE"
  | .debug => "DEBUG"
  | .info => "INFO"
  | .warn => "WARN"
  | .error => "ERROR"

namespace Event

/-- Whether the event is logged where `threshold` is the least level. -/
def shownAt (threshold : LogLevel) (e : Event) : Bool := decide (threshold.rank ≤ e.level.rank)

/-! ## Lines -/

/-- One character of a message.  Controls that a terminal would act upon are written by their code. -/
def messageChar (c : Char) : List Char :=
  if c = '\x1b' ∨ c = '\x07' ∨ c = '\x08' ∨ c = '\x0c' ∨ c = '\x7f' then
    ['\\', 'x', Nat.digitChar (c.toNat / 16), Nat.digitChar (c.toNat % 16)]
  else if 0x80 ≤ c.toNat ∧ c.toNat ≤ 0x9f then
    ['\\', 'u', '\x7b'] ++ Nat.toDigits 16 c.toNat ++ ['\x7d']
  else [c]

def messageText (message : String) : String := String.ofList (message.toList.flatMap messageChar)

def datumText : Datum → String
  | .text value => Text.quote value
  | .count value => String.ofList (Nat.toDigits 10 value)

def line (e : Event) : String :=
  e.data.foldl (fun line d => line ++ " " ++ d.1 ++ "=" ++ datumText d.2)
    (e.level.label ++ " " ++ e.target ++ ": " ++ messageText e.message)

/-! ## Documents -/

def datumToJson : Datum → Json.Tree
  | .text value => .text value
  | .count value => .count value

def toJson (e : Event) : Json.Tree :=
  .object
    [("level", .text e.level.label),
     ("fields", .object (("message", .text e.message) ::
       e.data.map fun d => (d.1, datumToJson d.2))),
     ("target", .text e.target)]

end Event

end PipelineParams
