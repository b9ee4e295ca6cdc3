import PipelineParams.Toml.Key

/-! # Writing configuration files

A file is written as blocks, each with a header and one line per setting.

* `writeText` writes text in the plainest of its four forms that can hold it, `writeKey` does so for
  keys.
* `Setting.write` writes a value: arrays of more than one item have a line for each.
* `writeBlocks` writes a file, with an empty line before every header but the first.
-/

namespace PipelineParams.Toml

/-! ## Text -/

def isControl (c : Char) : Bool := (c.val < 0x20 && c != '\t') || c.val == 0x7F

/-- Whether a text has three times the same character in a row. -/
def hasRun (q : Char) : List Char → Bool
  | a :: b :: c :: cs => (a == q && b == q && c == q) || hasRun q (b :: c :: cs)
  | _ => false

inductive TextForm where
  | basic
  | literal
  | basicLines
  | literalLines
  deriving DecidableEq

/-- The form in which a text is written: the first that needs no escapes, else one with escapes. -/
def textForm (cs : List Char) : TextForm :=
  let lines := cs.contains '\n'
  let controls := cs.any fun c => isControl c && c != '\n'
  if !controls && !lines && !cs.contains '\\' && !cs.contains '"' then .basic
  else if !controls && !lines && !cs.contains '\'' then .literal
  else if !controls && !cs.contains '\\' && !hasRun '"' cs then .basicLines
  else if !controls && !hasRun '\'' cs then .literalLines
  else if lines then .basicLines
  else .basic

def hexDigit (n : Nat) : Char := (Nat.digitChar (n % 16)).toUpper

def basicChar (c : Char) : List Char :=
  if c = '\x08' then ['\\', 'b']
  else if c = '\t' then ['\\', 't']
  else if c = '\n' then ['\\', 'n']
  else if c = '\x0c' then ['\\', 'f']
  else if c = '\r' then ['\\', 'r']
  else if c = '"' then ['\\', '"']
  else if c = '\\' then ['\\', '\\']
  else if isControl c then ['\\', 'u', '0', '0', hexDigit (c.toNat / 16), hexDigit c.toNat]
  else [c]

/-- Text between threefold double quotes, where line breaks stand as they are and of the quotes in a run
every third one is escaped; `run` counts the quotes since the last other character or escape. -/
def basicLinesChars (run : Nat) : List Char → List Char
  | [] => []
  | c :: cs =>
    if c = '"' then
      if run = 2 then '\\' :: '"' :: basicLinesChars 0 cs else '"' :: basicLinesChars (run + 1) cs
    else if c = '\n' then '\n' :: basicLinesChars 0 cs
    else basicChar c ++ basicLinesChars 0 cs

/-- Text in a form.  In the forms of several lines a line break behind the opening quotes is no part of
the text; it is written where the text has line breaks. -/
def writeForm (form : TextForm) (cs : List Char) : List Char :=
  let lineBreak := if cs.contains '\n' then ['\n'] else []
  match form with
  | .basic => '"' :: cs.flatMap basicChar ++ ['"']
  | .literal => '\'' :: cs ++ ['\'']
  | .basicLines => ['"', '"', '"'] ++ lineBreak ++ basicLinesChars 0 cs ++ ['"', '"', '"']
  | .literalLines => ['\'', '\'', '\''] ++ lineBreak ++ cs ++ ['\'', '\'', '\'']

def writeText (s : String) : List Char := writeForm (textForm s.toList) s.toList

/-! ## Keys -/

def writeKey (key : String) : List Char :=
  let cs := key.toList
  if cs ≠ [] ∧ cs.all isBareChar then cs
  else if cs.any isControl then writeForm .basic cs
  else if !cs.contains '\\' && !cs.contains '"' then writeForm .basic cs
  else if !cs.contains '\'' then writeForm .literal cs
  else writeForm .basic cs

/-! ## Blocks -/

inductive Setting where
  | text (value : String)
  | flag (value : Bool)
  | texts (items : List String)
  deriving DecidableEq

def Setting.write : Setting → List Char
  | .text s => writeText s
  | .flag true => "true".toList
  | .flag false => "false".toList
  | .texts [] => ['[', ']']
  | .texts [s] => '[' :: writeText s ++ [']']
  | .texts items =>
    '[' :: '\n' :: items.flatMap (fun s => [' ', ' ', ' ', ' '] ++ writeText s ++ [',', '\n']) ++ [']']

structure Block where
  /-- The path of the table, which is not empty. -/
  path : List String
  settings : List (String × Setting)
  deriving DecidableEq

def writePath : List String → List Char
  | [] => []
  | [key] => writeKey key
  | key :: next :: path => writeKey key ++ '.' :: writePath (next :: path)

def writeSetting (s : String × Setting) : List Char :=
  writeKey s.1 ++ [' ', '=', ' '] ++ s.2.write ++ ['\n']

def Block.write (b : Block) : List Char :=
  '[' :: writePath b.path ++ [']', '\n'] ++ b.settings.flatMap writeSetting

def writeBlocks : List Block → List Char
  | [] => []
  | [b] => b.write
  | b :: next :: rest => b.write ++ '\n' :: writeBlocks (next :: rest)

end PipelineParams.Toml
