import PipelineParams.SortedMap.Basic

/-! # Writing documents

A `Tree` is a document to be written: texts, counts, lists, and objects whose fields keep their order.

* `Tree.compact` writes without any blanks.
* `Tree.pretty` writes one item per line, two spaces of indent per level.
* Both quote a text in the same way: quotes, backslashes and controls are escaped and every other
  character stands for itself.
-/

namespace PipelineParams.Json

inductive Tree where
  | text (value : String)
  | count (value : Nat)
  | list (items : List Tree)
  | object (fields : List (String × Tree))

namespace Tree

def texts (values : List String) : Tree := .list (values.map .text)

def ofMap {α : Type} (f : α → Tree) (m : SortedMap α) : Tree :=
  .object (m.entries.map fun e => (e.1, f e.2))

/-! ## Quoting -/

def hexDigit (n : Nat) : Char := Nat.digitChar (n % 16)

def quotedChar (c : Char) : List Char :=
  if c = '"' then ['\\', '"']
  else if c = '\\' then ['\\', '\\']
  else if c = '\x08' then ['\\', 'b']
  else if c = '\x0c' then ['\\', 'f']
  else if c = '\n' then ['\\', 'n']
  else if c = '\r' then ['\\', 'r']
  else if c = '\t' then ['\\', 't']
  else if c.val < 0x20 then ['\\', 'u', '0', '0', hexDigit (c.toNat / 16), hexDigit c.toNat]
  else [c]

def quoted (s : String) : List Char := '"' :: s.toList.flatMap quotedChar ++ ['"']

/-! ## Compact form -/

mutual

def compactChars : Tree → List Char
  | .text s => quoted s
  | .count n => Nat.toDigits 10 n
  | .list [] => ['[', ']']
  | .list (t :: ts) => '[' :: compactChars t ++ compactItems ts
  | .object [] => ['\x7b', '\x7d']
  | .object ((k, t) :: fs) => '\x7b' :: quoted k ++ ':' :: compactChars t ++ compactFields fs

def compactItems : List Tree → List Char
  | [] => [']']
  | t :: ts => ',' :: compactChars t ++ compactItems ts

def compactFields : List (String × Tree) → List Char
  | [] => ['\x7d']
  | (k, t) :: fs => ',' :: quoted k ++ ':' :: compactChars t ++ compactFields fs

end

def compact (t : Tree) : String := String.ofList (compactChars t)

/-! ## Pretty form -/

def newline (level : Nat) : List Char := '\n' :: List.replicate (2 * level) ' '

mutual

/-- The characters of a document at a level, one item per line. -/
def prettyChars (level : Nat) : Tree → List Char
  | .text s => quoted s
  | .count n => Nat.toDigits 10 n
  | .list [] => ['[', ']']
  | .list (t :: ts) =>
    '[' :: newline (level + 1) ++ prettyChars (level + 1) t ++ prettyItems level ts
  | .object [] => ['\x7b', '\x7d']
  | .object ((k, t) :: fs) =>
    '\x7b' :: newline (level + 1) ++ quoted k ++ ':' :: ' ' :: prettyChars (level + 1) t ++
      prettyFields level fs

def prettyItems (level : Nat) : List Tree → List Char
  | [] => newline level ++ [']']
  | t :: ts => ',' :: newline (level + 1) ++ prettyChars (level + 1) t ++ prettyItems level ts

def prettyFields (level : Nat) : List (String × Tree) → List Char
  | [] => newline level ++ ['\x7d']
  | (k, t) :: fs =>
    ',' :: newline (level + 1) ++ quoted k ++ ':' :: ' ' :: prettyChars (level + 1) t ++
      prettyFields level fs

end

def pretty (t : Tree) : String := String.ofList (prettyChars 0 t)

end Tree

end PipelineParams.Json
