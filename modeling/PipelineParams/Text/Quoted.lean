import PipelineParams.Text.Shapeless

/-! # Quoted text in messages

Messages and log lines show a text between double quotes.  `quote` writes it so that every character
can be seen: the quote, the backslash and the four common controls have short escapes, and a
character without a shape of its own is written by its code point.
-/

namespace PipelineParams.Text

def quotedChar (c : Char) : List Char :=
  if c = '"' then ['\\', '"']
  else if c = '\\' then ['\\', '\\']
  else if c = '\n' then ['\\', 'n']
  else if c = '\r' then ['\\', 'r']
  else if c = '\t' then ['\\', 't']
  else if c = '\x00' then ['\\', '0']
  else if isShapeless c then ['\\', 'u', '\x7b'] ++ Nat.toDigits 16 c.toNat ++ ['\x7d']
  else [c]

def quote (s : String) : String :=
  String.ofList ('"' :: s.toList.flatMap quotedChar ++ ['"'])

end PipelineParams.Text
