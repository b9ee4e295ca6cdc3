/-! # White space

`dropBlank` takes blanks off the front of a text, whatever counts as blank.  In plain text these are the
twenty-five characters that have the property `White_Space`, since text that a step wrote may be padded
with any of them.  Formats with a narrower notion of white space define their own.
-/

namespace PipelineParams

/-- The text from its first character that is not blank. -/
def dropBlank (blank : Char → Bool) (cs : List Char) : List Char := cs.dropWhile blank

section

variable {blank : Char → Bool} {cs rest : List Char} {c : Char}

theorem length_dropBlank_le (blank : Char → Bool) (cs : List Char) :
    (dropBlank blank cs).length ≤ cs.length :=
  (List.dropWhile_suffix blank).length_le

theorem length_of_dropBlank (head : dropBlank blank cs = c :: rest) : rest.length < cs.length := by
  have le := length_dropBlank_le blank cs
  rw [head] at le
  exact le

theorem dropBlank_cons (solid : blank c = false) (cs : List Char) :
    dropBlank blank (c :: cs) = c :: cs :=
  List.dropWhile_cons_of_neg (by simp [solid])

end

namespace Text

def isBlank (c : Char) : Bool :=
  (0x09 ≤ c.val && c.val ≤ 0x0D) || c.val == 0x20 || c.val == 0x85 || c.val == 0xA0 ||
  c.val == 0x1680 || (0x2000 ≤ c.val && c.val ≤ 0x200A) || c.val == 0x2028 || c.val == 0x2029 ||
  c.val == 0x202F || c.val == 0x205F || c.val == 0x3000

def trimStart (cs : List Char) : List Char := dropBlank isBlank cs

end Text

end PipelineParams
