import PipelineParams.Text.Blank
import PipelineParams.Text.Reader
import PipelineParams.Toml.Datetime

/-! # Configuration values

The values that a configuration file can hold.  A float keeps its spelling, since no setting is a
float.  `Malformed` is the one fault of a text that is no configuration file.
-/

namespace PipelineParams.Toml

inductive Value where
  | string (text : String)
  | integer (value : Int)
  | float (spelling : String)
  | boolean (value : Bool)
  | datetime (value : Datetime)
  | array (items : List Value)
  | table (entries : List (String × Value))

inductive Malformed where
  | malformed
  deriving DecidableEq

abbrev Reader (α : Type) := PipelineParams.Reader Malformed α

/-! ## Blanks -/

/-- The two characters that may stand between the parts of a line. -/
def isBlank (c : Char) : Bool := c == ' ' || c == '\t'

def lineBreak? : List Char → Option (List Char)
  | '\n' :: cs => some cs
  | '\r' :: '\n' :: cs => some cs
  | _ => none

theorem length_of_lineBreak? {cs rest : List Char} (h : lineBreak? cs = some rest) :
    rest.length < cs.length := by
  unfold lineBreak? at h
  split at h
  · cases h; exact Nat.lt_succ_self _
  · cases h
    simp only [List.length_cons]
    omega
  · cases h

/-- The characters that may stand in comments and in text: every one but the controls, with the tab. -/
def isPrintable (c : Char) : Bool := c == '\t' || (0x20 ≤ c.val && c.val != 0x7F)

end PipelineParams.Toml
