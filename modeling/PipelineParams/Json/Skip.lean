import PipelineParams.Json.Number
import PipelineParams.Json.Quoted
import PipelineParams.Text.Blank

/-! # Stepping over a value

`skipValue` checks the form of one value and returns the text behind it.  Nothing is kept of the
value, and the brackets that are still open are kept in a list, so documents of any depth pass.

* `Bracket` is an open bracket, `Place` a place between two tokens.
* `skipFrom` goes on from a place with some brackets open.
* `length_of_skipValue` says that a value takes at least one character.
-/

namespace PipelineParams.Json

/-- The white space that may stand between tokens. -/
def isBlank (c : Char) : Bool := c == ' ' || c == '\t' || c == '\n' || c == '\r'

/-! ## Scalars -/

def skipLetters : List Char → List Char → Except Error (List Char)
  | [], cs => .ok cs
  | _ :: _, [] => .error .endInValue
  | l :: ls, c :: cs => if c = l then skipLetters ls cs else .error .wordExpected

def skipScalar : List Char → Except Error (List Char)
  | [] => .error .endInValue
  | c :: cs =>
    if c = 'n' then skipLetters ['u', 'l', 'l'] cs
    else if c = 't' then skipLetters ['r', 'u', 'e'] cs
    else if c = 'f' then skipLetters ['a', 'l', 's', 'e'] cs
    else if c = '"' then skipString cs
    else if c = '-' ∨ c.isDigit then skipNumber (c :: cs)
    else .error .valueExpected

theorem length_of_skipLetters {ls cs r : List Char} (h : skipLetters ls cs = .ok r) :
    r.length ≤ cs.length := by
  induction ls generalizing cs with
  | nil => cases h; exact Nat.le_refl _
  | cons l ls ih =>
    cases cs with
    | nil => cases h
    | cons c cs =>
      rw [skipLetters] at h
      split at h
      · exact Nat.le_succ_of_le (ih h)
      · cases h

theorem length_of_skipScalar {cs r : List Char} (h : skipScalar cs = .ok r) :
    r.length < cs.length := by
  cases cs with
  | nil => cases h
  | cons c cs =>
    rw [skipScalar] at h
    repeat' split at h
    · exact Nat.lt_succ_of_le (length_of_skipLetters h)
    · exact Nat.lt_succ_of_le (length_of_skipLetters h)
    · exact Nat.lt_succ_of_le (length_of_skipLetters h)
    · exact Nat.lt_succ_of_lt (length_of_skipString h)
    · exact length_of_skipNumber h
    · cases h

/-! ## Keys -/

def skipKey (cs : List Char) : Except Error (List Char) :=
  match dropBlank isBlank cs with
  | [] => .error .endInObject
  | c :: rest =>
    if c = '"' then
      match skipString rest with
      | .error e => .error e
      | .ok behind =>
        match dropBlank isBlank behind with
        | [] => .error .endInObject
        | d :: value => if d = ':' then .ok value else .error .colonExpected
    else .error .keyExpected

theorem length_of_skipKey {cs r : List Char} (h : skipKey cs = .ok r) : r.length < cs.length := by
  unfold skipKey at h
  split at h
  · cases h
  next c rest head =>
    have first := length_of_dropBlank head
    split at h
    · split at h
      · cases h
      next behind skipped =>
        have second := length_of_skipString skipped
        split at h
        · cases h
        next d value colon =>
          have third := length_of_dropBlank colon
          split at h
          · cases h; omega
          · cases h
    · cases h

/-! ## Values -/

inductive Bracket where
  | list
  | object
  deriving DecidableEq

def Bracket.closer : Bracket → Char
  | .list => ']'
  | .object => '\x7d'

def Bracket.endInside : Bracket → Error
  | .list => .endInList
  | .object => .endInObject

def Bracket.commaExpected : Bracket → Error
  | .list => .listCommaExpected
  | .object => .objectCommaExpected

/-- Steps over what comes before the value of a member: nothing in a list, the key in an object. -/
def Bracket.skipLabel : Bracket → List Char → Except Error (List Char)
  | .list, cs => .ok cs
  | .object, cs => skipKey cs

theorem Bracket.length_of_skipLabel {b : Bracket} {cs r : List Char}
    (h : b.skipLabel cs = .ok r) : r.length ≤ cs.length := by
  cases b with
  | list => cases h; exact Nat.le_refl _
  | object => exact Nat.le_of_lt (length_of_skipKey h)

inductive Place where
  | value
  | opened (b : Bracket)
  | ended
  deriving DecidableEq

/-- How many more steps a place can take on the same text. -/
def Place.rank : Place → Nat
  | .value => 0
  | .opened _ => 1
  | .ended => 0

/-- Goes on from a place until the outermost value has ended.  `stack` holds the brackets that are
open around the place, the innermost one first. -/
def skipFrom (stack : List Bracket) (place : Place) (cs : List Char) : Except Error (List Char) :=
  match place with
  | .value =>
    match _ : dropBlank isBlank cs with
    | [] => .error .endInValue
    | c :: rest =>
      -- a bracket is remembered with its first member, so an empty one never gets on the stack
      if c = '[' then skipFrom stack (.opened .list) rest
      else if c = '\x7b' then skipFrom stack (.opened .object) rest
      else
        match _ : skipScalar (c :: rest) with
        | .error e => .error e
        | .ok behind => skipFrom stack .ended behind
  | .opened b =>
    match _ : dropBlank isBlank cs with
    | [] => .error b.endInside
    | c :: rest =>
      if c = b.closer then skipFrom stack .ended rest
      else
        match _ : b.skipLabel (c :: rest) with
        | .error e => .error e
        | .ok behind => skipFrom (b :: stack) .value behind
  | .ended =>
    match stack with
    | [] => .ok cs
    | b :: below =>
      match _ : dropBlank isBlank cs with
      | [] => .error b.endInside
      | c :: rest =>
        if c = ',' then
          match _ : b.skipLabel rest with
          | .error e => .error e
          | .ok behind => skipFrom (b :: below) .value behind
        else if c = b.closer then skipFrom below .ended rest
        else .error b.commaExpected
termination_by (cs.length, place.rank)
decreasing_by
  all_goals have head := length_of_dropBlank ‹_›
  · exact Prod.Lex.left _ _ head
  · exact Prod.Lex.left _ _ head
  · have := length_of_skipScalar ‹_›
    simp only [List.length_cons] at this
    exact Prod.Lex.left _ _ (by omega)
  · exact Prod.Lex.left _ _ head
  · have := Bracket.length_of_skipLabel ‹_›
    simp only [List.length_cons] at this
    rcases Nat.lt_or_eq_of_le (Nat.le_trans this head) with lt | same
    · exact Prod.Lex.left _ _ lt
    · rw [same]
      exact Prod.Lex.right _ Nat.zero_lt_one
  · have := Bracket.length_of_skipLabel ‹_›
    exact Prod.Lex.left _ _ (by omega)
  · exact Prod.Lex.left _ _ head

def skipValue (cs : List Char) : Except Error (List Char) := skipFrom [] .value cs

/-- How many characters are taken for sure on the way from a place. -/
def Place.due : Place → Nat
  | .value => 1
  | .opened _ => 0
  | .ended => 0

theorem length_of_skipFrom {stack : List Bracket} {place : Place} {cs r : List Char}
    (h : skipFrom stack place cs = .ok r) : r.length + place.due ≤ cs.length := by
  fun_induction skipFrom stack place cs with
  | case1 => cases h
  | case2 stack cs rest head ih =>
    have := length_of_dropBlank head
    have := ih h
    simp only [Place.due] at *
    omega
  | case3 stack cs rest head _ ih =>
    have := length_of_dropBlank head
    have := ih h
    simp only [Place.due] at *
    omega
  | case4 => cases h
  | case5 stack cs c rest head _ _ behind skipped ih =>
    have := length_of_dropBlank head
    have := length_of_skipScalar skipped
    have := ih h
    simp only [Place.due, List.length_cons] at *
    omega
  | case6 => cases h
  | case7 stack cs b rest head ih =>
    have := length_of_dropBlank head
    have := ih h
    simp only [Place.due] at *
    omega
  | case8 => cases h
  | case9 stack cs b c rest head _ behind skipped ih =>
    have := length_of_dropBlank head
    have := Bracket.length_of_skipLabel skipped
    have := ih h
    simp only [Place.due, List.length_cons] at *
    omega
  | case10 => cases h; exact Nat.le_refl _
  | case11 => cases h
  | case12 => cases h
  | case13 cs b below rest behind skipped head ih =>
    have := length_of_dropBlank head
    have := Bracket.length_of_skipLabel skipped
    have := ih h
    simp only [Place.due] at *
    omega
  | case14 cs b below rest head _ ih =>
    have := length_of_dropBlank head
    have := ih h
    simp only [Place.due] at *
    omega
  | case15 => cases h

theorem length_of_skipValue {cs r : List Char} (h : skipValue cs = .ok r) :
    r.length < cs.length :=
  length_of_skipFrom h

end PipelineParams.Json
