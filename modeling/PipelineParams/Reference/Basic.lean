import PipelineParams.Reference.Matrix

/-! # References

A reference is an expression between `$(` and `)`.  The expression is a key into the replacement maps;
its form says what it points at, but a subscript or a field is part of the key and is not evaluated.

* `Reference` holds what a text has; the `kind` and the `key` of a reference follow from its expression.
* `references` lists the references of a text from left to right.
* `wholeReference` recognises a text that is one reference and nothing else.
* `starName` takes the delimiters off a reference to all items of an array.
-/

namespace PipelineParams

inductive ReferenceKind where
  | scalar
  /-- All items of an array or all fields of an object, `name[*]`. -/
  | star
  | index (position : Nat)
  /-- One field of an object, `name.field`. -/
  | field
  | matrix
  deriving DecidableEq

/-- A reference as a text has it: `raw` is the part of the text with the delimiters, `expression` the
part between them. -/
structure Reference where
  raw : String
  expression : String
  deriving DecidableEq

/-! ## Classification -/

/-- The last subscript of an expression, if it is a number below `2 ^ 64`. -/
def trailingIndex? (cs : List Char) : Option Nat :=
  match cs.reverse with
  | [] => none
  | c :: body =>
    if c = ']' ∧ '[' ∈ body then
      let digits := (body.takeWhile (· ≠ '[')).reverse
      -- the bound is on the value, so leading zeros are allowed
      let value := digits.foldl (fun n d => n * 10 + (d.toNat - '0'.toNat)) 0
      if digits ≠ [] ∧ digits.all Char.isDigit ∧ value < Nat.pow 2 64 then some value else none
    else none

def classify (cs : List Char) : ReferenceKind :=
  if (MatrixContext.ofChars? cs).isSome then .matrix
  else if (Text.stripEnd? ['[', '*', ']'] cs).isSome then .star
  else
    match trailingIndex? cs with
    | some n => .index n
    | none =>
      -- the dot of the scope `params.` does not make a field
      if '.' ∈ (Text.stripStart? "params.".toList cs).getD cs then .field else .scalar

namespace Reference

def kind (r : Reference) : ReferenceKind := classify r.expression.toList

/-- The key of a reference in the maps of arrays and objects: the expression without `[*]` at its end. -/
def key (r : Reference) : String :=
  match Text.stripEnd? ['[', '*', ']'] r.expression.toList with
  | some name => String.ofList name
  | none => r.expression

end Reference

/-! ## References in a text -/

/-- One round of the search for references: what is listed, and where the next round starts.  There is no
next round if there is no opener from the cursor on, or if nothing closes it. -/
def scanStep (text : List Char) (cursor : Nat) : Option (Option Reference × Nat) :=
  match Text.find? ['$', '('] (text.drop cursor) with
  | none => none
  | some found =>
    let start := cursor + found
    let body := start + 2
    match Text.find? [')'] (text.drop body) with
    | none => none
    | some close =>
      let stop := body + close
      let expression := text.extract body stop
      match Text.findLast? ['$', '('] expression with
      -- the parenthesis closes the last opener before it, so the search goes back to that one
      | some inner => some (none, body + inner)
      | none =>
        if expression = [] then some (none, stop + 1)
        else
          let raw := text.extract start (stop + 1)
          some (some ⟨String.ofList raw, String.ofList expression⟩, stop + 1)

/-- The cursor moves, and it stays in the text. -/
theorem scanStep_advances {text : List Char} {cursor next : Nat} {listed : Option Reference}
    (round : scanStep text cursor = some (listed, next)) : cursor < next ∧ next ≤ text.length := by
  rw [scanStep] at round
  split at round
  · cases round
  next found opener =>
    have opens := (Text.prefix_of_find? opener).length_le
    dsimp only at round
    split at round
    · cases round
    next close closing =>
      have closes := (Text.prefix_of_find? closing).length_le
      simp only [List.length_cons, List.length_nil, List.length_drop] at opens closes
      split at round
      next inner nested =>
        have inside := (Text.prefix_of_findLast? nested).length_le
        simp only [List.extract, List.length_cons, List.length_nil, List.length_take,
          List.length_drop] at inside
        cases round
        omega
      next =>
        split at round
        all_goals
          cases round
          omega

def referencesFrom (text : List Char) (cursor : Nat) : List Reference :=
  match _ : scanStep text cursor with
  | none => []
  | some (listed, next) => listed.toList ++ referencesFrom text next
termination_by text.length - cursor
decreasing_by
  have := scanStep_advances ‹_›
  omega

def references (text : String) : List Reference := referencesFrom text.toList 0

/-! ## Whole references -/

def isNameChar (c : Char) : Bool := c.isAlphanum || c = '_' || c = '.' || c = '-'

def isSubscript : List Char → Bool
  | [] => false
  | c :: cs =>
    c = '[' &&
      match Text.stripEnd? [']'] cs with
      | none => false
      | some inner => inner = ['*'] || (inner ≠ [] && inner.all Char.isDigit)

def isNameExpression (cs : List Char) : Bool :=
  let name := cs.takeWhile (· ≠ '[')
  let subscript := cs.dropWhile (· ≠ '[')
  name ≠ [] && name.all isNameChar && (subscript = [] || isSubscript subscript)

/-- The reference that a text consists of, if its expression is a name with an optional subscript. -/
def wholeReference (text : String) : Option Reference :=
  match MatrixContext.delimited? text.toList with
  | none => none
  | some e => if isNameExpression e then some ⟨text, String.ofList e⟩ else none

/-- The name in a delimited reference to all items of an array, without the scope `params.`.  Any other
text comes back unchanged. -/
def starName (text : String) : String :=
  match (Text.stripStart? ['$', '('] text.toList).bind (Text.stripEnd? ['[', '*', ']', ')']) with
  | none => text
  | some name => String.ofList ((Text.stripStart? "params.".toList name).getD name)

end PipelineParams
