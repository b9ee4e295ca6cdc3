import PipelineParams.Context.Basic
import PipelineParams.Reference.Basic
import PipelineParams.Value

/-! # Substitution

Resolving a value puts what a context knows in the place of references and leaves every other
reference as it is, so resolving never fails.

* `substitute` replaces `$(key)` inside a text by a text.
* `expandItem` replaces an item that is `$(key)` or `$(key[*])` by the items of an array.
* `ParamValue.resolve` also promotes: a text that is one reference to an array or to an object becomes
  that array or object.
* `ParamValue.notes` tells what was promoted and spliced.
-/

namespace PipelineParams

/-! ## Texts -/

def longestKey (strings : SortedMap String) : Nat :=
  strings.keys.foldl (fun n key => max n key.utf8ByteSize) 0

/-- The value of the shortest key that stands here before a closing parenthesis, and the text behind
it.  `read` holds the characters read so far, the last one first, and `left` the number of bytes that
the longest key still allows. -/
def closeKey (strings : SortedMap String) (read : List Char) :
    Nat → List Char → Option (String × List Char)
  | _, [] => none
  | left, c :: cs =>
    -- a parenthesis may be part of a key, so one that closes no key is read on
    match if c = ')' then strings.get? (String.ofList read.reverse) else none with
    | some value => some (value, cs)
    | none =>
      if c.utf8Size ≤ left then closeKey strings (c :: read) (left - c.utf8Size) cs else none

theorem length_of_closeKey {strings : SortedMap String} {read : List Char} {left : Nat}
    {cs rest : List Char} {value : String} (h : closeKey strings read left cs = some (value, rest)) :
    rest.length < cs.length := by
  induction cs generalizing read left with
  | nil => cases h
  | cons c cs ih =>
    unfold closeKey at h
    split at h
    · cases h; exact Nat.lt_succ_self _
    · split at h
      · exact Nat.lt_succ_of_lt (ih h)
      · cases h

/-- Replaces references from here on; `done` holds the characters written so far, the last one first.
A replaced text is not looked at again. -/
def substituteFrom (strings : SortedMap String) (longest : Nat) (done cs : List Char) : List Char :=
  match cs with
  | '$' :: '(' :: body =>
    match _ : closeKey strings [] longest body with
    | some (value, rest) => substituteFrom strings longest (value.toList.reverse ++ done) rest
    -- only the opener is copied: another one may follow before the text that would have closed it
    | none => substituteFrom strings longest ('(' :: '$' :: done) body
  | c :: cs => substituteFrom strings longest (c :: done) cs
  | [] => done.reverse
termination_by cs.length
decreasing_by
  · have := length_of_closeKey ‹_›
    simp only [List.length_cons]
    omega
  · simp only [List.length_cons]
    omega
  · exact Nat.lt_succ_self _

/-- Replaces every `$(key)` in a text by the value of the key, from left to right.  Without a key or
without an opener there is nothing to replace. -/
def substitute (strings : SortedMap String) (text : String) : String :=
  if strings.isEmpty || !Text.contains ['$', '('] text.toList then text
  else String.ofList (substituteFrom strings (longestKey strings) [] text.toList)

/-! ## Items -/

/-- The array that an item refers to as `$(key)` or `$(key[*])`. -/
def itemArray? (arrays : SortedMap (List String)) (item : String) : Option (List String) :=
  match MatrixContext.delimited? item.toList with
  | none => none
  | some inner =>
    -- a key that itself ends in `[*]` comes first
    match arrays.get? (String.ofList inner) with
    | some items => some items
    | none =>
      match Text.stripEnd? ['[', '*', ']'] inner with
      | none => none
      | some key => arrays.get? (String.ofList key)

def expandItem (strings : SortedMap String) (arrays : SortedMap (List String)) (item : String) :
    List String :=
  match itemArray? arrays item with
  | some items => items
  | none => [substitute strings item]

/-! ## Values -/

/-- What a reference stands for in a map, by its key or else by its whole expression. -/
def Reference.lookup? {α : Type} (r : Reference) (m : SortedMap α) : Option α :=
  match m.get? r.key with
  | some a => some a
  | none => m.get? r.expression

/-- What a text is promoted to, if it is one reference to an array or else to an object. -/
def promote? (c : ReplacementContext) (text : String) : Option ParamValue :=
  match wholeReference text with
  | none => none
  | some r =>
    -- a name that is known as both is an array
    match r.lookup? c.arrays with
    | some items => some (.array items)
    | none => (r.lookup? c.objects).map .object

namespace ParamValue

def resolve (c : ReplacementContext) : ParamValue → ParamValue
  | .string text => (promote? c text).getD (.string (substitute c.strings text))
  -- items and fields are never promoted, so a value has texts at one depth only
  | .array items => .array (items.flatMap (expandItem c.strings c.arrays))
  | .object fields => .object (fields.map (substitute c.strings))

end ParamValue

def Param.resolve (c : ReplacementContext) (p : Param) : Param := ⟨p.name, p.value.resolve c⟩

def resolveAll (c : ReplacementContext) (ps : List Param) : List Param := ps.map (Param.resolve c)

/-! ## What happened -/

inductive ResolutionNote where
  /-- A text became an array or an object. -/
  | promoted (type : ParamType) (reference : String)
  /-- An item was replaced by the items of an array. -/
  | spliced (item : String) (length : Nat)
  deriving DecidableEq

namespace ParamValue

def notes (c : ReplacementContext) : ParamValue → List ResolutionNote
  | .string text =>
    match promote? c text with
    | some v => [.promoted v.type text]
    | none => []
  | .array items =>
    items.filterMap fun item => (itemArray? c.arrays item).map fun xs => .spliced item xs.length
  | .object _ => []

end ParamValue

end PipelineParams
