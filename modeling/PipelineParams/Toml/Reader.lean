import PipelineParams.Toml.Key
import PipelineParams.Toml.Scalar
import PipelineParams.Toml.Table

/-! # Reading values of configuration files

A value is a single value, an array or an inline table.  Arrays may span lines, hold comments and end
with a comma; inline tables may not.

* `dropPadding` drops blanks, line breaks and comments.
* `valueWithin` reads values with a limited number of brackets inside each other, `value` those with
  fewer than eighty.
-/

namespace PipelineParams.Toml

/-! ## Padding inside arrays -/

/-- The text behind the printable characters at its front. -/
def dropComment (cs : List Char) : List Char := cs.dropWhile isPrintable

theorem length_dropComment_le (cs : List Char) : (dropComment cs).length ≤ cs.length :=
  (List.dropWhile_suffix isPrintable).length_le

/-- The text behind blanks, line breaks and comments; each comment ends at a line break. -/
def dropPadding (cs : List Char) : List Char :=
  match cs with
  | [] => []
  | c :: rest =>
    if isBlank c then dropPadding rest
    else if c = '#' then
      -- a comment that ends the text leaves the array open, so it is left standing
      match _ : lineBreak? (dropComment rest) with
      | some next => dropPadding next
      | none => c :: rest
    else
      match _ : lineBreak? (c :: rest) with
      | some next => dropPadding next
      | none => c :: rest
termination_by cs.length
decreasing_by
  · exact Nat.lt_succ_self _
  · have := length_of_lineBreak? ‹_›
    have := length_dropComment_le rest
    simp only [List.length_cons]
    omega
  · exact length_of_lineBreak? ‹_›

theorem length_dropPadding_le (cs : List Char) : (dropPadding cs).length ≤ cs.length := by
  fun_induction dropPadding cs with
  | case1 => exact Nat.le_refl _
  | case2 c rest _ ih => exact Nat.le_succ_of_le ih
  | case3 rest next broken _ ih =>
    have := length_of_lineBreak? broken
    have := length_dropComment_le rest
    simp only [List.length_cons]
    omega
  | case4 => exact Nat.le_refl _
  | case5 c rest _ _ next broken ih =>
    have := length_of_lineBreak? broken
    omega
  | case6 => exact Nat.le_refl _

theorem length_of_dropPadding {cs : List Char} {c : Char} {rest : List Char}
    (h : dropPadding cs = c :: rest) : rest.length < cs.length := by
  have le := length_dropPadding_le cs
  rw [h] at le
  exact le

/-! ## Arrays -/

def readItems (item : Reader Value) (done : List Value) (cs : List Char) :
    Except Malformed (List Value × List Char) :=
  match _ : dropPadding cs with
  | [] => .error .malformed
  | c :: rest =>
    if c = ']' then .ok (done.reverse, rest)
    else
      match _ : item.run (c :: rest) with
      | .error e => .error e
      | .ok (v, behind) =>
        match _ : dropPadding behind with
        | [] => .error .malformed
        | d :: next =>
          if d = ']' then .ok ((v :: done).reverse, next)
          else if d = ',' then readItems item (v :: done) next
          else .error .malformed
termination_by cs.length
decreasing_by
  have := length_of_dropPadding ‹dropPadding cs = _›
  have := item.shorter ‹_›
  have := length_of_dropPadding ‹dropPadding behind = _›
  simp only [List.length_cons] at *
  omega

theorem length_of_readItems {item : Reader Value} {done items : List Value} {cs r : List Char}
    (h : readItems item done cs = .ok (items, r)) : r.length < cs.length := by
  fun_induction readItems item done cs with
  | case2 done cs rest head => cases h; exact length_of_dropPadding head
  | case5 done cs c rest head _ v behind read next sep =>
    cases h
    have := length_of_dropPadding head
    have := item.shorter read
    have := length_of_dropPadding sep
    simp only [List.length_cons] at *
    omega
  | case6 done cs c rest head _ v behind read next sep _ ih =>
    have := length_of_dropPadding head
    have := item.shorter read
    have := length_of_dropPadding sep
    have := ih h
    simp only [List.length_cons] at *
    omega
  | _ => cases h

/-! ## Inline tables -/

/-- Reads a path of keys, an equals sign and a value, with the blanks behind it. -/
def readAssignment (item : Reader Value) (cs : List Char) :
    Except Malformed ((List String × Value) × List Char) :=
  match path.run cs with
  | .error e => .error e
  | .ok (keys, behind) =>
    match behind with
    | [] => .error .malformed
    | c :: rest =>
      if c = '=' then
        match item.run (dropBlank isBlank rest) with
        | .error e => .error e
        | .ok (v, next) => .ok ((keys, v), dropBlank isBlank next)
      else .error .malformed

theorem length_of_readAssignment {item : Reader Value} {cs : List Char} {a : List String × Value}
    {r : List Char} (h : readAssignment item cs = .ok (a, r)) : r.length < cs.length := by
  unfold readAssignment at h
  split at h
  · cases h
  next keys =>
    have := path.shorter keys
    split at h
    · cases h
    next c rest =>
      split at h
      · split at h
        · cases h
        next v next read =>
          cases h
          have := item.shorter read
          have := length_dropBlank_le isBlank next
          have := length_dropBlank_le isBlank rest
          simp only [List.length_cons] at *
          omega
      · cases h

def readAssignments (item : Reader Value) (done : List (List String × Value)) (cs : List Char) :
    Except Malformed (List (List String × Value) × List Char) :=
  match _ : readAssignment item cs with
  | .error e => .error e
  | .ok (a, behind) =>
    match _ : behind with
    | [] => .error .malformed
    | c :: rest =>
      if c = '\x7d' then .ok ((a :: done).reverse, rest)
      else if c = ',' then readAssignments item (a :: done) rest
      else .error .malformed
termination_by cs.length
decreasing_by
  have := length_of_readAssignment ‹_›
  simp only [List.length_cons] at *
  omega

theorem length_of_readAssignments {item : Reader Value} {done all : List (List String × Value)}
    {cs r : List Char} (h : readAssignments item done cs = .ok (all, r)) : r.length < cs.length := by
  fun_induction readAssignments item done cs with
  | case3 done cs a rest read =>
    cases h
    have := length_of_readAssignment read
    simp only [List.length_cons] at *
    omega
  | case4 done cs a rest read _ _ ih =>
    have := length_of_readAssignment read
    have := ih h
    simp only [List.length_cons] at *
    omega
  | _ => cases h

def inlineTable (assignments : List (List String × Value)) : Except Malformed Value :=
  match Item.assignAll [] assignments with
  | none => .error .malformed
  | some es => .ok (.table (Item.entriesToValues es))

def readInlineTable (item : Reader Value) (cs : List Char) : Except Malformed (Value × List Char) :=
  match dropBlank isBlank cs with
  | [] => .error .malformed
  | c :: rest =>
    if c = '\x7d' then .ok (.table [], rest)
    else
      match readAssignments item [] (c :: rest) with
      | .error e => .error e
      | .ok (assignments, behind) =>
        match inlineTable assignments with
        | .error e => .error e
        | .ok v => .ok (v, behind)

theorem length_of_readInlineTable {item : Reader Value} {cs : List Char} {v : Value} {r : List Char}
    (h : readInlineTable item cs = .ok (v, r)) : r.length < cs.length := by
  unfold readInlineTable at h
  split at h
  · cases h
  next head =>
    have := length_of_dropBlank head
    split at h
    · cases h; assumption
    · split at h
      · cases h
      next read =>
        have := length_of_readAssignments read
        split at h
        · cases h
        · cases h
          simp only [List.length_cons] at *
          omega

/-! ## Values -/

/-- Reads an array or an inline table whose items are read by `item`, or a single value. -/
def nested (item : Reader Value) : Reader Value where
  run cs :=
    match cs with
    | [] => .error .malformed
    | c :: rest =>
      if c = '[' then
        match readItems item [] rest with
        | .error e => .error e
        | .ok (items, behind) => .ok (.array items, behind)
      else if c = '\x7b' then readInlineTable item rest
      else scalar.run (c :: rest)
  shorter := by
    intro cs a rest h
    split at h
    · cases h
    · split at h
      · split at h
        · cases h
        next read =>
          cases h
          exact Nat.lt_succ_of_lt (length_of_readItems read)
      · split at h
        · exact Nat.lt_succ_of_lt (length_of_readInlineTable h)
        · exact scalar.shorter h

/-- Reads values with at most `depth` brackets open inside each other. -/
def valueWithin : Nat → Reader Value
  | 0 => scalar
  | depth + 1 => nested (valueWithin depth)

def value : Reader Value := valueWithin 79

end PipelineParams.Toml
