import PipelineParams.Toml.Reader

/-! # Configuration files

A configuration file is a list of lines: assignments, headers of tables, comments and blank lines.  The
assignments behind a header belong to its table.

* `readStatements` reads the lines, `sections` gathers the assignments under their headers.
* `ofSections` builds the table that the sections define together.
* `parse` is all of it.
-/

namespace PipelineParams.Toml

inductive Statement where
  | table (path : List String)
  /-- The header of one more table under the same name. -/
  | element (path : List String)
  | assign (path : List String) (value : Value)

/-! ## Lines -/

/-- The text behind the end of a line: blanks, a comment, and a line break or the end of the text. -/
def endLine (cs : List Char) : Except Malformed (List Char) :=
  let rest :=
    match dropBlank isBlank cs with
    | [] => []
    | c :: rest => if c = '#' then dropComment rest else c :: rest
  match rest with
  | [] => .ok []
  | c :: rest =>
    match lineBreak? (c :: rest) with
    | some next => .ok next
    | none => .error .malformed

theorem length_of_endLine {cs r : List Char} (h : endLine cs = .ok r) :
    r.length ≤ cs.length ∧ (cs ≠ [] → r.length < cs.length) := by
  have rest_le : (match dropBlank isBlank cs with
      | [] => []
      | c :: rest => if c = '#' then dropComment rest else c :: rest).length ≤ cs.length := by
    have := length_dropBlank_le isBlank cs
    split
    · exact Nat.zero_le _
    next c rest head =>
      rw [head, List.length_cons] at this
      split
      · have := length_dropComment_le rest
        omega
      · exact this
  unfold endLine at h
  dsimp only at h
  split at h
  · cases h
    refine ⟨Nat.zero_le _, fun some_char => ?_⟩
    exact List.length_pos_iff.2 some_char
  next c rest eq =>
    rw [eq] at rest_le
    split at h
    next broken =>
      cases h
      have := length_of_lineBreak? broken
      exact ⟨by omega, fun _ => by omega⟩
    · cases h

def expectChar (c : Char) : List Char → Except Malformed (List Char)
  | [] => .error .malformed
  | d :: cs => if d = c then .ok cs else .error .malformed

theorem length_of_expectChar {c : Char} {cs r : List Char} (h : expectChar c cs = .ok r) :
    r.length < cs.length := by
  cases cs with
  | nil => cases h
  | cons d cs =>
    rw [expectChar] at h
    split at h
    · cases h; exact Nat.lt_succ_self _
    · cases h

def readHeaderPath (cs : List Char) : Except Malformed (List String × List Char) :=
  match path.run cs with
  | .error e => .error e
  | .ok (keys, behind) =>
    match expectChar ']' behind with
    | .error e => .error e
    | .ok rest => .ok (keys, rest)

theorem length_of_readHeaderPath {cs : List Char} {keys : List String} {r : List Char}
    (h : readHeaderPath cs = .ok (keys, r)) : r.length < cs.length := by
  unfold readHeaderPath at h
  split at h
  · cases h
  next read =>
    have := path.shorter read
    split at h
    · cases h
    next close =>
      cases h
      have := length_of_expectChar close
      omega

def readHeader (cs : List Char) : Except Malformed (Statement × List Char) :=
  match expectChar '[' cs with
  | .ok inner =>
    match readHeaderPath inner with
    | .error e => .error e
    | .ok (keys, behind) =>
      match expectChar ']' behind with
      | .error e => .error e
      | .ok rest => .ok (.element keys, rest)
  | .error _ =>
    match readHeaderPath cs with
    | .error e => .error e
    | .ok (keys, rest) => .ok (.table keys, rest)

theorem length_of_readHeader {cs : List Char} {s : Statement} {r : List Char}
    (h : readHeader cs = .ok (s, r)) : r.length < cs.length := by
  unfold readHeader at h
  split at h
  next opened =>
    have := length_of_expectChar opened
    split at h
    · cases h
    next read =>
      have := length_of_readHeaderPath read
      split at h
      · cases h
      next close =>
        cases h
        have := length_of_expectChar close
        omega
  · split at h
    · cases h
    next read =>
      cases h
      exact length_of_readHeaderPath read

def readStatement (cs : List Char) : Except Malformed (Statement × List Char) :=
  match expectChar '[' cs with
  | .ok rest => readHeader rest
  | .error _ =>
    match readAssignment value cs with
    | .error e => .error e
    | .ok ((keys, v), rest) => .ok (.assign keys v, rest)

theorem length_of_readStatement {cs : List Char} {s : Statement} {r : List Char}
    (h : readStatement cs = .ok (s, r)) : r.length < cs.length := by
  unfold readStatement at h
  split at h
  next opened =>
    have := length_of_expectChar opened
    have := length_of_readHeader h
    omega
  · split at h
    · cases h
    next read =>
      cases h
      exact length_of_readAssignment read

/-- Whether a line that starts with this character defines nothing. -/
def startsEmptyLine (c : Char) : Bool := c = '#' || c = '\n' || c = '\r'

def readStatements (done : List Statement) (cs : List Char) : Except Malformed (List Statement) :=
  match _ : dropBlank isBlank cs with
  | [] => .ok done.reverse
  | c :: rest =>
    if startsEmptyLine c then
      match _ : endLine (c :: rest) with
      | .error e => .error e
      | .ok next => readStatements done next
    else
      match _ : readStatement (c :: rest) with
      | .error e => .error e
      | .ok (s, behind) =>
        match _ : endLine behind with
        | .error e => .error e
        | .ok next => readStatements (s :: done) next
termination_by cs.length
decreasing_by
  · have := (length_of_endLine ‹_›).2 (List.cons_ne_nil _ _)
    have := length_of_dropBlank ‹_›
    simp only [List.length_cons] at *
    omega
  · have := (length_of_endLine ‹_›).1
    have := length_of_readStatement ‹_›
    have := length_of_dropBlank ‹_›
    simp only [List.length_cons] at *
    omega

/-! ## Sections -/

/-- What the assignments of a section define. -/
inductive Header where
  | root
  | table (path : List String)
  | element (path : List String)

structure Section where
  header : Header
  assignments : List (List String × Value)

/-- The sections from here on; the section of `header` has the assignments `done` so far, the last one
first. -/
def sectionsFrom (header : Header) (done : List (List String × Value)) :
    List Statement → List Section
  | [] => [⟨header, done.reverse⟩]
  | .assign keys v :: rest => sectionsFrom header ((keys, v) :: done) rest
  | .table path :: rest => ⟨header, done.reverse⟩ :: sectionsFrom (.table path) [] rest
  | .element path :: rest => ⟨header, done.reverse⟩ :: sectionsFrom (.element path) [] rest

def sections (statements : List Statement) : List Section := sectionsFrom .root [] statements

def addSection (es : Item.Entries) (s : Section) : Option Item.Entries :=
  match s.header with
  | .root => Item.assignAll es s.assignments
  | .table path => Item.atPath (Item.defineTable s.assignments) path es
  | .element path => Item.atPath (Item.defineElement s.assignments) path es

def ofSections (all : List Section) : Option (List (String × Value)) :=
  (all.foldlM addSection []).map Item.entriesToValues

/-! ## Files -/

def dropMark : List Char → List Char
  | [] => []
  | c :: cs => if c = '\ufeff' then cs else c :: cs

def parse (text : String) : Except Malformed (List (String × Value)) :=
  match readStatements [] (dropMark text.toList) with
  | .error e => .error e
  | .ok statements =>
    match ofSections (sections statements) with
    | some table => .ok table
    | none => .error .malformed

end PipelineParams.Toml
