import PipelineParams.Json.Reader

/-! # Reading records

A record is written as an object of its fields in any order, or as a list of its fields in the order
of their declaration.  A `Field` says how its value is read and where it goes in the record, so one
pair of readers serves every record.

* `record` reads either form.
* In an object unknown fields are stepped over, a field that is given twice is a fault, and so is the
  absence of a required one.
* A list may end early; the fields behind its end are absent.
-/

namespace PipelineParams.Json

/-- A field of a record of type `ρ`. -/
structure Field (ρ : Type) where
  name : String
  /-- Whether the field must be present. -/
  required : Bool
  /-- Reads the value and says where it goes. -/
  read : Reader (ρ → ρ)

variable {ρ : Type}

/-! ## From an object -/

/-- How the value under a key of a record is read; `gathered` holds the names of the fields read so
far with the record as far as it is known. -/
def fieldEntry (fields : List (Field ρ)) (gathered : List String × ρ) (key : String) :
    Except Error (Reader (List String × ρ)) :=
  match fields.find? (fun f => f.name = key) with
  | none => .ok (ignored.map fun _ => gathered)
  | some f =>
    -- told before the second value is looked at
    if key ∈ gathered.1 then .error (.duplicateField key)
    else .ok (f.read.map fun set => (key :: gathered.1, set gathered.2))

def complete (fields : List (Field ρ)) (gathered : List String × ρ) : Except Error ρ :=
  match fields.find? (fun f => f.required && !gathered.1.contains f.name) with
  | some f => .error (.missingField f.name)
  | none => .ok gathered.2

/-! ## From a list -/

/-- The record when a list ends before these fields; `index` is the place of the first of them. -/
def endEarly (name : String) (arity index : Nat) (fields : List (Field ρ)) (blank : ρ) :
    Except Error ρ :=
  match fields.findIdx? (fun f => f.required) with
  | some i => .error (.missingItem (index + i) name arity)
  | none => .ok blank

def readEnd (cs : List Char) : Except Error (List Char) :=
  match dropBlank isBlank cs with
  | [] => .error .endInList
  | c :: rest =>
    if c = ']' then .ok rest
    else if c = ',' then
      match dropBlank isBlank rest with
      | [] => .error .trailingCharacters
      | d :: _ => if d = ']' then .error .trailingComma else .error .trailingCharacters
    else .error .trailingCharacters

def readMoreItems (name : String) (arity index : Nat) (partly : ρ) :
    List (Field ρ) → List Char → Except Error (ρ × List Char)
  | [], cs =>
    match readEnd cs with
    | .error e => .error e
    | .ok rest => .ok (partly, rest)
  | f :: fs, cs =>
    match dropBlank isBlank cs with
    | [] => .error .endInList
    | c :: rest =>
      if c = ']' then
        match endEarly name arity index (f :: fs) partly with
        | .error e => .error e
        | .ok r => .ok (r, rest)
      else if c = ',' then
        match dropBlank isBlank rest with
        | [] => .error .endInValue
        | d :: next =>
          if d = ']' then .error .trailingComma
          else
            match f.read.run (d :: next) with
            | .error e => .error e
            | .ok (set, behind) => readMoreItems name arity (index + 1) (set partly) fs behind
      else .error .listCommaExpected

def readListItems (name : String) (arity : Nat) (blank : ρ) (fields : List (Field ρ))
    (cs : List Char) : Except Error (ρ × List Char) :=
  match fields with
  | [] =>
    match readEnd cs with
    | .error e => .error e
    | .ok rest => .ok (blank, rest)
  | f :: fs =>
    match dropBlank isBlank cs with
    | [] => .error .endInList
    | c :: rest =>
      if c = ']' then
        match endEarly name arity 0 fields blank with
        | .error e => .error e
        | .ok r => .ok (r, rest)
      else
        match f.read.run (c :: rest) with
        | .error e => .error e
        | .ok (set, behind) => readMoreItems name arity 1 (set blank) fs behind

theorem length_of_readEnd {cs r : List Char} (h : readEnd cs = .ok r) : r.length < cs.length := by
  unfold readEnd at h
  split at h
  · cases h
  next head =>
    have := length_of_dropBlank head
    split at h
    · cases h; assumption
    · repeat' split at h
      all_goals cases h

theorem length_of_readMoreItems {name : String} {arity index : Nat} {partly a : ρ}
    {fields : List (Field ρ)} {cs r : List Char}
    (h : readMoreItems name arity index partly fields cs = .ok (a, r)) : r.length < cs.length := by
  induction fields generalizing index partly cs with
  | nil =>
    unfold readMoreItems at h
    split at h
    · cases h
    next close => cases h; exact length_of_readEnd close
  | cons f fs ih =>
    unfold readMoreItems at h
    split at h
    · cases h
    next c rest head =>
      have := length_of_dropBlank head
      split at h
      · split at h
        · cases h
        · cases h; assumption
      · split at h
        · split at h
          · cases h
          next next =>
            have := length_of_dropBlank next
            split at h
            · cases h
            · split at h
              · cases h
              next read =>
                have := f.read.shorter read
                have := ih h
                simp only [List.length_cons] at *
                omega
        · cases h

theorem length_of_readListItems {name : String} {arity : Nat} {blank a : ρ}
    {fields : List (Field ρ)} {cs r : List Char}
    (h : readListItems name arity blank fields cs = .ok (a, r)) : r.length < cs.length := by
  unfold readListItems at h
  split at h
  · split at h
    · cases h
    next close => cases h; exact length_of_readEnd close
  · split at h
    · cases h
    next f fs _ c rest head =>
      have := length_of_dropBlank head
      split at h
      · split at h
        · cases h
        · cases h; assumption
      · split at h
        · cases h
        next read =>
          have := f.read.shorter read
          have := length_of_readMoreItems h
          simp only [List.length_cons] at *
          omega

/-! ## Either form -/

/-- Reads a record with the given fields; absent ones have what they have in `blank`. -/
def record (name : String) (fields : List (Field ρ)) (blank : ρ) : Reader ρ where
  run cs :=
    match dropBlank isBlank cs with
    | [] => .error .endInValue
    | c :: rest =>
      if c = '\x7b' then
        match readObject (fieldEntry fields) ([], blank) rest with
        | .error e => .error e
        | .ok (gathered, behind) =>
          match complete fields gathered with
          | .error e => .error e
          | .ok r => .ok (r, behind)
      else if c = '[' then readListItems name fields.length blank fields rest
      else .error (mismatch (.record name) (c :: rest))
  shorter := by
    intro cs a rest h
    split at h
    · cases h
    next head =>
      have := length_of_dropBlank head
      split at h
      · split at h
        · cases h
        next read =>
          have := length_of_readObject read
          split at h
          · cases h
          · cases h; omega
      · split at h
        · have := length_of_readListItems h
          omega
        · cases h

end PipelineParams.Json
