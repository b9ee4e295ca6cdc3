import PipelineParams.Json.Skip
import PipelineParams.SortedMap.Basic
import PipelineParams.Text.Reader

/-! # Reading values of a known type

A reader for a type takes a value of that type off the front of a document, and reports the first
fault that it meets on the way.

* `string`, `token`, `ignored`, `nothing` and `choice` read single values; `token` keeps the spelling.
* `optional` also accepts `null`.
* `list` reads items between brackets, `object` reads entries between braces, handing each key to a
  function that says how the value under it is read.  `mapOf` is the case of a map.
* `read` reads a whole document.
-/

namespace PipelineParams.Json

abbrev Reader (α : Type) := PipelineParams.Reader Error α

variable {α σ : Type}

/-! ## Values of another type -/

/-- The fault where `wanted` is due and the text starts with something else.  A scalar is read whole
first, so a fault inside it is the one reported. -/
def mismatch (wanted : Wanted) : List Char → Error
  | [] => .endInValue
  | c :: cs =>
    let wrong (found : Except Error Found) : Error :=
      match found with
      | .error e => e
      | .ok found => .wrongType found wanted
    -- lists and objects are named without being read, so a fault inside one is not met
    if c = 'n' then wrong ((skipLetters ['u', 'l', 'l'] cs).map fun _ => .null)
    else if c = 't' then wrong ((skipLetters ['r', 'u', 'e'] cs).map fun _ => .boolean true)
    else if c = 'f' then wrong ((skipLetters ['a', 'l', 's', 'e'] cs).map fun _ => .boolean false)
    else if c = '"' then wrong ((readString cs).map fun s => .text s.1)
    else if c = '-' ∨ c.isDigit then wrong (number (c :: cs))
    else if c = '[' then .wrongType .sequence wanted
    else if c = '\x7b' then .wrongType .map wanted
    else .valueExpected

/-! ## Single values -/

def readText (cs : List Char) : Except Error (String × List Char) :=
  match dropBlank isBlank cs with
  | [] => .error .endInValue
  | c :: rest => if c = '"' then readString rest else .error (mismatch .text (c :: rest))

theorem length_of_readText {cs rest : List Char} {s : String} (h : readText cs = .ok (s, rest)) :
    rest.length < cs.length := by
  unfold readText at h
  split at h
  · cases h
  next head =>
    have := length_of_dropBlank head
    split at h
    · have := length_of_readString h
      omega
    · cases h

def string : Reader String where
  run := readText
  shorter := length_of_readText

def ignored : Reader Unit where
  run cs :=
    match skipValue cs with
    | .error e => .error e
    | .ok rest => .ok ((), rest)
  shorter := by
    intro cs a rest h
    split at h
    · cases h
    next skipped =>
      cases h
      exact length_of_skipValue skipped

/-- Reads a value of any type as it is spelled, without the blanks before it. -/
def token : Reader String where
  run cs :=
    match skipValue cs with
    | .error e => .error e
    | .ok rest =>
      let start := dropBlank isBlank cs
      .ok (String.ofList (start.take (start.length - rest.length)), rest)
  shorter := by
    intro cs a rest h
    split at h
    · cases h
    next skipped =>
      cases h
      exact length_of_skipValue skipped

def readNothing (cs : List Char) : Except Error (Unit × List Char) :=
  match dropBlank isBlank cs with
  | [] => .error .endInValue
  | c :: rest =>
    if c = 'n' then (skipLetters ['u', 'l', 'l'] rest).map fun behind => ((), behind)
    else .error (mismatch .unit (c :: rest))

theorem length_of_readNothing {cs rest : List Char} {u : Unit} (h : readNothing cs = .ok (u, rest)) :
    rest.length < cs.length := by
  unfold readNothing at h
  split at h
  · cases h
  next c behind head =>
    have := length_of_dropBlank head
    split at h
    · cases hs : skipLetters ['u', 'l', 'l'] behind with
      | error e => rw [hs] at h; cases h
      | ok r =>
        rw [hs] at h
        cases h
        have := length_of_skipLetters hs
        omega
    · cases h

def nothing : Reader Unit where
  run := readNothing
  shorter := length_of_readNothing

def readOptional (r : Reader α) (cs : List Char) : Except Error (Option α × List Char) :=
  match dropBlank isBlank cs with
  | [] => (r.map some).run cs
  | c :: rest =>
    if c = 'n' then (skipLetters ['u', 'l', 'l'] rest).map fun behind => (none, behind)
    else (r.map some).run cs

theorem length_of_readOptional {r : Reader α} {cs rest : List Char} {a : Option α}
    (h : readOptional r cs = .ok (a, rest)) : rest.length < cs.length := by
  unfold readOptional at h
  split at h
  · exact (r.map some).shorter h
  next c behind head =>
    have := length_of_dropBlank head
    split at h
    · cases hs : skipLetters ['u', 'l', 'l'] behind with
      | error e => rw [hs] at h; cases h
      | ok rest =>
        rw [hs] at h
        cases h
        have := length_of_skipLetters hs
        omega
    · exact (r.map some).shorter h

def optional (r : Reader α) : Reader (Option α) where
  run := readOptional r
  shorter := length_of_readOptional

/-! ## Keys -/

def readKey : List Char → Except Error (String × List Char)
  | [] => .error .endInValue
  | c :: cs => if c = '"' then readString cs else .error .keyExpected

theorem length_of_readKey {cs : List Char} {key : String} {r : List Char}
    (h : readKey cs = .ok (key, r)) : r.length < cs.length := by
  cases cs with
  | nil => cases h
  | cons c cs =>
    rw [readKey] at h
    split at h
    · exact Nat.lt_succ_of_lt (length_of_readString h)
    · cases h

def readColon (cs : List Char) : Except Error (List Char) :=
  match dropBlank isBlank cs with
  | [] => .error .endInObject
  | c :: rest => if c = ':' then .ok rest else .error .colonExpected

theorem length_of_readColon {cs r : List Char} (h : readColon cs = .ok r) :
    r.length < cs.length := by
  unfold readColon at h
  split at h
  · cases h
  next head =>
    have := length_of_dropBlank head
    split at h
    · cases h; assumption
    · cases h

/-! ## Choices -/

def pick (choices : List (String × α)) (name : String) : Except Error α :=
  match choices.find? (fun choice => choice.1 = name) with
  | some choice => .ok choice.2
  | none => .error (.unknownVariant name (choices.map (·.1)))

def readChoiceObject (choices : List (String × α)) (cs : List Char) :
    Except Error (α × List Char) :=
  match dropBlank isBlank cs with
  | [] => .error .endInObject
  | c :: rest =>
    if c = '\x7d' then .error .valueExpected
    else
      match readKey (c :: rest) with
      | .error e => .error e
      | .ok (name, behind) =>
        match pick choices name with
        | .error e => .error e
        | .ok a =>
          match readColon behind with
          | .error e => .error e
          | .ok value =>
            match nothing.run value with
            | .error e => .error e
            | .ok (_, after) =>
              match dropBlank isBlank after with
              | [] => .error .endInObject
              | d :: rest => if d = '\x7d' then .ok (a, rest) else .error .valueExpected

theorem length_of_readChoiceObject {choices : List (String × α)} {cs : List Char} {a : α}
    {r : List Char} (h : readChoiceObject choices cs = .ok (a, r)) : r.length < cs.length := by
  unfold readChoiceObject at h
  split at h
  · cases h
  next head =>
    have := length_of_dropBlank head
    split at h
    · cases h
    · split at h
      · cases h
      next key =>
        have := length_of_readKey key
        simp only [List.length_cons] at this
        split at h
        · cases h
        · split at h
          · cases h
          next colon =>
            have := length_of_readColon colon
            split at h
            · cases h
            next null =>
              have := nothing.shorter null
              split at h
              · cases h
              next close =>
                have := length_of_dropBlank close
                split at h
                · cases h; omega
                · cases h

/-- Reads one of a few named values behind blanks: its name, or an object with the name as its key. -/
def readChoice (choices : List (String × α)) (cs : List Char) : Except Error (α × List Char) :=
  match dropBlank isBlank cs with
  | [] => .error .endInValue
  | c :: rest =>
    if c = '"' then
      match readString rest with
      | .error e => .error e
      | .ok (name, behind) => (pick choices name).map fun a => (a, behind)
    else if c = '\x7b' then readChoiceObject choices rest
    else .error .valueExpected

theorem length_of_readChoice {choices : List (String × α)} {cs rest : List Char} {a : α}
    (h : readChoice choices cs = .ok (a, rest)) : rest.length < cs.length := by
  unfold readChoice at h
  split at h
  · cases h
  next head =>
    have := length_of_dropBlank head
    split at h
    · split at h
      · cases h
      next key behind name =>
        have := length_of_readString name
        cases hp : pick choices key with
        | error e => rw [hp] at h; cases h
        | ok a => rw [hp] at h; cases h; omega
    · split at h
      · have := length_of_readChoiceObject h
        omega
      · cases h

def choice (choices : List (String × α)) : Reader α where
  run := readChoice choices
  shorter := length_of_readChoice

/-! ## Lists -/

/-- What follows an item or an entry: the text behind the closing bracket, or the text from the next
item, which starts right behind the blanks after a comma. -/
def readSeparator (b : Bracket) (cs : List Char) : Except Error (List Char × Bool) :=
  match dropBlank isBlank cs with
  | [] => .error b.endInside
  | c :: rest =>
    if c = b.closer then .ok (rest, false)
    else if c = ',' then
      -- the next member is due at once, so a bracket here closes behind a comma too many
      match dropBlank isBlank rest with
      | [] => .error .endInValue
      | d :: next => if d = b.closer then .error .trailingComma else .ok (d :: next, true)
    else .error b.commaExpected

theorem length_of_readSeparator {b : Bracket} {cs r : List Char} {more : Bool}
    (h : readSeparator b cs = .ok (r, more)) : r.length < cs.length := by
  unfold readSeparator at h
  split at h
  · cases h
  next c rest head =>
    have := length_of_dropBlank head
    split at h
    · cases h; assumption
    · split at h
      · split at h
        · cases h
        next next =>
          have := length_of_dropBlank next
          split at h
          · cases h
          · cases h
            simp only [List.length_cons]
            omega
      · cases h

def readItems (item : Reader α) (done : List α) (cs : List Char) :
    Except Error (List α × List Char) :=
  match _ : item.run cs with
  | .error e => .error e
  | .ok (a, behind) =>
    match _ : readSeparator .list behind with
    | .error e => .error e
    | .ok (rest, false) => .ok ((a :: done).reverse, rest)
    | .ok (next, true) => readItems item (a :: done) next
termination_by cs.length
decreasing_by
  have := item.shorter ‹_›
  have := length_of_readSeparator ‹_›
  omega

theorem length_of_readItems {item : Reader α} {done items : List α} {cs r : List Char}
    (h : readItems item done cs = .ok (items, r)) : r.length < cs.length := by
  fun_induction readItems item done cs with
  | case1 => cases h
  | case2 => cases h
  | case3 done cs a behind first rest close =>
    cases h
    have := item.shorter first
    have := length_of_readSeparator close
    omega
  | case4 done cs a behind first next comma ih =>
    have := item.shorter first
    have := length_of_readSeparator comma
    have := ih h
    omega

def readList (item : Reader α) (cs : List Char) : Except Error (List α × List Char) :=
  match dropBlank isBlank cs with
  | [] => .error .endInValue
  | c :: rest =>
    if c = '[' then
      match dropBlank isBlank rest with
      | [] => .error .endInList
      | d :: next => if d = ']' then .ok ([], next) else readItems item [] (d :: next)
    else .error (mismatch .sequence (c :: rest))

theorem length_of_readList {item : Reader α} {cs rest : List Char} {items : List α}
    (h : readList item cs = .ok (items, rest)) : rest.length < cs.length := by
  unfold readList at h
  split at h
  · cases h
  next head =>
    have := length_of_dropBlank head
    split at h
    · split at h
      · cases h
      next first =>
        have := length_of_dropBlank first
        split at h
        · cases h; omega
        · have := length_of_readItems h
          simp only [List.length_cons] at this
          omega
    · cases h

def list (item : Reader α) : Reader (List α) where
  run := readList item
  shorter := length_of_readList

/-! ## Objects -/

/-- Reads the entries from here to the end of an object.  `entry` says, from what has been gathered
so far and a key, how the value under the key is read and what is gathered with it. -/
def readEntries (entry : σ → String → Except Error (Reader σ)) (gathered : σ) (cs : List Char) :
    Except Error (σ × List Char) :=
  match _ : readKey cs with
  | .error e => .error e
  | .ok (key, behind) =>
    match entry gathered key with
    | .error e => .error e
    | .ok value =>
      match _ : readColon behind with
      | .error e => .error e
      | .ok start =>
        match _ : value.run start with
        | .error e => .error e
        | .ok (gathered, after) =>
          match _ : readSeparator .object after with
          | .error e => .error e
          | .ok (rest, false) => .ok (gathered, rest)
          | .ok (next, true) => readEntries entry gathered next
termination_by cs.length
decreasing_by
  have := length_of_readKey ‹_›
  have := length_of_readColon ‹_›
  have := value.shorter ‹_›
  have := length_of_readSeparator ‹_›
  omega

theorem length_of_readEntries {entry : σ → String → Except Error (Reader σ)} {gathered s : σ}
    {cs r : List Char} (h : readEntries entry gathered cs = .ok (s, r)) :
    r.length < cs.length := by
  fun_induction readEntries entry gathered cs with
  | case6 gathered cs key behind first value _ start colon s after read rest close =>
    cases h
    have := length_of_readKey first
    have := length_of_readColon colon
    have := value.shorter read
    have := length_of_readSeparator close
    omega
  | case7 gathered cs key behind first value _ start colon s after read next comma ih =>
    have := length_of_readKey first
    have := length_of_readColon colon
    have := value.shorter read
    have := length_of_readSeparator comma
    have := ih h
    omega
  | _ => cases h

/-- Reads the rest of an object, from behind its opening brace. -/
def readObject (entry : σ → String → Except Error (Reader σ)) (blank : σ) (cs : List Char) :
    Except Error (σ × List Char) :=
  match dropBlank isBlank cs with
  | [] => .error .endInObject
  | c :: rest => if c = '\x7d' then .ok (blank, rest) else readEntries entry blank (c :: rest)

theorem length_of_readObject {entry : σ → String → Except Error (Reader σ)} {blank s : σ}
    {cs r : List Char} (h : readObject entry blank cs = .ok (s, r)) : r.length < cs.length := by
  unfold readObject at h
  split at h
  · cases h
  next head =>
    have := length_of_dropBlank head
    split at h
    · cases h; assumption
    · have := length_of_readEntries h
      simp only [List.length_cons] at this
      omega

/-- Reads an object as a map behind blanks; the last value of a repeated key stays. -/
def readMap (value : Reader α) (cs : List Char) : Except Error (SortedMap α × List Char) :=
  match dropBlank isBlank cs with
  | [] => .error .endInValue
  | c :: rest =>
    if c = '\x7b' then
      readObject (fun m key => .ok (value.map (m.insert key))) SortedMap.empty rest
    else .error (mismatch .map (c :: rest))

theorem length_of_readMap {value : Reader α} {cs rest : List Char} {m : SortedMap α}
    (h : readMap value cs = .ok (m, rest)) : rest.length < cs.length := by
  unfold readMap at h
  split at h
  · cases h
  next head =>
    have := length_of_dropBlank head
    split at h
    · have := length_of_readObject h
      omega
    · cases h

def mapOf (value : Reader α) : Reader (SortedMap α) where
  run := readMap value
  shorter := length_of_readMap

/-! ## Documents -/

/-- Reads a whole document: behind the value may stand blanks only. -/
def read (r : Reader α) (text : String) : Except Error α :=
  match r.run text.toList with
  | .error e => .error e
  | .ok (a, rest) => if dropBlank isBlank rest = [] then .ok a else .error .trailingCharacters

end PipelineParams.Json
