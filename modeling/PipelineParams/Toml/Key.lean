import PipelineParams.Toml.Quoted

/-! # Keys in configuration files

A key is bare or quoted.  Several keys with dots between them name a place inside nested tables.

* `isBareChar` tells the characters of a bare key.
* `path` reads keys with dots between them, and the blanks around each.
-/

namespace PipelineParams.Toml

def isBareChar (c : Char) : Bool := c.isAlphanum || c = '_' || c = '-'

def pathLimit : Nat := 80

def readKey : List Char → Except Malformed (String × List Char)
  | [] => .error .malformed
  | c :: cs =>
    if c = '"' ∨ c = '\'' then (readLine (c :: cs)).map fun (chars, rest) => (String.ofList chars, rest)
    else if isBareChar c then
      .ok (String.ofList (c :: cs.takeWhile isBareChar), cs.dropWhile isBareChar)
    else .error .malformed

theorem length_of_readKey {cs : List Char} {key : String} {rest : List Char}
    (h : readKey cs = .ok (key, rest)) : rest.length < cs.length := by
  cases cs with
  | nil => cases h
  | cons c cs =>
    rw [readKey] at h
    split at h
    · cases read : readLine (c :: cs) with
      | error e => rw [read] at h; cases h
      | ok p =>
        rw [read] at h
        cases h
        exact length_of_readLine (show readLine (c :: cs) = .ok (p.1, p.2) from read)
    · split at h
      · cases h
        exact Nat.lt_succ_of_le (List.dropWhile_suffix _).length_le
      · cases h

/-- Reads keys with dots between them; `done` holds those read so far, the last one first. -/
def readPath (done : List String) (cs : List Char) : Except Malformed (List String × List Char) :=
  match _ : readKey (dropBlank isBlank cs) with
  | .error e => .error e
  | .ok (key, behind) =>
    match _ : dropBlank isBlank behind with
    | [] => .ok ((key :: done).reverse, [])
    | c :: rest =>
      if c = '.' then readPath (key :: done) rest else .ok ((key :: done).reverse, c :: rest)
termination_by cs.length
decreasing_by
  have := length_of_readKey ‹_›
  have := length_of_dropBlank ‹_›
  have := length_dropBlank_le isBlank cs
  omega

theorem length_of_readPath {done keys : List String} {cs rest : List Char}
    (h : readPath done cs = .ok (keys, rest)) : rest.length < cs.length := by
  fun_induction readPath done cs with
  | case1 => cases h
  | case2 done cs key behind read blank =>
    cases h
    have := length_of_readKey read
    have := length_dropBlank_le isBlank cs
    exact Nat.lt_of_le_of_lt (Nat.zero_le _) (by omega : behind.length < cs.length)
  | case3 done cs key behind read rest blank ih =>
    have := length_of_readKey read
    have := length_of_dropBlank blank
    have := length_dropBlank_le isBlank cs
    have := ih h
    omega
  | case4 done cs key behind read c rest blank _ =>
    cases h
    have := length_of_readKey read
    have := length_of_dropBlank blank
    have := length_dropBlank_le isBlank cs
    simp only [List.length_cons]
    omega

def path : Reader (List String) where
  run cs :=
    match readPath [] cs with
    | .error e => .error e
    | .ok (keys, rest) => if keys.length < pathLimit then .ok (keys, rest) else .error .malformed
  shorter := by
    intro cs a rest h
    split at h
    · cases h
    next read =>
      split at h
      · cases h
        exact length_of_readPath read
      · cases h

end PipelineParams.Toml
