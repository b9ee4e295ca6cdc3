import PipelineParams.Toml.Quoted

/-! # Single values in configuration files

Text is quoted.  Every other single value is a run of letters, digits and the marks `+ - _ . :`, and
the whole run must be a value: `true`, `false`, an integer, a float, a date or a time.

* `integer?`, `isFloat` and `ofRun?` say what a run is.
* `scalar` reads a single value.
-/

namespace PipelineParams.Toml

/-! ## Numbers -/

/-- The digits of a number in which single underscores may stand between two digits. -/
def grouped? (isDigit : Char → Bool) : List Char → Option (List Char)
  | [] => none
  | [c] => if isDigit c then some [c] else none
  | c :: d :: cs =>
    if isDigit c then
      if d = '_' then (grouped? isDigit cs).map (c :: ·)
      else (grouped? isDigit (d :: cs)).map (c :: ·)
    else none

def signed : List Char → Bool × List Char
  | '-' :: cs => (true, cs)
  | '+' :: cs => (false, cs)
  | cs => (false, cs)

/-- The digits of a decimal number without a sign; a zero stands first only if it stands alone. -/
def decimalDigits? (cs : List Char) : Option (List Char) :=
  match grouped? Char.isDigit cs with
  | none => none
  | some digits => if digits.head? = some '0' ∧ cs ≠ ['0'] then none else some digits

def valueIn (base : Nat) (digits : List Char) : Nat :=
  digits.foldl (fun n d => n * base + (Text.hexDigit? d).getD 0) 0

def bounded? (n : Int) : Option Int :=
  if -0x8000000000000000 ≤ n ∧ n < 0x8000000000000000 then some n else none

def isDigitIn (base : Nat) (c : Char) : Bool :=
  match Text.hexDigit? c with
  | some d => d < base
  | none => false

def based? (base : Nat) (cs : List Char) : Option Int :=
  (grouped? (isDigitIn base) cs).bind fun digits => bounded? (valueIn base digits)

def integer? (cs : List Char) : Option Int :=
  match cs with
  | '0' :: 'x' :: rest => based? 16 rest
  | '0' :: 'o' :: rest => based? 8 rest
  | '0' :: 'b' :: rest => based? 2 rest
  | _ =>
    let (negative, rest) := signed cs
    (decimalDigits? rest).bind fun digits =>
      let n : Int := valueIn 10 digits
      bounded? (if negative then -n else n)

/-- Whether `digits · 10 ^ e` rounds to infinity, which it does from half a step above the largest
double, at `2 ^ 1024 - 2 ^ 970`. -/
def overflows (digits : List Char) (e : Int) : Bool :=
  let n := valueIn 10 digits
  let places : Int := (Nat.toDigits 10 n).length + e
  if n = 0 then false
  else if 310 < places then true
  else if places < 300 then false
  else
    Nat.pow 2 1024 - Nat.pow 2 970 ≤
      if 0 ≤ e then n * Nat.pow 10 e.toNat else n / Nat.pow 10 (-e).toNat

/-- The parts of a run before and behind the first of some characters. -/
def cut (isMark : Char → Bool) (cs : List Char) : List Char × Option (List Char) :=
  match cs.dropWhile (fun c => !isMark c) with
  | [] => (cs, none)
  | _ :: rest => (cs.takeWhile (fun c => !isMark c), some rest)

def exponent? (cs : List Char) : Option Int :=
  let (negative, rest) := signed cs
  (grouped? Char.isDigit rest).map fun digits =>
    let n : Int := valueIn 10 digits
    if negative then -n else n

/-- Whether a run is a float.  It has a fraction or an exponent or both, or is `inf` or `nan`; a
positive float beyond the largest double is none. -/
def isFloat (cs : List Char) : Bool :=
  let (negative, rest) := signed cs
  let (mantissa, exponent) := cut (fun c => c = 'e' || c = 'E') rest
  let (whole, fraction) := cut (fun c => c = '.') mantissa
  if rest = ['i', 'n', 'f'] ∨ rest = ['n', 'a', 'n'] then true
  else if exponent.isNone && fraction.isNone then false
  else
    match decimalDigits? whole, fraction.map (grouped? Char.isDigit), exponent.map exponent? with
    | some digits, none, some (some e) => negative || !overflows digits e
    | some digits, some (some places), none =>
      negative || !overflows (digits ++ places) (-(places.length : Int))
    | some digits, some (some places), some (some e) =>
      negative || !overflows (digits ++ places) (e - places.length)
    | _, _, _ => false

/-! ## Runs -/

def isRunChar (c : Char) : Bool :=
  c.isAlphanum || c = '+' || c = '-' || c = '_' || c = '.' || c = ':'

def ofRun? (cs : List Char) : Option Value :=
  if cs = "true".toList then some (.boolean true)
  else if cs = "false".toList then some (.boolean false)
  else
    match Datetime.ofChars? cs with
    | some d => some (.datetime d)
    | none =>
      match integer? cs with
      | some n => some (.integer n)
      | none => if isFloat cs then some (.float (String.ofList cs)) else none

/-- The run at the front of a text, and what is behind it.  A date takes in a time that follows it after
one space. -/
def readRun (cs : List Char) : List Char × List Char :=
  let run := cs.takeWhile isRunChar
  let rest := cs.dropWhile isRunChar
  match readDate run, rest with
  | some (_, []), ' ' :: behind =>
    match behind.takeWhile isRunChar with
    | [] => (run, rest)
    | time => (run ++ ' ' :: time, behind.dropWhile isRunChar)
  | _, _ => (run, rest)

theorem ofRun?_nil : ofRun? [] = none := by decide

theorem length_readRun (cs : List Char) :
    (readRun cs).2.length ≤ cs.length ∧ ((readRun cs).1 ≠ [] → (readRun cs).2.length < cs.length) := by
  have total : (cs.takeWhile isRunChar).length + (cs.dropWhile isRunChar).length = cs.length := by
    rw [← List.length_append, List.takeWhile_append_dropWhile]
  unfold readRun
  dsimp only
  split
  next d _ behind date rest =>
    have some_char : (cs.takeWhile isRunChar) ≠ [] := by
      intro empty
      rw [empty] at date
      cases date
    have := List.length_pos_iff.2 some_char
    rw [rest] at total ⊢
    split
    · dsimp only
      exact ⟨by omega, fun _ => by omega⟩
    · have := (List.dropWhile_suffix (l := behind) isRunChar).length_le
      simp only [List.length_cons] at total
      dsimp only
      exact ⟨by omega, fun _ => by omega⟩
  · dsimp only
    refine ⟨by omega, fun some_char => ?_⟩
    have := List.length_pos_iff.2 some_char
    omega

def scalar : Reader Value where
  run cs :=
    match cs with
    | [] => .error .malformed
    | c :: _ =>
      if c = '"' ∨ c = '\'' then (text.map .string).run cs
      else
        match ofRun? (readRun cs).1 with
        | some v => .ok (v, (readRun cs).2)
        | none => .error .malformed
  shorter := by
    intro cs a rest h
    split at h
    · cases h
    · split at h
      · exact (text.map Value.string).shorter h
      · split at h
        next value =>
          cases h
          refine (length_readRun _).2 fun empty => ?_
          rw [empty, ofRun?_nil] at value
          cases value
        · cases h

end PipelineParams.Toml
