import PipelineParams.Json.Error

/-! # Numbers

A number has an optional minus sign, an integer part without needless zeros, an optional fraction and
an optional exponent.

* `skipNumber` steps over a number and checks its form.
* `number` finds the value of a number, for a message about a value of the wrong type.

An integer that fits 64 bits is kept exactly.  Every other number is a double, computed from as many
leading digits as fit 64 bits and one power of ten, so its last place may be off by one step.
-/

namespace PipelineParams.Json

/-! ## Form -/

def skipDigits : List Char → Except Error (List Char)
  | [] => .error .invalidNumber
  | c :: cs => if c.isDigit then .ok (cs.dropWhile Char.isDigit) else .error .invalidNumber

def dropSign : List Char → List Char
  | [] => []
  | c :: cs => if c = '+' ∨ c = '-' then cs else c :: cs

def skipExponent : List Char → Except Error (List Char)
  | [] => .ok []
  | c :: cs => if c = 'e' ∨ c = 'E' then skipDigits (dropSign cs) else .ok (c :: cs)

/-- Steps over an optional fraction and an optional exponent. -/
def skipFraction : List Char → Except Error (List Char)
  | [] => .ok []
  | c :: cs => if c = '.' then (skipDigits cs).bind skipExponent else skipExponent (c :: cs)

def startsWithDigit : List Char → Bool
  | [] => false
  | c :: _ => c.isDigit

def skipUnsigned : List Char → Except Error (List Char)
  | [] => .error .invalidNumber
  | c :: cs =>
    if c = '0' then
      if startsWithDigit cs then .error .invalidNumber else skipFraction cs
    else if c.isDigit then skipFraction (cs.dropWhile Char.isDigit)
    else .error .invalidNumber

def skipNumber : List Char → Except Error (List Char)
  | [] => .error .invalidNumber
  | c :: cs => if c = '-' then skipUnsigned cs else skipUnsigned (c :: cs)

/-! ## Progress -/

theorem length_of_skipDigits {cs r : List Char} (h : skipDigits cs = .ok r) :
    r.length < cs.length := by
  cases cs with
  | nil => cases h
  | cons c cs =>
    rw [skipDigits] at h
    split at h
    · cases h
      exact Nat.lt_succ_of_le (List.dropWhile_suffix _).length_le
    · cases h

theorem length_dropSign_le (cs : List Char) : (dropSign cs).length ≤ cs.length := by
  unfold dropSign
  split
  · exact Nat.le_refl _
  · split <;> simp

theorem length_of_skipExponent {cs r : List Char} (h : skipExponent cs = .ok r) :
    r.length ≤ cs.length := by
  cases cs with
  | nil => cases h; exact Nat.le_refl _
  | cons c cs =>
    rw [skipExponent] at h
    split at h
    · have hd := length_of_skipDigits h
      have hs := length_dropSign_le cs
      simp only [List.length_cons]
      omega
    · cases h; exact Nat.le_refl _

theorem length_of_skipFraction {cs r : List Char} (h : skipFraction cs = .ok r) :
    r.length ≤ cs.length := by
  cases cs with
  | nil => cases h; exact Nat.le_refl _
  | cons c cs =>
    rw [skipFraction] at h
    split at h
    · cases hd : skipDigits cs with
      | error e => rw [hd] at h; cases h
      | ok s =>
        rw [hd] at h
        have h1 := length_of_skipDigits hd
        have h2 := length_of_skipExponent (show skipExponent s = .ok r from h)
        simp only [List.length_cons]
        omega
    · exact length_of_skipExponent h

theorem length_of_skipUnsigned {cs r : List Char} (h : skipUnsigned cs = .ok r) :
    r.length < cs.length := by
  cases cs with
  | nil => cases h
  | cons c cs =>
    rw [skipUnsigned] at h
    split at h
    · split at h
      · cases h
      · exact Nat.lt_succ_of_le (length_of_skipFraction h)
    · split at h
      · have h1 := length_of_skipFraction h
        have h2 := (List.dropWhile_suffix (l := cs) Char.isDigit).length_le
        simp only [List.length_cons]
        omega
      · cases h

theorem length_of_skipNumber {cs r : List Char} (h : skipNumber cs = .ok r) :
    r.length < cs.length := by
  cases cs with
  | nil => cases h
  | cons c cs =>
    rw [skipNumber] at h
    split at h
    · exact Nat.lt_succ_of_lt (length_of_skipUnsigned h)
    · exact length_of_skipUnsigned h

/-! ## Value -/

def digitValue (c : Char) : Nat := c.toNat - '0'.toNat

def significandLimit : Nat := Nat.pow 2 64

/-- Takes up digits while the significand stays within its limit: the significand, the number of
digits taken up and the number of digits left out. -/
def significand (s taken : Nat) : List Char → Nat × Nat × Nat
  | [] => (s, taken, 0)
  | c :: cs =>
    if s * 10 + digitValue c < significandLimit then significand (s * 10 + digitValue c) (taken + 1) cs
    else (s, taken, (c :: cs).length)

def divideByPowerOfTen (x : Float) (e : Nat) : Float :=
  if h : 308 < e then
    -- `10 ^ 308` is the largest power of ten that is a double
    if x == 0 then x else divideByPowerOfTen (x / Float.ofScientific 1 false 308) (e - 308)
  else x / Float.ofScientific 1 false e
termination_by e
decreasing_by omega

def scale (s : Nat) (e : Int) : Except Error Float :=
  let x := Float.ofNat s
  if e < 0 then .ok (divideByPowerOfTen x (-e).toNat)
  else if s = 0 then .ok x
  else if 308 < e then .error .numberOutOfRange
  else
    let y := x * Float.ofScientific 1 false e.toNat
    if y.isInf then .error .numberOutOfRange else .ok y

def digitRun (cs : List Char) : List Char := cs.takeWhile Char.isDigit

def afterDigits (cs : List Char) : List Char := cs.dropWhile Char.isDigit

/-- One or more digits; where there is none, the text has ended or the number is broken. -/
def someDigits (cs : List Char) : Except Error (List Char) :=
  match cs with
  | [] => .error .endInValue
  | c :: _ => if c.isDigit then .ok (digitRun cs) else .error .invalidNumber

def exponent : List Char → Except Error Int
  | [] => .ok 0
  | c :: cs =>
    if c = 'e' ∨ c = 'E' then
      match someDigits (dropSign cs) with
      | .error e => .error e
      | .ok digits =>
        let size : Int := digits.foldl (fun n d => n * 10 + digitValue d) 0
        .ok (if cs.head? = some '-' then -size else size)
    else .ok 0

/-- The double at the front of a text, from the digits before its point. -/
def double (negative : Bool) (digits rest : List Char) : Except Error Found :=
  let (s, _, dropped) := significand 0 0 digits
  let signed (x : Float) : Found := .floating (if negative then -x else x)
  match rest with
  | '.' :: cs =>
    match someDigits cs with
    | .error e => .error e
    | .ok fraction =>
      let (s, taken, _) := significand s 0 fraction
      match exponent (afterDigits cs) with
      | .error e => .error e
      | .ok e => (scale s (dropped - taken + e)).map signed
  | _ =>
    match exponent rest with
    | .error e => .error e
    | .ok e => (scale s (dropped + e)).map signed

/-- The integer of these digits, as a double where it does not fit 64 bits or is a negative zero. -/
def integer (negative : Bool) (digits : List Char) : Except Error Found :=
  let n := digits.foldl (fun n d => n * 10 + digitValue d) 0
  if negative then
    -- a negative zero is no integer
    if 0 < n ∧ n ≤ Nat.pow 2 63 then .ok (.integer (-n)) else double true digits []
  else if n < significandLimit then .ok (.integer n)
  else double false digits []

def unsigned (negative : Bool) (cs : List Char) : Except Error Found :=
  match someDigits cs with
  | .error e => .error e
  | .ok digits =>
    if digits.head? = some '0' ∧ 1 < digits.length then .error .invalidNumber
    else
      match afterDigits cs with
      | '.' :: rest => double negative digits ('.' :: rest)
      | 'e' :: rest => double negative digits ('e' :: rest)
      | 'E' :: rest => double negative digits ('E' :: rest)
      | _ => integer negative digits

def number : List Char → Except Error Found
  | '-' :: cs => unsigned true cs
  | cs => unsigned false cs

end PipelineParams.Json
