/-! # Dates and times

A `Datetime` is a date, a time of day, or both with an optional offset from universal time.

* `Datetime.ofChars?` reads one; the two parts stand apart by `T`, `t` or a space.
* `Datetime.write` writes one in the usual form: `T` between the parts, no needless zeros behind the
  point of the seconds.
-/

namespace PipelineParams.Toml

structure Date where
  year : Nat
  month : Nat
  day : Nat
  deriving DecidableEq

/-- A time of day; `second` may be 60. -/
structure Time where
  hour : Nat
  minute : Nat
  second : Nat
  nanosecond : Nat
  deriving DecidableEq

inductive Offset where
  | universal
  | ahead (minutes : Int)
  deriving DecidableEq

/-- A date, a time, or both with an optional offset. -/
inductive Datetime where
  | date (d : Date)
  | time (t : Time)
  | both (d : Date) (t : Time) (offset : Option Offset)
  deriving DecidableEq

/-! ## Reading -/

def readDigits (value : Nat) : Nat → List Char → Option (Nat × List Char)
  | 0, cs => some (value, cs)
  | _ + 1, [] => none
  | count + 1, c :: cs =>
    if c.isDigit then readDigits (value * 10 + (c.toNat - '0'.toNat)) count cs else none

def expect (c : Char) : List Char → Option (List Char)
  | [] => none
  | d :: cs => if d = c then some cs else none

def daysIn (year month : Nat) : Nat :=
  if month = 2 then
    if year % 4 = 0 ∧ (year % 100 ≠ 0 ∨ year % 400 = 0) then 29 else 28
  else if month = 4 ∨ month = 6 ∨ month = 9 ∨ month = 11 then 30
  else 31

def readDate (cs : List Char) : Option (Date × List Char) := do
  let (year, cs) ← readDigits 0 4 cs
  let cs ← expect '-' cs
  let (month, cs) ← readDigits 0 2 cs
  let cs ← expect '-' cs
  let (day, cs) ← readDigits 0 2 cs
  if 1 ≤ month ∧ month ≤ 12 ∧ 1 ≤ day ∧ day ≤ daysIn year month then some (⟨year, month, day⟩, cs)
  else none

/-- The nanoseconds that digits behind the point of the seconds name; digits behind the ninth are
dropped. -/
def nanoseconds (digits : List Char) : Nat :=
  ((digits ++ List.replicate 9 '0').take 9).foldl (fun n d => n * 10 + (d.toNat - '0'.toNat)) 0

def readFraction (cs : List Char) : Option (Nat × List Char) :=
  match cs with
  | '.' :: rest =>
    let digits := rest.takeWhile Char.isDigit
    if digits = [] then none else some (nanoseconds digits, rest.dropWhile Char.isDigit)
  | _ => some (0, cs)

def readClock (cs : List Char) : Option (Nat × Nat × List Char) := do
  let (hour, cs) ← readDigits 0 2 cs
  let cs ← expect ':' cs
  let (minute, cs) ← readDigits 0 2 cs
  if hour ≤ 23 ∧ minute ≤ 59 then some (hour, minute, cs) else none

def readTime (cs : List Char) : Option (Time × List Char) := do
  let (hour, minute, cs) ← readClock cs
  let cs ← expect ':' cs
  let (second, cs) ← readDigits 0 2 cs
  let (nanosecond, cs) ← readFraction cs
  if second ≤ 60 then some (⟨hour, minute, second, nanosecond⟩, cs) else none

def offset? : List Char → Option (Option Offset)
  | [] => some none
  | c :: cs =>
    if (c = 'Z' ∨ c = 'z') ∧ cs = [] then some (some .universal)
    else if c = '+' ∨ c = '-' then
      match readClock cs with
      | some (hour, minute, []) =>
        let minutes : Int := hour * 60 + minute
        some (some (.ahead (if c = '-' then -minutes else minutes)))
      | _ => none
    else none

def Datetime.ofChars? (cs : List Char) : Option Datetime :=
  match readDate cs with
  | some (d, []) => some (.date d)
  | some (d, c :: rest) =>
    if c = 'T' ∨ c = 't' ∨ c = ' ' then do
      let (t, rest) ← readTime rest
      let offset ← offset? rest
      some (.both d t offset)
    else none
  | none =>
    match readTime cs with
    | some (t, []) => some (.time t)
    | _ => none

/-! ## Writing -/

def padded (width n : Nat) : List Char :=
  let digits := Nat.toDigits 10 n
  List.replicate (width - digits.length) '0' ++ digits

def Date.write (d : Date) : List Char :=
  padded 4 d.year ++ '-' :: padded 2 d.month ++ '-' :: padded 2 d.day

def Time.write (t : Time) : List Char :=
  let seconds := padded 2 t.hour ++ ':' :: padded 2 t.minute ++ ':' :: padded 2 t.second
  if t.nanosecond = 0 then seconds
  else seconds ++ '.' :: ((padded 9 t.nanosecond).reverse.dropWhile (· = '0')).reverse

def Offset.write : Offset → List Char
  | .universal => ['Z']
  | .ahead minutes =>
    let size := minutes.natAbs
    (if minutes < 0 then '-' else '+') :: padded 2 (size / 60) ++ ':' :: padded 2 (size % 60)

def Datetime.write : Datetime → String
  | .date d => String.ofList d.write
  | .time t => String.ofList t.write
  | .both d t offset =>
    String.ofList (d.write ++ 'T' :: t.write ++ (offset.map Offset.write).getD [])

end PipelineParams.Toml
