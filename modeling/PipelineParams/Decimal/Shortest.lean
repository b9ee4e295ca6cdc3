/-! # The shortest decimal that reads back

A double stands for every real number that rounds to it, an interval around its exact value.
`Decimal.shortest` finds the decimal with the fewest digits in that interval, and of those the one
nearest to the exact value.

The search is exact.  A double is `m · 2 ^ q` for natural `m`; the ends of its interval are half a
step away, so all three points are multiples of a quarter of a step.  For one digit, two digits and
so on up to seventeen, the two neighbours of the value on the grid of decimals with so many digits
are compared with the ends.
-/

namespace PipelineParams

/-- The decimal `± digits · 10 ^ exponent`. -/
structure Decimal where
  negative : Bool
  digits : Nat
  exponent : Int
  deriving DecidableEq, Repr

namespace Decimal

/-- A finite double in exact form: `m · 2 ^ q`, with the parts of its interval in quarter steps. -/
structure Interval where
  significand : Nat
  exponent : Int
  /-- How many quarter steps the lower end is below the value: one next to a power of two, else two. -/
  below : Nat
  deriving DecidableEq, Repr

def Interval.ofParts (biased fraction : Nat) : Interval :=
  if biased = 0 then ⟨fraction, -1074, 2⟩
  else ⟨fraction + Nat.pow 2 52, biased - 1075, if fraction = 0 ∧ 1 < biased then 1 else 2⟩

/-- The fraction `n · 2 ^ a / 10 ^ b` as a quotient of naturals. -/
def quotient (n : Nat) (a b : Int) : Nat × Nat :=
  (n * Nat.pow 2 a.toNat * Nat.pow 10 (-b).toNat, Nat.pow 2 (-a).toNat * Nat.pow 10 b.toNat)

/-- The candidate with grid step `10 ^ e`: the neighbour of the value on that grid that lies in the
interval, the nearer one if both do, the even one if both are equally near. -/
def Interval.onGrid (v : Interval) (e : Int) : Option Nat :=
  let (n, d) := quotient (4 * v.significand) (v.exponent - 2) e
  let low := (quotient (4 * v.significand - v.below) (v.exponent - 2) e).1
  let high := (quotient (4 * v.significand + 2) (v.exponent - 2) e).1
  let inside (k : Nat) : Bool :=
    if v.significand % 2 = 0 then low ≤ k * d && k * d ≤ high else low < k * d && k * d < high
  let k := n / d
  match inside k, inside (k + 1) with
  | false, false => none
  | true, false => some k
  | false, true => some (k + 1)
  | true, true =>
    let r := n % d
    if 2 * r < d then some k
    else if d < 2 * r then some (k + 1)
    else some (if k % 2 = 0 then k else k + 1)

def trimZeros : Nat → Nat → Int → Nat × Int
  | 0, digits, e => (digits, e)
  | fuel + 1, digits, e =>
    if digits ≠ 0 ∧ digits % 10 = 0 then trimZeros fuel (digits / 10) (e + 1) else (digits, e)

/-- The number of decimal places before the point, counted negatively for zeros behind it. -/
def Interval.magnitude (v : Interval) : Int :=
  let (n, d) := quotient v.significand v.exponent 0
  if d ≤ n then ((Nat.toDigits 10 (n / d)).length : Int)
  else
    match (List.range 330).find? (fun j => d ≤ n * Nat.pow 10 (j + 1)) with
    | some j => -(j : Int)
    | none => -330

def Interval.shortest (v : Interval) : Nat × Int :=
  let top := v.magnitude
  match (List.range 18).findSome? (fun n =>
      (v.onGrid (top - (n + 1 : Nat))).map (fun k => (k, top - (n + 1 : Nat)))) with
  | some (k, e) => trimZeros 20 k e
  | none => (v.significand, v.exponent)

/-- The shortest decimal that reads back as the double `x`, for finite `x`. -/
def shortest (x : Float) : Decimal :=
  let bits := x.toBits.toNat
  let biased := bits / Nat.pow 2 52 % Nat.pow 2 11
  let fraction := bits % Nat.pow 2 52
  let negative := Nat.pow 2 63 ≤ bits
  if biased = 0 ∧ fraction = 0 then ⟨negative, 0, 0⟩
  else
    let (digits, exponent) := (Interval.ofParts biased fraction).shortest
    ⟨negative, digits, exponent⟩

end Decimal

end PipelineParams
