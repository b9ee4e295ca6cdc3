import PipelineParams.Decimal.Shortest

/-! # Writing a decimal

`Notation.write` writes a decimal positionally while its point stands near its digits, and with an
exponent otherwise.  Which distances count as near is the `Notation`.
-/

namespace PipelineParams.Decimal

/-- Where positional notation ends.  The place of the point is counted from the first digit to the
right, so `12.5` has its point at place two and `0.05` at place minus one. -/
structure Notation where
  /-- The last place of the point that is written positionally. -/
  last : Int
  /-- The first place of the point that is written positionally. -/
  first : Int
  deriving DecidableEq, Repr

def pointed : List Char → List Char
  | [] => []
  | [d] => [d]
  | d :: ds => d :: '.' :: ds

def signed (e : Int) : List Char :=
  (if 0 ≤ e then '+' else '-') :: Nat.toDigits 10 e.natAbs

/-- The decimal as text.  A whole number in positional notation has `.0`. -/
def Notation.write (n : Notation) (x : Decimal) : String :=
  let digits := Nat.toDigits 10 x.digits
  let place := x.exponent + digits.length
  let magnitude :=
    if x.digits = 0 then ['0', '.', '0']
    else if 0 ≤ x.exponent ∧ place ≤ n.last then
      digits ++ List.replicate x.exponent.toNat '0' ++ ['.', '0']
    else if 0 < place ∧ place ≤ n.last then
      digits.take place.toNat ++ '.' :: digits.drop place.toNat
    else if n.first ≤ place ∧ place ≤ 0 then
      '0' :: '.' :: List.replicate (-place).toNat '0' ++ digits
    else
      pointed digits ++ 'e' :: signed (place - 1)
  String.ofList (if x.negative then '-' :: magnitude else magnitude)

end PipelineParams.Decimal
