/-! # Hexadecimal digits

Escapes name a character by hexadecimal digits of either case.
-/

namespace PipelineParams.Text

def hexDigit? (c : Char) : Option Nat :=
  if '0' ≤ c ∧ c ≤ '9' then some (c.toNat - '0'.toNat)
  else if 'a' ≤ c ∧ c ≤ 'f' then some (c.toNat - 'a'.toNat + 10)
  else if 'A' ≤ c ∧ c ≤ 'F' then some (c.toNat - 'A'.toNat + 10)
  else none

/-- Reads `count` hexadecimal digits behind those whose value is `value`. -/
def readHex (value : Nat) : Nat → List Char → Option (Nat × List Char)
  | 0, cs => some (value, cs)
  | _ + 1, [] => none
  | count + 1, c :: cs =>
    match hexDigit? c with
    | some d => readHex (value * 16 + d) count cs
    | none => none

theorem length_of_readHex {value count n : Nat} {cs rest : List Char}
    (h : readHex value count cs = some (n, rest)) : rest.length + count = cs.length := by
  induction count generalizing value cs with
  | zero => cases h; rfl
  | succ count ih =>
    cases cs with
    | nil => cases h
    | cons c cs =>
      rw [readHex] at h
      split at h
      · have := ih h
        simp only [List.length_cons]
        omega
      · cases h

end PipelineParams.Text
