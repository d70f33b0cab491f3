import ApiModel.Decimal.Reading
import ApiModel.Document

/-!
JSON numbers. A literal without a fraction or exponent is an integer if it fits 64 bits, with or
without sign; every other literal is a double. At most as many digits count as fit 64 bits.
-/

namespace ApiModel.Json

/-- A number as it is written. -/
structure Literal where
  negative : Bool
  /-- The digits before the point. -/
  whole : List Nat
  /-- The digits after the point, if there is one. -/
  fraction : Option (List Nat)
  exponent : Option Int

namespace Literal

/-- Takes digits into a significand as long as it stays below 2^64, and counts the digits left. -/
def take (significand : Nat) : List Nat → Nat × Nat
  | [] => (significand, 0)
  | digit :: rest =>
    if significand * 10 + digit < Nat.pow 2 64 then take (significand * 10 + digit) rest
    else (significand, rest.length + 1)

/-- The value of a literal; none if it is beyond the largest double. -/
def value? (literal : Literal) : Option Document :=
  let (whole, skipped) := take 0 literal.whole
  let isInteger := literal.fraction.isNone && literal.exponent.isNone && skipped = 0
  if isInteger && !literal.negative then some (.int whole)
  else if isInteger && whole ≠ 0 && whole ≤ Nat.pow 2 63 then some (.int (-whole))
  else
    let fraction := literal.fraction.getD []
    let (significand, unused) := take whole fraction
    let places : Int := fraction.length - unused
    let exponent := (skipped : Int) - places + literal.exponent.getD 0
    (Decimal.scaled? significand exponent).map fun magnitude =>
      .float (Decimal.signed literal.negative magnitude).toBits

end Literal

end ApiModel.Json
