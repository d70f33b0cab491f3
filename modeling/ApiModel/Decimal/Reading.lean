/-!
Decimal numbers as binary floating point. `nearest` rounds correctly; `scaled` multiplies or divides
by one power of ten and so may be off by a last bit.
-/

namespace ApiModel.Decimal

/-- The number of decimal digits. -/
def width (n : Nat) : Nat := (Nat.toDigits 10 n).length

/-- A number with the sign put to it. -/
def signed (negative : Bool) (magnitude : Float) : Float := if negative then -magnitude else magnitude

/-- The double nearest to `significand * 10 ^ exponent`, infinite beyond the largest one. -/
def nearest (significand : Nat) (exponent : Int) : Float :=
  let size := exponent + width significand
  if significand = 0 || size < -330 then 0
  else if 400 < size then 1 / 0
  else if 0 ≤ exponent then Float.ofScientific (significand * Nat.pow 10 exponent.toNat) false 0
  else Float.ofScientific significand true (-exponent).toNat

/-- A power of ten. -/
def power (exponent : Nat) : Float := Float.ofScientific 1 false exponent

/-- Divides by a power of ten, by at most `10 ^ 308` at a time. -/
def divide (value : Float) (exponent : Nat) : Float :=
  if exponent ≤ 308 then value / power exponent
  else if value == 0 then value
  else divide (value / power 308) (exponent - 308)
termination_by exponent

/-- `significand * 10 ^ exponent` by one multiplication or by divisions; none if it is too large. -/
def scaled? (significand : Nat) (exponent : Int) : Option Float :=
  let value := Float.ofNat significand
  if exponent < 0 then some (divide value (-exponent).toNat)
  else if value == 0 then some value
  else if 308 < exponent then none
  else
    let product := value * power exponent.toNat
    if product.isInf then none else some product

end ApiModel.Decimal
