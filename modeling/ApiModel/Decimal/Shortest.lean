import ApiModel.Decimal.Reading

/-!
The shortest decimal text of a double: the fewest significant digits that read back as the same
double, and among those the nearest.
-/

namespace ApiModel.Decimal

/-- A finite double as `significand * 2 ^ exponent`, without its sign. -/
def parts (bits : UInt64) : Nat × Int :=
  let biased : Nat := (bits.toNat / Nat.pow 2 52) % Nat.pow 2 11
  let fraction : Nat := bits.toNat % Nat.pow 2 52
  if biased = 0 then (fraction, -1074) else (fraction + Nat.pow 2 52, (biased : Int) - 1075)

/-- The numerator and denominator of a finite double, without its sign. -/
def ratio (bits : UInt64) : Nat × Nat :=
  let (significand, exponent) := parts bits
  if 0 ≤ exponent then (significand * Nat.pow 2 exponent.toNat, 1)
  else (significand, Nat.pow 2 (-exponent).toNat)

/-- The nearest multiple of `10 ^ exponent` to a ratio, in units of it; a half goes up. -/
def roundTo (numerator denominator : Nat) (exponent : Int) : Nat :=
  if 0 ≤ exponent then
    let unit := denominator * Nat.pow 10 exponent.toNat
    (2 * numerator + unit) / (2 * unit)
  else
    (2 * numerator * Nat.pow 10 (-exponent).toNat + denominator) / (2 * denominator)

/-- Tries grids of decimal places, the coarsest first, and ends with the last one. -/
def search (bits : UInt64) (top : Int) : List Nat → Nat × Int
  | [] => (0, 0)
  | count :: finer =>
    let (numerator, denominator) := ratio bits
    let exponent := top - count
    let digits := roundTo numerator denominator exponent
    if finer = [] || (nearest digits exponent).toBits = bits then (digits, exponent)
    else search bits top finer

/-- Digits and exponent of the shortest decimal for a finite double without sign. -/
def shortest (bits : UInt64) : Nat × Int :=
  let (numerator, denominator) := ratio bits
  let top : Int := (width numerator : Int) - width denominator + 1
  search bits top ((List.range 19).map (· + 1))

/-- Drops zeros at the end of the digits. `bound` limits the steps. -/
def trim (digits : Nat) (exponent : Int) : Nat → Nat × Int
  | 0 => (digits, exponent)
  | bound + 1 =>
    if digits ≠ 0 && digits % 10 = 0 then trim (digits / 10) (exponent + 1) bound
    else (digits, exponent)

/-- A number with a point or an exponent: positional with the point from five places before the
first digit to sixteen after it. -/
def floatText (bits : UInt64) : String :=
  let sign := if bits.toNat / Nat.pow 2 63 = 1 then "-" else ""
  let magnitude := UInt64.ofNat (bits.toNat % Nat.pow 2 63)
  if magnitude = 0 then sign ++ "0.0"
  else
    let (found, foundExponent) := shortest magnitude
    let (digits, exponent) := trim found foundExponent 40
    let text := toString digits
    let point := (text.length : Int) + exponent
    let body :=
      if 0 ≤ exponent && point ≤ 16 then
        text ++ String.ofList (List.replicate exponent.toNat '0') ++ ".0"
      else if 0 < point && point ≤ 16 then
        String.ofList (text.toList.take point.toNat) ++ "." ++
          String.ofList (text.toList.drop point.toNat)
      else if -5 < point && point ≤ 0 then
        "0." ++ String.ofList (List.replicate (-point).toNat '0') ++ text
      else
        let tail := text.toList.drop 1
        String.ofList (text.toList.take 1) ++
          (if tail = [] then "" else "." ++ String.ofList tail) ++ "e" ++ toString (point - 1)
    sign ++ body

end ApiModel.Decimal
