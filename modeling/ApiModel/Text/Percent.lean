import ApiModel.Text.Utf8

/-!
Percent coding: a byte written as `%` and two hexadecimal digits.
-/

namespace ApiModel.Text.Percent

/-- A hexadecimal digit, capitals for ten to fifteen. -/
def hexDigit (n : Nat) : Char :=
  if n < 10 then Char.ofNat (48 + n) else Char.ofNat (55 + n)

/-- The value of a hexadecimal digit of either case. -/
def hexValue? (c : Char) : Option Nat :=
  if '0' ≤ c && c ≤ '9' then some (c.toNat - 48)
  else if 'A' ≤ c && c ≤ 'F' then some (c.toNat - 55)
  else if 'a' ≤ c && c ≤ 'f' then some (c.toNat - 87)
  else none

/-- A byte as `%` and two digits. -/
def encodeByte (b : UInt8) : List Char := ['%', hexDigit (b.toNat / 16), hexDigit (b.toNat % 16)]

/-- Writes the characters that satisfy `plain` as they are and the bytes of all others coded. -/
def encode (plain : Char → Bool) (chars : List Char) : List Char :=
  chars.flatMap fun c => if plain c then [c] else (String.utf8EncodeChar c).flatMap encodeByte

/-- The bytes a text stands for. A `%` without two digits after it stands for itself. -/
def decodeBytes : List Char → List UInt8
  | '%' :: a :: b :: rest =>
    match hexValue? a, hexValue? b with
    | some high, some low => UInt8.ofNat (high * 16 + low) :: decodeBytes rest
    | _, _ => 0x25 :: decodeBytes (a :: b :: rest)
  | c :: rest => String.utf8EncodeChar c ++ decodeBytes rest
  | [] => []

/-- The text a coded text stands for. -/
def decode (chars : List Char) : List Char := Utf8.decode (decodeBytes chars)

end ApiModel.Text.Percent
