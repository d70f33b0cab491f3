/-!
UTF-8 as bytes. Decoding never fails: each longest run of bytes that could have begun a character
but does not complete one reads as U+FFFD.
-/

namespace ApiModel.Text.Utf8

/-- The character that stands for bytes that are no UTF-8. -/
def replacement : Char := '\ufffd'

/-- The bytes of a text. -/
def encode (chars : List Char) : List UInt8 := chars.flatMap String.utf8EncodeChar

/-- Whether a byte can follow the first byte of a character. -/
def isTail (b : UInt8) : Bool := 0x80 ≤ b && b ≤ 0xBF

/-- Whether `b` can follow the first byte `a` of a three-byte character. -/
def isSecondOf3 (a b : UInt8) : Bool :=
  if a = 0xE0 then 0xA0 ≤ b && b ≤ 0xBF
  else if a = 0xED then 0x80 ≤ b && b ≤ 0x9F
  else isTail b

/-- Whether `b` can follow the first byte `a` of a four-byte character. -/
def isSecondOf4 (a b : UInt8) : Bool :=
  if a = 0xF0 then 0x90 ≤ b && b ≤ 0xBF
  else if a = 0xF4 then 0x80 ≤ b && b ≤ 0x8F
  else isTail b

/-- The low six bits of a byte. -/
def low6 (b : UInt8) : Nat := b.toNat % 64

/-- Reads bytes as characters. -/
def decode : List UInt8 → List Char
  | [] => []
  | a :: rest =>
    if a < 0x80 then Char.ofNat a.toNat :: decode rest
    else if 0xC2 ≤ a && a ≤ 0xDF then
      match rest with
      | b :: tail =>
        if isTail b then Char.ofNat (a.toNat % 32 * 64 + low6 b) :: decode tail
        else replacement :: decode (b :: tail)
      | [] => [replacement]
    else if 0xE0 ≤ a && a ≤ 0xEF then
      match rest with
      | b :: c :: tail =>
        if isSecondOf3 a b then
          if isTail c then
            Char.ofNat (a.toNat % 16 * 4096 + low6 b * 64 + low6 c) :: decode tail
          else replacement :: decode (c :: tail)
        else replacement :: decode (b :: c :: tail)
      | [b] => if isSecondOf3 a b then [replacement] else replacement :: decode [b]
      | [] => [replacement]
    else if 0xF0 ≤ a && a ≤ 0xF4 then
      match rest with
      | b :: c :: d :: tail =>
        if isSecondOf4 a b then
          if isTail c then
            if isTail d then
              Char.ofNat (a.toNat % 8 * 262144 + low6 b * 4096 + low6 c * 64 + low6 d) ::
                decode tail
            else replacement :: decode (d :: tail)
          else replacement :: decode (c :: d :: tail)
        else replacement :: decode (b :: c :: d :: tail)
      | [b, c] =>
        if isSecondOf4 a b then
          if isTail c then [replacement] else replacement :: decode [c]
        else replacement :: decode [b, c]
      | [b] => if isSecondOf4 a b then [replacement] else replacement :: decode [b]
      | [] => [replacement]
    else replacement :: decode rest
termination_by bytes => bytes.length

end ApiModel.Text.Utf8
