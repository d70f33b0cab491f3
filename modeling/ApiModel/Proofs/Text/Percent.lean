import ApiModel.Proofs.Text.Utf8
import ApiModel.Text.Percent

/-!
# Percent coding is read back

A text that was coded decodes to itself, whatever characters were left as they are, as long as the percent
sign was not one of them.
-/

namespace ApiModel.Text.Percent

theorem hexValue?_hexDigit {n : Nat} (h : n < 16) : hexValue? (hexDigit n) = some n := by
  revert n
  decide

/-- A coded byte is read back. -/
theorem decodeBytes_encodeByte (b : UInt8) (rest : List Char) :
    decodeBytes (encodeByte b ++ rest) = b :: decodeBytes rest := by
  have hlt : b.toNat < 256 := b.toNat_lt
  have hvalue : b.toNat / 16 * 16 + b.toNat % 16 = b.toNat := by omega
  show decodeBytes ('%' :: hexDigit (b.toNat / 16) :: hexDigit (b.toNat % 16) :: rest) = _
  rw [decodeBytes, hexValue?_hexDigit (by omega), hexValue?_hexDigit (by omega)]
  dsimp only
  rw [hvalue, UInt8.ofNat_toNat]

theorem decodeBytes_flatMap_encodeByte (bytes : List UInt8) (rest : List Char) :
    decodeBytes (bytes.flatMap encodeByte ++ rest) = bytes ++ decodeBytes rest := by
  induction bytes with
  | nil => rfl
  | cons b bytes ih =>
    rw [List.flatMap_cons, List.append_assoc, decodeBytes_encodeByte, ih, List.cons_append]

/-- A character other than the percent sign stands for its own bytes. -/
theorem decodeBytes_cons {c : Char} (h : c ≠ '%') (rest : List Char) :
    decodeBytes (c :: rest) = String.utf8EncodeChar c ++ decodeBytes rest := by
  rw [decodeBytes]
  rintro _ _ _ rfl
  exact absurd rfl h

/-- A coded text stands for the bytes of the text. -/
theorem decodeBytes_encode {plain : Char → Bool} (hplain : plain '%' = false) (chars : List Char) :
    decodeBytes (encode plain chars) = Utf8.encode chars := by
  unfold encode Utf8.encode
  induction chars with
  | nil => rw [List.flatMap_nil, List.flatMap_nil, decodeBytes]
  | cons c rest ih =>
    rw [List.flatMap_cons, List.flatMap_cons]
    -- a plain character is no percent sign, so it is not taken for a code
    by_cases hc : plain c
    · have hne : c ≠ '%' := by
        rintro rfl
        rw [hplain] at hc
        cases hc
      rw [if_pos hc, List.singleton_append, decodeBytes_cons hne, ih]
    · rw [if_neg hc, decodeBytes_flatMap_encodeByte, ih]

/-- A coded text is read back. -/
theorem decode_encode {plain : Char → Bool} (hplain : plain '%' = false) (chars : List Char) :
    decode (encode plain chars) = chars := by
  rw [decode, decodeBytes_encode hplain, Utf8.decode_encode]

end ApiModel.Text.Percent
