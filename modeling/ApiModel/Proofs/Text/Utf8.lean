import ApiModel.Text.Utf8

/-!
# UTF-8 is read back

Decoding the bytes of a text gives the text. The bytes of one character are decoded by the branch for
their number, and what follows them is decoded by itself.
-/

namespace ApiModel.Text.Utf8

theorem between_iff (low high a : UInt8) :
    (low ≤ a && a ≤ high) = true ↔ low.toNat ≤ a.toNat ∧ a.toNat ≤ high.toNat := by
  simp only [Bool.and_eq_true, decide_eq_true_eq, UInt8.le_iff_toNat_le]

theorem isTail_iff {b : UInt8} : isTail b = true ↔ 0x80 ≤ b.toNat ∧ b.toNat ≤ 0xBF :=
  between_iff 0x80 0xBF b

/-- Where a second byte of three must lie. -/
theorem isSecondOf3_of_toNat {a b : UInt8} (hb : 0x80 ≤ b.toNat ∧ b.toNat ≤ 0xBF)
    (hlow : a.toNat = 0xE0 → 0xA0 ≤ b.toNat) (hhigh : a.toNat = 0xED → b.toNat ≤ 0x9F) :
    isSecondOf3 a b = true := by
  unfold isSecondOf3
  split
  · next ha => exact (between_iff 0xA0 0xBF b).2 ⟨hlow (congrArg UInt8.toNat ha), hb.2⟩
  · split
    · next ha => exact (between_iff 0x80 0x9F b).2 ⟨hb.1, hhigh (congrArg UInt8.toNat ha)⟩
    · exact isTail_iff.2 hb

/-- Where a second byte of four must lie. -/
theorem isSecondOf4_of_toNat {a b : UInt8} (hb : 0x80 ≤ b.toNat ∧ b.toNat ≤ 0xBF)
    (hlow : a.toNat = 0xF0 → 0x90 ≤ b.toNat) (hhigh : a.toNat = 0xF4 → b.toNat ≤ 0x8F) :
    isSecondOf4 a b = true := by
  unfold isSecondOf4
  split
  · next ha => exact (between_iff 0x90 0xBF b).2 ⟨hlow (congrArg UInt8.toNat ha), hb.2⟩
  · split
    · next ha => exact (between_iff 0x80 0x8F b).2 ⟨hb.1, hhigh (congrArg UInt8.toNat ha)⟩
    · exact isTail_iff.2 hb

/-! ## The bytes of one character -/

section

variable {a b c d : UInt8} (rest : List UInt8)

theorem decode_one (ha : a.toNat < 0x80) :
    decode (a :: rest) = Char.ofNat a.toNat :: decode rest := by
  have hone : a < 0x80 := UInt8.lt_iff_toNat_lt.2 ha
  rw [decode.eq_def]
  simp only [hone, if_true]

theorem not_one_of_le (ha : 0x80 ≤ a.toNat) : ¬ a < 0x80 := by
  rw [UInt8.lt_iff_toNat_lt]
  exact Nat.not_lt.2 ha

theorem decode_two (ha : 0xC2 ≤ a.toNat ∧ a.toNat ≤ 0xDF) (hb : isTail b) :
    decode (a :: b :: rest) = Char.ofNat (a.toNat % 32 * 64 + low6 b) :: decode rest := by
  have hone := not_one_of_le (a := a) (by omega)
  have htwo := (between_iff 0xC2 0xDF a).2 ha
  rw [decode.eq_def]
  simp only [hone, htwo, hb, if_true, if_false]

theorem decode_three (ha : 0xE0 ≤ a.toNat ∧ a.toNat ≤ 0xEF) (hb : isSecondOf3 a b)
    (hc : isTail c) :
    decode (a :: b :: c :: rest) =
      Char.ofNat (a.toNat % 16 * 4096 + low6 b * 64 + low6 c) :: decode rest := by
  have hone := not_one_of_le (a := a) (by omega)
  have htwo : ¬ (0xC2 ≤ a && a ≤ 0xDF) = true := by
    rw [between_iff]
    exact fun h => absurd (Nat.le_trans ha.1 h.2) (by decide)
  have hthree := (between_iff 0xE0 0xEF a).2 ha
  rw [decode.eq_def]
  simp only [hone, htwo, hthree, hb, hc, if_true, if_false, Bool.false_eq_true]

theorem decode_four (ha : 0xF0 ≤ a.toNat ∧ a.toNat ≤ 0xF4) (hb : isSecondOf4 a b)
    (hc : isTail c) (hd : isTail d) :
    decode (a :: b :: c :: d :: rest) =
      Char.ofNat (a.toNat % 8 * 262144 + low6 b * 4096 + low6 c * 64 + low6 d) ::
        decode rest := by
  have hone := not_one_of_le (a := a) (by omega)
  have htwo : ¬ (0xC2 ≤ a && a ≤ 0xDF) = true := by
    rw [between_iff]
    exact fun h => absurd (Nat.le_trans ha.1 h.2) (by decide)
  have hthree : ¬ (0xE0 ≤ a && a ≤ 0xEF) = true := by
    rw [between_iff]
    exact fun h => absurd (Nat.le_trans ha.1 h.2) (by decide)
  have hfour := (between_iff 0xF0 0xF4 a).2 ha
  rw [decode.eq_def]
  simp only [hone, htwo, hthree, hfour, hb, hc, hd, if_true, if_false, Bool.false_eq_true]

end

/-! ## Texts -/

theorem toNat_ofNat_of_lt {n : Nat} (h : n < 256) : (UInt8.ofNat n).toNat = n := by
  rw [UInt8.toNat_ofNat']
  exact Nat.mod_eq_of_lt h

/-- The bytes of a character are decoded to it, and what follows them by itself. -/
theorem decode_utf8EncodeChar (c : Char) (rest : List UInt8) :
    decode (String.utf8EncodeChar c ++ rest) = c :: decode rest := by
  have hvalid : c.val.toNat < 0xD800 ∨ 0xDFFF < c.val.toNat ∧ c.val.toNat < 0x110000 := c.valid
  have hback : ∀ n, n = c.val.toNat → Char.ofNat n = c := by
    rintro n rfl
    exact Char.ofNat_toNat c
  unfold String.utf8EncodeChar
  generalize c.val.toNat = v at hvalid hback ⊢
  dsimp only
  -- one case for each length of a code; a surrogate would not be read back in the third
  split
  · have ha : (UInt8.ofNat v).toNat = v := toNat_ofNat_of_lt (by omega)
    show decode (UInt8.ofNat v :: rest) = _
    rw [decode_one rest (by omega), ha, hback v rfl]
  · split
    · have ha := toNat_ofNat_of_lt (n := v / 64 % 0x20 + 0xc0) (by omega)
      have hb := toNat_ofNat_of_lt (n := v % 0x40 + 0x80) (by omega)
      show decode (UInt8.ofNat _ :: UInt8.ofNat _ :: rest) = _
      rw [decode_two rest (by omega) (isTail_iff.2 (by omega)), low6, ha, hb, hback _ (by omega)]
    · split
      · have ha := toNat_ofNat_of_lt (n := v / 4096 % 0x10 + 0xe0) (by omega)
        have hb := toNat_ofNat_of_lt (n := v / 64 % 0x40 + 0x80) (by omega)
        have hc := toNat_ofNat_of_lt (n := v % 0x40 + 0x80) (by omega)
        show decode (UInt8.ofNat _ :: UInt8.ofNat _ :: UInt8.ofNat _ :: rest) = _
        rw [decode_three rest (by omega)
          (isSecondOf3_of_toNat (by omega) (by omega) (by omega)) (isTail_iff.2 (by omega)),
          low6, low6, ha, hb, hc, hback _ (by omega)]
      · have ha := toNat_ofNat_of_lt (n := v / 262144 % 0x08 + 0xf0) (by omega)
        have hb := toNat_ofNat_of_lt (n := v / 4096 % 0x40 + 0x80) (by omega)
        have hc := toNat_ofNat_of_lt (n := v / 64 % 0x40 + 0x80) (by omega)
        have hd := toNat_ofNat_of_lt (n := v % 0x40 + 0x80) (by omega)
        show decode (UInt8.ofNat _ :: UInt8.ofNat _ :: UInt8.ofNat _ :: UInt8.ofNat _ :: rest) = _
        rw [decode_four rest (by omega)
          (isSecondOf4_of_toNat (by omega) (by omega) (by omega)) (isTail_iff.2 (by omega))
          (isTail_iff.2 (by omega)), low6, low6, low6, ha, hb, hc, hd, hback _ (by omega)]

/-- The bytes of a text are decoded to it. -/
theorem decode_encode (chars : List Char) : decode (encode chars) = chars := by
  unfold encode
  induction chars with
  | nil => rw [List.flatMap_nil, decode]
  | cons c rest ih => rw [List.flatMap_cons, decode_utf8EncodeChar, ih]

end ApiModel.Text.Utf8
