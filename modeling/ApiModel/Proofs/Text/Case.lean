import ApiModel.Text.Case

/-!
# ASCII text, and lower case of a text with digits behind it

A digit has no case, and it does not hide the end of a word from the letters before it. So a text with
digits behind it is put in lower case as without them, a sigma at its end included, and the digits stay
(`lowerChars_append_digits`).
-/

namespace ApiModel.Text

/-! ## ASCII text -/

/-- The text is made of ASCII characters. -/
def Ascii (chars : List Char) : Prop := ∀ c ∈ chars, c.toNat < 128

instance (chars : List Char) : Decidable (Ascii chars) :=
  List.decidableBAll (fun c : Char => c.toNat < 128) chars

theorem Ascii.append {chars rest : List Char} (h : Ascii chars) (hrest : Ascii rest) :
    Ascii (chars ++ rest) := by
  intro c hc
  rcases List.mem_append.1 hc with hc | hc
  · exact h c hc
  · exact hrest c hc

theorem ascii_flatMap {α : Type} {f : α → List Char} {xs : List α} (h : ∀ x ∈ xs, Ascii (f x)) :
    Ascii (xs.flatMap f) := by
  intro c hc
  obtain ⟨x, hx, hc⟩ := List.mem_flatMap.1 hc
  exact h x hx c hc

/-- What holds of the first 128 characters holds of every ASCII character. -/
theorem of_ascii {p : Char → Prop} (h : ∀ n < 128, p (Char.ofNat n)) {c : Char} (hc : c.toNat < 128) :
    p c :=
  Char.ofNat_toNat c ▸ h c.toNat hc

theorem toNat_lt_of_isAlphanum {c : Char} (h : c.isAlphanum) : c.toNat < 128 := by
  have hnat : c.toNat = c.val.toNat := rfl
  have hranges : (decide (65 ≤ c.val ∧ c.val ≤ 90) || (97 ≤ c.val && c.val ≤ 122) ||
      (48 ≤ c.val && c.val ≤ 57)) = true := h
  simp only [Bool.or_eq_true, Bool.and_eq_true, decide_eq_true_eq, UInt32.le_iff_toNat_le] at hranges
  simp at hranges
  omega

/-! ## Digits -/

theorem isAlphanum_of_isDigit {c : Char} (h : c.isDigit) : c.isAlphanum := by
  rw [Char.isAlphanum, h, Bool.or_true]

theorem lower_of_isDigit {c : Char} (h : c.isDigit) : lower c = [c] :=
  of_ascii (p := fun c => c.isDigit → lower c = [c]) (by decide +kernel)
    (toNat_lt_of_isAlphanum (isAlphanum_of_isDigit h)) h

/-- A digit is looked at when a word's letters are, and it is none of them. -/
theorem uncased_of_isDigit {c : Char} (h : c.isDigit) : isCaseIgnorable c = false ∧ isCased c = false :=
  of_ascii (p := fun c => c.isDigit → isCaseIgnorable c = false ∧ isCased c = false)
    (by decide +kernel) (toNat_lt_of_isAlphanum (isAlphanum_of_isDigit h)) h

theorem startsCased_append_digits (chars : List Char) {digits : List Char}
    (h : ∀ c ∈ digits, c.isDigit) : startsCased (chars ++ digits) = startsCased chars := by
  unfold startsCased
  rw [List.dropWhile_append]
  split
  · next hnone =>
    rw [List.isEmpty_iff.1 hnone]
    cases digits with
    | nil => rfl
    | cons c rest =>
      -- the first digit decides, and it is no letter
      obtain ⟨hseen, huncased⟩ := uncased_of_isDigit (h c List.mem_cons_self)
      rw [List.dropWhile_cons_of_neg (by simp [hseen])]
      simpa using huncased
  · next hsome =>
    cases hrest : chars.dropWhile isCaseIgnorable with
    | nil => exact absurd (List.isEmpty_iff.2 hrest) hsome
    | cons c rest => rfl

theorem lowerChars_of_digits (before : List Char) {digits : List Char} (h : ∀ c ∈ digits, c.isDigit) :
    lowerChars before digits = digits := by
  induction digits generalizing before with
  | nil => rfl
  | cons c rest ih =>
    have hc := h c List.mem_cons_self
    have hsigma : c ≠ 'Σ' := by
      rintro rfl
      cases hc
    rw [lowerChars, if_neg hsigma, lower_of_isDigit hc, ih _ fun d hd => h d (List.mem_cons_of_mem _ hd)]
    rfl

/-- Digits behind a text change nothing in it. -/
theorem lowerChars_append_digits (before chars : List Char) {digits : List Char}
    (h : ∀ c ∈ digits, c.isDigit) :
    lowerChars before (chars ++ digits) = lowerChars before chars ++ digits := by
  induction chars generalizing before with
  | nil => exact lowerChars_of_digits before h
  | cons c rest ih =>
    rw [List.cons_append, lowerChars, lowerChars, startsCased_append_digits rest h, ih,
      List.append_assoc]

end ApiModel.Text
