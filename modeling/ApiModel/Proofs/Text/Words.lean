import ApiModel.Proofs.Text.UpperCamel

/-!
# Words in two casings

Classifying joins words, each with a capital, and uncapitalizing takes the capital off the first of them. On
ASCII text this loses nothing: what is joined has no delimiters left and begins with a character that has no
other capital (`Pascal`), so that classifying it once more changes nothing, with or without its first capital
(`Pascal.classifyChars_uncapitalizeChars`).
-/

namespace ApiModel.Text

/-! ## Casings of ASCII text -/

/-- What the capital and the small letter of an ASCII character are like, and when they are delimiters. -/
theorem casings_of_ascii {c : Char} (h : c.toNat < 128) :
    (c.toUpper.toNat < 128 ∧ c.toUpper.toUpper = c.toUpper ∧ c.toUpper.toLower = c.toLower) ∧
      (c.toLower.toNat < 128 ∧ (c.toUpper = c → c.toLower.toUpper = c)) ∧
      (isDelimiter c.toUpper → isDelimiter c) ∧
      (c.toUpper = c → isDelimiter c.toLower → isDelimiter c) ∧ (c.isAlphanum → ¬ isDelimiter c) :=
  of_ascii (p := fun c =>
      (c.toUpper.toNat < 128 ∧ c.toUpper.toUpper = c.toUpper ∧ c.toUpper.toLower = c.toLower) ∧
        (c.toLower.toNat < 128 ∧ (c.toUpper = c → c.toLower.toUpper = c)) ∧
        (isDelimiter c.toUpper → isDelimiter c) ∧
        (c.toUpper = c → isDelimiter c.toLower → isDelimiter c) ∧ (c.isAlphanum → ¬ isDelimiter c))
    (by decide +kernel) h

theorem not_isDelimiter_of_isAlphanum {c : Char} (h : c.isAlphanum) : ¬ isDelimiter c :=
  (casings_of_ascii (toNat_lt_of_isAlphanum h)).2.2.2.2 h

theorem ascii_upper {c : Char} (h : c.toNat < 128) : Ascii (upper c) := by
  intro d hd
  rw [upper, if_pos h, List.mem_singleton] at hd
  exact hd ▸ (casings_of_ascii h).1.1

theorem Ascii.capitalizeChars {chars : List Char} (h : Ascii chars) : Ascii (capitalizeChars chars) := by
  cases chars with
  | nil => exact h
  | cons c rest =>
    exact (ascii_upper (h c List.mem_cons_self)).append fun d hd => h d (List.mem_cons_of_mem c hd)

theorem ascii_lower {c : Char} (h : c.toNat < 128) : Ascii (lower c) := by
  intro d hd
  rw [lower, if_pos h, List.mem_singleton] at hd
  exact hd ▸ (casings_of_ascii h).2.1.1

/-- The capital of an ASCII character has the same small letter. -/
theorem lower_toUpper {c : Char} (h : c.toNat < 128) : lower c.toUpper = lower c := by
  obtain ⟨⟨hupper, -, hsame⟩, -⟩ := casings_of_ascii h
  rw [lower, lower, if_pos hupper, if_pos h, hsame]

/-- Lower case keeps to ASCII: a sigma is none of its characters. -/
theorem Ascii.lowerChars {chars : List Char} (h : Ascii chars) (before : List Char) :
    Ascii (lowerChars before chars) := by
  induction chars generalizing before with
  | nil => exact h
  | cons c rest ih =>
    have hc := h c List.mem_cons_self
    have hsigma : c ≠ 'Σ' := by
      rintro rfl
      exact absurd hc (by decide)
    rw [Text.lowerChars, if_neg hsigma]
    exact (ascii_lower hc).append (ih (fun d hd => h d (List.mem_cons_of_mem c hd)) _)

/-! ## Text in Pascal case -/

/-- The text holds no delimiter, and it begins with an ASCII character that is its own capital. -/
def Pascal (chars : List Char) : Prop :=
  (∀ c ∈ chars, ¬ isDelimiter c) ∧ ∀ c ∈ chars.head?, c.toNat < 128 ∧ c.toUpper = c

theorem pascal_nil : Pascal [] := ⟨fun _ hc => absurd hc List.not_mem_nil, fun _ hc => nomatch hc⟩

theorem Pascal.append {chars rest : List Char} (h : Pascal chars) (hrest : Pascal rest) :
    Pascal (chars ++ rest) := by
  cases chars with
  | nil => exact hrest
  | cons c chars =>
    refine ⟨fun d hd => ?_, h.2⟩
    rcases List.mem_append.1 hd with hd | hd
    · exact h.1 d hd
    · exact hrest.1 d hd

theorem pascal_flatMap {α : Type} {f : α → List Char} {xs : List α} (h : ∀ x ∈ xs, Pascal (f x)) :
    Pascal (xs.flatMap f) := by
  induction xs with
  | nil => exact pascal_nil
  | cons x xs ih =>
    exact (h x List.mem_cons_self).append (ih fun y hy => h y (List.mem_cons_of_mem x hy))

/-- A word of ASCII characters is in Pascal case once its first character is a capital. -/
theorem pascal_capitalizeChars {word : List Char} (h : Ascii word) (hword : ∀ c ∈ word, ¬ isDelimiter c) :
    Pascal (capitalizeChars word) := by
  cases word with
  | nil => exact pascal_nil
  | cons c rest =>
    have hc := h c List.mem_cons_self
    obtain ⟨⟨hupper, hfirst, -⟩, -, hdelimiter, -⟩ := casings_of_ascii hc
    rw [capitalizeChars, upper, if_pos hc]
    refine ⟨fun d hd => ?_, fun d hd => Option.some.inj hd ▸ ⟨hupper, hfirst⟩⟩
    rcases List.mem_cons.1 hd with rfl | hd
    · exact fun hd => hword c List.mem_cons_self (hdelimiter hd)
    · exact hword d (List.mem_cons_of_mem c hd)

/-- Classifying ASCII text gives Pascal case, whatever its words are. -/
theorem pascal_classifyChars {chars : List Char} (h : Ascii chars) : Pascal (classifyChars chars) :=
  pascal_flatMap fun _ hword =>
    pascal_capitalizeChars (fun c hc => h c (mem_of_mem_splitWhere hword hc).1)
      fun _ hc => (mem_of_mem_splitWhere hword hc).2

/-- Letters and digits behind a capital or a digit are in Pascal case. -/
theorem Titled.pascal {chars : List Char} (h : Titled chars) : Pascal chars := by
  refine ⟨fun c hc => ?_, fun c hc => ?_⟩
  · exact not_isDelimiter_of_isAlphanum (h.1 c hc)
  · exact ⟨toNat_lt_of_isAlphanum (h.1 c (List.mem_of_head? hc)),
      toUpper_of_isUpper_or_isDigit (h.2 c hc)⟩

section Pascal

variable {chars : List Char}

/-- A text without delimiters is one word. -/
theorem classifyChars_of_not_isDelimiter (h : ∀ c ∈ chars, ¬ isDelimiter c) :
    classifyChars chars = capitalizeChars chars := by
  rw [classifyChars, splitWhere_of_not_mem h, List.flatMap_singleton]

/-- There is nothing to classify in Pascal case. -/
theorem Pascal.classifyChars (h : Pascal chars) : classifyChars chars = chars := by
  rw [classifyChars_of_not_isDelimiter h.1]
  cases chars with
  | nil => rfl
  | cons c rest =>
    obtain ⟨hascii, hsame⟩ := h.2 c rfl
    rw [capitalizeChars, upper, if_pos hascii, hsame]
    rfl

/-- Classifying gives the first capital back. -/
theorem Pascal.classifyChars_uncapitalizeChars (h : Pascal chars) :
    Text.classifyChars (uncapitalizeChars chars) = chars := by
  cases chars with
  | nil => rfl
  | cons c rest =>
    obtain ⟨hascii, hsame⟩ := h.2 c rfl
    obtain ⟨-, ⟨hlower, hcapital⟩, -, hdelimiter, -⟩ := casings_of_ascii hascii
    have hwords : ∀ d ∈ c.toLower :: rest, ¬ isDelimiter d := by
      intro d hd
      rcases List.mem_cons.1 hd with rfl | hd
      · exact fun hd => h.1 c List.mem_cons_self (hdelimiter hsame hd)
      · exact h.1 d (List.mem_cons_of_mem c hd)
    rw [uncapitalizeChars, lower, if_pos hascii, List.singleton_append,
      classifyChars_of_not_isDelimiter hwords, capitalizeChars, upper, if_pos hlower, hcapital hsame]
    rfl

end Pascal

end ApiModel.Text
