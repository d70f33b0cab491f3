import ApiModel.Proofs.Pointer
import ApiModel.Proofs.Text.Case
import ApiModel.Text.UpperCamel

/-!
# Upper camel case begins with a capital

The upper camel case of an ASCII text is made of ASCII letters and digits, and it begins with a capital
letter or a digit: the words are cut at every other character, and each piece of a word begins with its first
character as a capital (`titled_upperCamelChars`). Letters and digits of other scripts would be kept, so this
is said of ASCII texts only.
-/

namespace ApiModel.Text

/-- The text is made of letters and digits, and it begins with a capital or a digit unless it is empty. -/
def Titled (chars : List Char) : Prop :=
  (∀ c ∈ chars, c.isAlphanum) ∧ ∀ c ∈ chars.head?, c.isUpper ∨ c.isDigit

theorem titled_nil : Titled [] := ⟨fun _ hc => absurd hc List.not_mem_nil, fun _ hc => nomatch hc⟩

theorem Titled.append {chars rest : List Char} (h : Titled chars) (hrest : Titled rest) :
    Titled (chars ++ rest) := by
  cases chars with
  | nil => exact hrest
  | cons c chars =>
    refine ⟨fun d hd => ?_, h.2⟩
    rcases List.mem_append.1 hd with hd | hd
    · exact h.1 d hd
    · exact hrest.1 d hd

theorem titled_flatMap {α : Type} {f : α → List Char} {xs : List α} (h : ∀ x ∈ xs, Titled (f x)) :
    Titled (xs.flatMap f) := by
  induction xs with
  | nil => exact titled_nil
  | cons x xs ih =>
    exact (h x List.mem_cons_self).append (ih fun y hy => h y (List.mem_cons_of_mem x hy))

/-! ## Pieces of words -/

/-- The runs between breaks hold characters of the text, and no break. -/
theorem mem_of_mem_splitWhere {isBreak : Char → Bool} {chars run : List Char} {c : Char}
    (hrun : run ∈ splitWhere isBreak chars) (hc : c ∈ run) : c ∈ chars ∧ ¬ isBreak c := by
  induction chars generalizing run with
  | nil =>
    rw [List.mem_singleton.1 hrun] at hc
    cases hc
  | cons d rest ih =>
    have hlater : ∀ {run}, run ∈ splitWhere isBreak rest → c ∈ run → c ∈ d :: rest ∧ ¬ isBreak c :=
      fun hrun hc => (ih hrun hc).imp_left (List.mem_cons_of_mem d)
    rw [splitWhere] at hrun
    split at hrun
    · rcases List.mem_cons.1 hrun with rfl | hrun
      · cases hc
      · exact hlater hrun hc
    · next hd =>
      split at hrun
      · next hnil => exact absurd hnil (splitWhere_ne_nil isBreak rest)
      · next first runs hruns =>
        rw [hruns] at hlater
        rcases List.mem_cons.1 hrun with rfl | hrun
        · rcases List.mem_cons.1 hc with rfl | hc
          · exact ⟨List.mem_cons_self, hd⟩
          · exact hlater List.mem_cons_self hc
        · exact hlater (List.mem_cons_of_mem _ hrun) hc

/-- A word is cut into pieces that make it up again. -/
theorem flatten_humps (case : LetterCase) (piece chars : List Char) :
    (humps case piece chars).flatten = piece ++ chars := by
  fun_induction humps case piece chars with
  | case1 => rfl
  | case2 | case3 => simp
  | case4 _ _ _ _ _ _ ih | case5 _ _ _ _ _ _ _ ih | case6 _ _ _ _ _ _ _ ih => simp [ih]

theorem toUpper_of_isAlphanum {c : Char} (h : c.isAlphanum) :
    c.toUpper.isUpper ∨ c.toUpper.isDigit :=
  of_ascii (p := fun c => c.isAlphanum → c.toUpper.isUpper ∨ c.toUpper.isDigit) (by decide +kernel)
    (toNat_lt_of_isAlphanum h) h

theorem upper_of_isAlphanum {c : Char} (h : c.isAlphanum) : upper c = [c.toUpper] :=
  if_pos (toNat_lt_of_isAlphanum h)

theorem lower_of_isAlphanum {c : Char} (h : c.isAlphanum) : lower c = [c.toLower] :=
  if_pos (toNat_lt_of_isAlphanum h)

theorem toLower_of_isAlphanum {c : Char} (h : c.isAlphanum) : c.toLower.isAlphanum :=
  of_ascii (p := fun c => c.isAlphanum → c.toLower.isAlphanum) (by decide +kernel)
    (toNat_lt_of_isAlphanum h) h

theorem isAlphanum_of_isUpper {c : Char} (h : c.isUpper) : c.isAlphanum := by
  have hkinds : c.isAlphanum = (c.isUpper || c.isLower || c.isDigit) := rfl
  rw [hkinds, h, Bool.true_or, Bool.true_or]

/-- Lower case leaves letters and digits: none of them is a sigma. -/
theorem isAlphanum_lowerTail {chars : List Char} (h : ∀ c ∈ chars, c.isAlphanum) :
    ∀ c ∈ lowerTail chars, c.isAlphanum := by
  fun_induction lowerTail chars with
  | case1 => exact h
  | case2 => exact absurd (h 'Σ' List.mem_cons_self) (by decide)
  | case3 c _ =>
    have hc := h c List.mem_cons_self
    rw [lower_of_isAlphanum hc]
    exact fun d hd => List.mem_singleton.1 hd ▸ toLower_of_isAlphanum hc
  | case4 c rest _ ih =>
    have hc := h c List.mem_cons_self
    rw [lower_of_isAlphanum hc]
    intro d hd
    rcases List.mem_cons.1 hd with rfl | hd
    · exact toLower_of_isAlphanum hc
    · exact ih (fun e he => h e (List.mem_cons_of_mem c he)) d hd

theorem titled_titleChars {chars : List Char} (h : ∀ c ∈ chars, c.isAlphanum) :
    Titled (titleChars chars) := by
  cases chars with
  | nil => exact titled_nil
  | cons c rest =>
    have hc := h c List.mem_cons_self
    have hfirst := toUpper_of_isAlphanum hc
    rw [titleChars, upper_of_isAlphanum hc]
    refine ⟨fun d hd => ?_, fun d hd => Option.some.inj hd ▸ hfirst⟩
    rcases List.mem_cons.1 hd with rfl | hd
    · exact hfirst.elim isAlphanum_of_isUpper isAlphanum_of_isDigit
    · exact isAlphanum_lowerTail (fun e he => h e (List.mem_cons_of_mem c he)) d hd

/-- A text of letters and digits is titled once its first character is a capital. -/
theorem titled_capitalizeChars {chars : List Char} (h : ∀ c ∈ chars, c.isAlphanum) :
    Titled (capitalizeChars chars) := by
  cases chars with
  | nil => exact titled_nil
  | cons c rest =>
    have hc := h c List.mem_cons_self
    have hfirst := toUpper_of_isAlphanum hc
    rw [capitalizeChars, upper_of_isAlphanum hc]
    refine ⟨fun d hd => ?_, fun d hd => Option.some.inj hd ▸ hfirst⟩
    rcases List.mem_cons.1 hd with rfl | hd
    · exact hfirst.elim isAlphanum_of_isUpper isAlphanum_of_isDigit
    · exact h d (List.mem_cons_of_mem c hd)

/-- A capital or a digit is its own capital. -/
theorem toUpper_of_isUpper_or_isDigit {c : Char} (h : c.isUpper ∨ c.isDigit) : c.toUpper = c :=
  of_ascii (p := fun c => c.isUpper ∨ c.isDigit → c.toUpper = c) (by decide +kernel)
    (toNat_lt_of_isAlphanum (h.elim isAlphanum_of_isUpper isAlphanum_of_isDigit)) h

/-- There is nothing to capitalize in a titled text. -/
theorem Titled.capitalizeChars {chars : List Char} (h : Titled chars) : capitalizeChars chars = chars := by
  cases chars with
  | nil => rfl
  | cons c rest =>
    rw [Text.capitalizeChars, upper_of_isAlphanum (h.1 c List.mem_cons_self),
      toUpper_of_isUpper_or_isDigit (h.2 c rfl)]
    rfl

/-- The letters and digits of ASCII are those that are so called. -/
theorem isAlphanum_of_isWordChar {c : Char} (h : c.toNat < 128) (hword : isWordChar c) : c.isAlphanum := by
  rwa [isWordChar, if_pos h] at hword

/-- Upper camel case of an ASCII text is titled. -/
theorem titled_upperCamelChars {chars : List Char} (h : Ascii chars) : Titled (upperCamelChars chars) := by
  refine titled_flatMap fun hump hhump => titled_titleChars fun c hc => ?_
  obtain ⟨word, hword, hhump⟩ := List.mem_flatMap.1 hhump
  have hmem : c ∈ word := by
    rw [← List.nil_append word, ← flatten_humps .none [] word]
    exact List.mem_flatten_of_mem hhump hc
  obtain ⟨hc, hnobreak⟩ := mem_of_mem_splitWhere hword hmem
  exact isAlphanum_of_isWordChar (h c hc) (by simpa using hnobreak)

end ApiModel.Text
