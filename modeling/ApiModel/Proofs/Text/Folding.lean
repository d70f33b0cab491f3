import ApiModel.Proofs.Text.Singular

/-!
# Singulars in small letters

The tables and the rules look at a word in small letters, and what they put in its place does not hang on its
case either. So the singular in small letters is the singular of the word in small letters
(`map_toLower_singularizeChars`).
-/

namespace ApiModel.Text

/-! ## Endings -/

section Endings

variable {suffixes : List String} {chars stem ending : List Char}

/-- A text with one of the suffixes is a stem with the suffix behind it. -/
theorem exists_stem_of_endsInAny (h : endsInAny suffixes chars) :
    ∃ suffix ∈ suffixes, ∃ stem, chars = stem ++ suffix.toList := by
  obtain ⟨suffix, hmem, hsuffix⟩ := List.any_eq_true.1 h
  obtain ⟨stem, hstem⟩ := List.isSuffixOf_iff_suffix.1 hsuffix
  exact ⟨suffix, hmem, stem, hstem.symm⟩

/-- An ending that is no shorter than the suffixes decides about them. -/
theorem endsInAny_append (stem : List Char)
    (h : ∀ suffix ∈ suffixes, suffix.toList.length ≤ ending.length) :
    endsInAny suffixes (stem ++ ending) = endsInAny suffixes ending := by
  rw [Bool.eq_iff_iff, endsInAny, endsInAny, List.any_eq_true, List.any_eq_true]
  refine exists_congr fun suffix => and_congr_right fun hmem => ?_
  rw [List.isSuffixOf_iff_suffix, List.isSuffixOf_iff_suffix]
  constructor
  · intro hsuffix
    exact List.suffix_of_suffix_length_le hsuffix (List.suffix_append stem ending) (h suffix hmem)
  · intro hsuffix
    exact hsuffix.trans (List.suffix_append stem ending)

/-- A text without an ending has no suffix with that ending. -/
theorem endsInAny_eq_false (suffixes : List String) {endings : List String}
    (h : endsInAny endings chars = false)
    (hsuffixes : ∀ suffix ∈ suffixes, endsInAny endings suffix.toList) : endsInAny suffixes chars = false := by
  rw [Bool.eq_false_iff] at h ⊢
  intro hends
  obtain ⟨suffix, hmem, houter⟩ := List.any_eq_true.1 hends
  obtain ⟨ending, hending, hinner⟩ := List.any_eq_true.1 (hsuffixes suffix hmem)
  rw [List.isSuffixOf_iff_suffix] at houter hinner
  exact h (List.any_eq_true.2 ⟨ending, hending, List.isSuffixOf_iff_suffix.2 (hinner.trans houter)⟩)

theorem dropEnd_append {n : Nat} (stem : List Char) (h : n ≤ ending.length) :
    dropEnd n (stem ++ ending) = stem ++ dropEnd n ending := by
  have hlength : stem.length + ending.length - n = stem.length + (ending.length - n) := by omega
  rw [dropEnd, dropEnd, List.length_append, hlength, List.take_length_add_append]

theorem map_dropEnd (f : Char → Char) (n : Nat) : (dropEnd n chars).map f = dropEnd n (chars.map f) := by
  rw [dropEnd, dropEnd, List.map_take, List.length_map]

end Endings

/-! ## Small letters -/

theorem not_isUpper_toLower (c : Char) : ¬ c.toLower.isUpper := by
  by_cases h : c.isUpper
  · exact of_ascii (p := fun c => c.isUpper → ¬ c.toLower.isUpper) (by decide +kernel)
      (toNat_lt_of_isAlphanum (isAlphanum_of_isUpper h)) h
  · rwa [toLower_of_not_isUpper h]

theorem toLower_toLower (c : Char) : c.toLower.toLower = c.toLower :=
  toLower_of_not_isUpper (not_isUpper_toLower c)

theorem map_toLower_map_toLower (chars : List Char) :
    (chars.map Char.toLower).map Char.toLower = chars.map Char.toLower := by
  rw [List.map_map]
  exact List.map_congr_left fun c _ => toLower_toLower c

/-- A small letter is the small letter of its capital, and its own. -/
theorem casings_of_isLower {c : Char} (h : c.isLower) : c.toUpper.toLower = c ∧ c.toLower = c :=
  of_ascii (p := fun c => c.isLower → c.toUpper.toLower = c ∧ c.toLower = c) (by decide +kernel)
    (toNat_lt_of_isAlphanum (isAlphanum_of_isAlpha (isAlpha_of_isLower h))) h

theorem map_toLower_of_isLower {chars : List Char} (h : ∀ c ∈ chars, c.isLower) :
    chars.map Char.toLower = chars :=
  (List.map_congr_left fun c hc => (casings_of_isLower (h c hc)).2).trans (List.map_id chars)

/-- What is put in place of a word is the same for every case of the word, in small letters. -/
theorem map_toLower_matchCase (word : List Char) {replacement : List Char}
    (h : ∀ c ∈ replacement, c.isLower) : (matchCase word replacement).map Char.toLower = replacement := by
  unfold matchCase
  split
  · rw [List.map_map]
    exact (List.map_congr_left fun c hc => (casings_of_isLower (h c hc)).1).trans (List.map_id replacement)
  · split
    · cases replacement with
      | nil => rfl
      | cons c rest =>
        have hc := h c List.mem_cons_self
        have hrest : ∀ d ∈ rest, d.isLower := fun d hd => h d (List.mem_cons_of_mem c hd)
        rw [capitalizeChars, upper_of_isAlphanum (isAlphanum_of_isAlpha (isAlpha_of_isLower hc)),
          List.singleton_append, List.map_cons, (casings_of_isLower hc).1, map_toLower_of_isLower hrest]
    · exact map_toLower_of_isLower h

/-- A word in small letters asks for no capitals. -/
theorem matchCase_map_toLower (word replacement : List Char) :
    matchCase (word.map Char.toLower) replacement = replacement := by
  cases word with
  | nil => rfl
  | cons c rest =>
    have hc : c.toLower.isUpper = false := Bool.eq_false_iff.2 (not_isUpper_toLower c)
    simp [matchCase, hc]

theorem map_toLower_singularBySuffix (word folded : List Char) :
    (singularBySuffix word folded).map Char.toLower = singularBySuffix (word.map Char.toLower) folded := by
  unfold singularBySuffix
  simp only [apply_ite (List.map Char.toLower), List.map_append, map_dropEnd]
  rfl

/-- The singular in small letters is the singular of the word in small letters. -/
theorem map_toLower_singularizeChars (word : List Char) :
    (singularizeChars word).map Char.toLower = singularizeChars (word.map Char.toLower) := by
  unfold singularizeChars
  dsimp only
  rw [map_toLower_map_toLower]
  split
  · rfl
  · split
    · next singular hlookup =>
      have hletters := (irregularPlurals_spec _ (mem_irregularPlurals hlookup)).2
      rw [map_toLower_matchCase word hletters, matchCase_map_toLower]
    · exact map_toLower_singularBySuffix word _

end ApiModel.Text
