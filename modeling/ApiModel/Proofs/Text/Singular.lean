import ApiModel.Proofs.Text.UpperCamel
import ApiModel.Text.Singular

/-!
# Singulars begin as their plurals

A suffix rule takes characters from the end of a word, and never all of them. An irregular singular begins
with the letter that its plural begins with, and gets the case of the word. So the first character of a word
stays (`head?_singularizeChars`), and all that can be new behind it are letters (`mem_singularizeChars`).
-/

namespace ApiModel.Text

/-! ## Suffix rules -/

theorem head?_dropEnd {n : Nat} {word : List Char} (h : n < word.length) :
    (dropEnd n word).head? = word.head? := by
  rw [dropEnd, List.head?_take, if_neg (by omega)]

/-- A text with one of the suffixes is at least as long as the suffix, and longer if it is another text. -/
theorem exists_suffix_of_endsInAny {suffixes : List String} {chars : List Char}
    (h : endsInAny suffixes chars) :
    ∃ suffix ∈ suffixes, suffix.toList.length ≤ chars.length ∧
      (chars ≠ suffix.toList → suffix.toList.length < chars.length) := by
  obtain ⟨suffix, hmem, hsuffix⟩ := List.any_eq_true.1 h
  have hsuffix := List.isSuffixOf_iff_suffix.1 hsuffix
  refine ⟨suffix, hmem, hsuffix.length_le, fun hne => ?_⟩
  exact Nat.lt_of_le_of_ne hsuffix.length_le fun heq => hne (hsuffix.eq_of_length heq).symm

/-- The rules leave a word as it is, or they drop some of its end but not all of it, and may put a `y`
there. -/
theorem singularBySuffix_cases (word : List Char) :
    singularBySuffix word (word.map Char.toLower) = word ∨ ∃ n < word.length,
      singularBySuffix word (word.map Char.toLower) = dropEnd n word ∨
        singularBySuffix word (word.map Char.toLower) = dropEnd n word ++ ['y'] := by
  have hlength : word.length = (word.map Char.toLower).length := (List.length_map Char.toLower).symm
  rw [hlength]
  generalize word.map Char.toLower = folded
  unfold singularBySuffix
  split
  · next hies =>
    obtain ⟨hbytes, hends⟩ := Bool.and_eq_true_iff.1 hies
    obtain ⟨suffix, hsuffix, -, hlonger⟩ := exists_suffix_of_endsInAny hends
    rw [List.mem_singleton.1 hsuffix] at hlonger
    have hne : folded ≠ "ies".toList := by
      rintro rfl
      revert hbytes
      decide
    exact Or.inr ⟨3, hlonger hne, Or.inr rfl⟩
  · split
    · next hends =>
      obtain ⟨suffix, hsuffix, hlength, -⟩ := exists_suffix_of_endsInAny hends
      rw [List.mem_singleton.1 hsuffix] at hlength
      exact Or.inr ⟨3, Nat.lt_of_lt_of_le (by decide) hlength, Or.inl rfl⟩
    · split
      · next hends =>
        obtain ⟨suffix, hsuffix, hlength, -⟩ := exists_suffix_of_endsInAny hends
        have hlong : ∀ suffix ∈ ["sses", "xes", "ches", "shes", "zzes"],
            2 < suffix.toList.length := by decide
        exact Or.inr ⟨2, Nat.lt_of_lt_of_le (hlong suffix hsuffix) hlength, Or.inl rfl⟩
      · split
        · exact Or.inl rfl
        · split
          · next hs =>
            obtain ⟨hbytes, hends⟩ := Bool.and_eq_true_iff.1 hs
            obtain ⟨suffix, hsuffix, -, hlonger⟩ := exists_suffix_of_endsInAny hends
            rw [List.mem_singleton.1 hsuffix] at hlonger
            have hne : folded ≠ "s".toList := by
              rintro rfl
              revert hbytes
              decide
            exact Or.inr ⟨1, hlonger hne, Or.inl rfl⟩
          · exact Or.inl rfl

/-! ## Irregular plurals -/

/-- A plural and its singular begin with the same letter, and a singular is made of small letters. -/
theorem irregularPlurals_spec : ∀ entry ∈ irregularPlurals,
    entry.2.toList.head? = entry.1.toList.head? ∧ ∀ c ∈ entry.2.toList, c.isLower := by
  have htable : ∀ entry ∈ irregularPlurals,
      entry.2.toList.head? = entry.1.toList.head? ∧ entry.2.toList.all Char.isLower := by
    decide +kernel
  intro entry hentry
  obtain ⟨hhead, hall⟩ := htable entry hentry
  exact ⟨hhead, List.all_eq_true.1 hall⟩

theorem toLower_of_not_isUpper {c : Char} (h : ¬ c.isUpper) : c.toLower = c :=
  dif_neg fun hrange => h (decide_eq_true hrange)

/-- A capital is the capital of its small letter. -/
theorem capital_of_isUpper {c : Char} (h : c.isUpper) :
    c.toLower.toUpper = c ∧ upper c.toLower = [c] :=
  of_ascii (p := fun c => c.isUpper → c.toLower.toUpper = c ∧ upper c.toLower = [c]) (by decide +kernel)
    (toNat_lt_of_isAlphanum (isAlphanum_of_isUpper h)) h

theorem isAlpha_of_isLower {c : Char} (h : c.isLower) : c.isAlpha := by
  have hkinds : c.isAlpha = (c.isUpper || c.isLower) := rfl
  rw [hkinds, h, Bool.or_true]

theorem isAlphanum_of_isAlpha {c : Char} (h : c.isAlpha) : c.isAlphanum := by
  rw [Char.isAlphanum, h, Bool.true_or]

theorem toUpper_of_isLower {c : Char} (h : c.isLower) : c.toUpper.isAlpha :=
  of_ascii (p := fun c => c.isLower → c.toUpper.isAlpha) (by decide +kernel)
    (toNat_lt_of_isAlphanum (isAlphanum_of_isAlpha (isAlpha_of_isLower h))) h

/-- What is put in place of a word begins as the word, if it does so in small letters. -/
theorem head?_matchCase {word replacement : List Char}
    (h : replacement.head? = (word.map Char.toLower).head?) :
    (matchCase word replacement).head? = word.head? := by
  cases word with
  | nil =>
    have hnil : replacement = [] := List.head?_eq_none_iff.1 h
    rw [hnil]
    rfl
  | cons c rest =>
    obtain ⟨tail, rfl⟩ := List.head?_eq_some_iff.1 h
    unfold matchCase
    split
    · next hall =>
      have hupper : c.isUpper := (Bool.and_eq_true_iff.1 (Bool.and_eq_true_iff.1 hall).2).1
      rw [List.map_cons, (capital_of_isUpper hupper).1]
      rfl
    · split
      · next hupper =>
        rw [capitalizeChars, (capital_of_isUpper hupper).2]
        rfl
      · next hupper =>
        rw [toLower_of_not_isUpper hupper]
        rfl

theorem mem_matchCase {word replacement : List Char} (h : ∀ c ∈ replacement, c.isLower) {c : Char}
    (hc : c ∈ matchCase word replacement) : c.isAlpha := by
  have halpha : ∀ c ∈ replacement, c.isAlpha := fun c hc => isAlpha_of_isLower (h c hc)
  unfold matchCase at hc
  split at hc
  · obtain ⟨d, hd, rfl⟩ := List.mem_map.1 hc
    exact toUpper_of_isLower (h d hd)
  · split at hc
    · cases replacement with
      | nil => cases hc
      | cons d rest =>
        have hd := h d List.mem_cons_self
        rw [capitalizeChars, upper_of_isAlphanum (isAlphanum_of_isAlpha (isAlpha_of_isLower hd))] at hc
        rcases List.mem_cons.1 hc with rfl | hc
        · exact toUpper_of_isLower hd
        · exact halpha c (List.mem_cons_of_mem d hc)
    · exact halpha c hc

/-! ## Singulars -/

/-- The singular that the table has for a plural stands beside it. -/
theorem mem_irregularPlurals {plural singular : String}
    (h : irregularPlurals.lookup plural = some singular) : (plural, singular) ∈ irregularPlurals := by
  obtain ⟨before, after, htable, -⟩ := List.lookup_eq_some_iff.1 h
  rw [htable]
  exact List.mem_append_right before List.mem_cons_self

/-- The singular of a word by the table, or by the rules. -/
theorem singularizeChars_cases (word : List Char) :
    singularizeChars word = word ∨
      (∃ entry ∈ irregularPlurals, entry.1.toList = word.map Char.toLower ∧
        singularizeChars word = matchCase word entry.2.toList) ∨
      singularizeChars word = singularBySuffix word (word.map Char.toLower) := by
  unfold singularizeChars
  dsimp only
  split
  · exact Or.inl rfl
  · split
    · next singular hlookup =>
      exact Or.inr (Or.inl ⟨_, mem_irregularPlurals hlookup, String.toList_ofList, rfl⟩)
    · exact Or.inr (Or.inr rfl)

/-- The first character of a word stays in its singular. -/
theorem head?_singularizeChars (word : List Char) : (singularizeChars word).head? = word.head? := by
  obtain hsame | ⟨entry, hentry, hplural, hsingular⟩ | hrules := singularizeChars_cases word
  · rw [hsame]
  · rw [hsingular]
    apply head?_matchCase
    rw [(irregularPlurals_spec entry hentry).1, hplural]
  · rw [hrules]
    obtain hsame | ⟨n, hn, hdrop | hdrop⟩ := singularBySuffix_cases word
    · rw [hsame]
    · rw [hdrop, head?_dropEnd hn]
    · have hhead := head?_dropEnd hn
      cases hrest : dropEnd n word with
      | nil =>
        rw [hrest] at hhead
        rw [List.head?_eq_none_iff.1 hhead.symm] at hn
        cases hn
      | cons c rest =>
        rw [hrest] at hhead
        rw [hdrop, hrest, ← hhead]
        rfl

/-- What is new in a singular are letters. -/
theorem mem_singularizeChars {word : List Char} {c : Char} (h : c ∈ singularizeChars word) :
    c ∈ word ∨ c.isAlpha := by
  obtain hsame | ⟨entry, hentry, -, hsingular⟩ | hrules := singularizeChars_cases word
  · exact Or.inl (hsame ▸ h)
  · rw [hsingular] at h
    exact Or.inr (mem_matchCase (irregularPlurals_spec entry hentry).2 h)
  · rw [hrules] at h
    obtain hsame | ⟨n, -, hdrop | hdrop⟩ := singularBySuffix_cases word
    · exact Or.inl (hsame ▸ h)
    · exact Or.inl (List.mem_of_mem_take (hdrop ▸ h))
    · rw [hdrop] at h
      rcases List.mem_append.1 h with h | h
      · exact Or.inl (List.mem_of_mem_take h)
      · rw [List.mem_singleton.1 h]
        exact Or.inr (by decide)

/-- The singular of a titled word is titled. -/
theorem Titled.singularizeChars {word : List Char} (h : Titled word) :
    Titled (singularizeChars word) := by
  refine ⟨fun c hc => ?_, head?_singularizeChars word ▸ h.2⟩
  rcases mem_singularizeChars hc with hc | hc
  · exact h.1 c hc
  · exact isAlphanum_of_isAlpha hc

end ApiModel.Text
