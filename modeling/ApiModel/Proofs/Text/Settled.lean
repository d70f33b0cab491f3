import ApiModel.Proofs.Text.Folding

/-!
# Singulars that are left alone

A word is left as it is if it is no irregular plural and no rule fits it (`Settled`). What a rule makes of a
word is of this kind, unless a single `s` is dropped behind an irregular plural, and so are the singulars of
the table but one. So the singular of a singular is the singular itself, up to the words of `unsettled`
(`singularize_singularize_iff`).
-/

namespace ApiModel.Text

/-- A word that reads so in small letters has no singular but itself: it is no irregular plural, and if it ends
in `s` it does so as singulars may. -/
def Settled (folded : List Char) : Prop :=
  (∀ entry ∈ irregularPlurals, entry.1.toList ≠ folded) ∧
    (endsInAny ["s"] folded = false ∨ endsInAny ["ss", "us", "is"] folded = true)

instance (folded : List Char) : Decidable (Settled folded) :=
  inferInstanceAs (Decidable ((∀ entry ∈ irregularPlurals, entry.1.toList ≠ folded) ∧
    (endsInAny ["s"] folded = false ∨ endsInAny ["ss", "us", "is"] folded = true)))

/-! ## Words that stay -/

section Rules

variable (word : List Char) {folded : List Char}

/-- Every rule asks for an `s` at the end. -/
theorem singularBySuffix_of_no_s (h : endsInAny ["s"] folded = false) : singularBySuffix word folded = word := by
  unfold singularBySuffix
  rw [endsInAny_eq_false ["ies"] h (by decide),
    endsInAny_eq_false ["quizzes"] h (by decide),
    endsInAny_eq_false ["sses", "xes", "ches", "shes", "zzes"] h (by decide),
    endsInAny_eq_false ["ss", "us", "is"] h (by decide), h]
  simp

/-- The rules that change a word ask for `es` at its end, up to the one behind `ss`, `us` and `is`. -/
theorem singularBySuffix_of_singular_ending (h : endsInAny ["ss", "us", "is"] folded = true) :
    singularBySuffix word folded = word := by
  have hes : endsInAny ["es"] folded = false := by
    obtain ⟨ending, hending, stem, rfl⟩ := exists_stem_of_endsInAny h
    have hendings : ∀ ending ∈ ["ss", "us", "is"],
        "es".toList.length ≤ ending.toList.length ∧ endsInAny ["es"] ending.toList = false := by decide
    obtain ⟨hlength, hnone⟩ := hendings ending hending
    rw [endsInAny_append stem (List.forall_mem_singleton.2 hlength), hnone]
  unfold singularBySuffix
  rw [endsInAny_eq_false ["ies"] hes (by decide),
    endsInAny_eq_false ["quizzes"] hes (by decide),
    endsInAny_eq_false ["sses", "xes", "ches", "shes", "zzes"] hes (by decide), h]
  simp

theorem singularizeChars_of_settled (h : Settled (word.map Char.toLower)) : singularizeChars word = word := by
  obtain hsame | ⟨entry, hentry, hplural, -⟩ | hrules := singularizeChars_cases word
  · exact hsame
  · exact absurd hplural (h.1 entry hentry)
  · rw [hrules]
    exact h.2.elim (singularBySuffix_of_no_s word) (singularBySuffix_of_singular_ending word)

end Rules

/-! ## What the rules give -/

/-- Endings that the rules give to a singular, up to the one that drops an `s` alone. -/
def ruleEndings : List String := ["y", "quiz", "ss", "x", "ch", "sh", "zz"]

theorem settled_of_ruleEndings {folded : List Char} (h : endsInAny ruleEndings folded) : Settled folded := by
  constructor
  · have htable : ∀ entry ∈ irregularPlurals, endsInAny ruleEndings entry.1.toList = false := by
      decide +kernel
    rintro entry hentry rfl
    rw [htable entry hentry] at h
    cases h
  · obtain ⟨ending, hending, stem, rfl⟩ := exists_stem_of_endsInAny h
    have hendings : ∀ ending ∈ ruleEndings,
        ((∀ suffix ∈ ["s"], suffix.toList.length ≤ ending.toList.length) ∧
          endsInAny ["s"] ending.toList = false) ∨
        ((∀ suffix ∈ ["ss", "us", "is"], suffix.toList.length ≤ ending.toList.length) ∧
          endsInAny ["ss", "us", "is"] ending.toList = true) := by decide
    rcases hendings ending hending with ⟨hlength, hends⟩ | ⟨hlength, hends⟩
    · exact Or.inl ((endsInAny_append stem hlength).trans hends)
    · exact Or.inr ((endsInAny_append stem hlength).trans hends)

/-- What a rule makes of a word ends in small letters as singulars do, or it is the word without an `s` that
stood alone. -/
theorem singularBySuffix_ends (word folded : List Char) :
    singularBySuffix word folded = word ∨ endsInAny ruleEndings (singularBySuffix folded folded) ∨
      folded = singularBySuffix folded folded ++ ['s'] ∧
        endsInAny ["s"] (singularBySuffix folded folded) = false := by
  have hends : ∀ stem, ∀ ending ∈ ruleEndings, endsInAny ruleEndings (stem ++ ending.toList) :=
    fun stem ending hending => List.any_eq_true.2
      ⟨ending, hending, List.isSuffixOf_iff_suffix.2 (List.suffix_append stem ending.toList)⟩
  unfold singularBySuffix
  split
  · exact Or.inr (Or.inl (hends _ "y" (by decide)))
  · split
    · next hrule =>
      obtain ⟨suffix, hmem, stem, rfl⟩ := exists_stem_of_endsInAny hrule
      rw [List.mem_singleton.1 hmem, dropEnd_append stem (by decide)]
      exact Or.inr (Or.inl (hends stem "quiz" (by decide)))
    · split
      · next hrule =>
        obtain ⟨suffix, hmem, stem, rfl⟩ := exists_stem_of_endsInAny hrule
        have hsuffixes : ∀ suffix ∈ ["sses", "xes", "ches", "shes", "zzes"],
            2 ≤ suffix.toList.length ∧ String.ofList (dropEnd 2 suffix.toList) ∈ ruleEndings := by decide
        obtain ⟨hlength, hending⟩ := hsuffixes suffix hmem
        have hstem := hends stem _ hending
        rw [String.toList_ofList] at hstem
        rw [dropEnd_append stem hlength]
        exact Or.inr (Or.inl hstem)
      · split
        · exact Or.inl rfl
        · next hsingular =>
          split
          · next hrule =>
            obtain ⟨suffix, hmem, stem, rfl⟩ := exists_stem_of_endsInAny (Bool.and_eq_true_iff.1 hrule).2
            rw [List.mem_singleton.1 hmem] at hsingular ⊢
            have hdrop : dropEnd 1 (stem ++ "s".toList) = stem := by
              rw [dropEnd_append stem (by decide)]
              exact List.append_nil stem
            rw [hdrop]
            refine Or.inr (Or.inr ⟨rfl, ?_⟩)
            -- another `s` at the end of the stem would make it `ss`
            rw [Bool.eq_false_iff]
            intro hs
            obtain ⟨suffix, hmem, front, rfl⟩ := exists_stem_of_endsInAny hs
            rw [List.mem_singleton.1 hmem, List.append_assoc] at hsingular
            exact hsingular (List.any_eq_true.2 ⟨"ss", by decide,
              List.isSuffixOf_iff_suffix.2 (List.suffix_append front "ss".toList)⟩)
          · exact Or.inl rfl

/-! ## Singulars of singulars -/

/-- The words whose singular has a singular of its own: one irregular plural, and the irregular plurals that
do not end in `s` with an `s` behind them. -/
def unsettled : List String :=
  "aliases" :: irregularPlurals.filterMap fun entry =>
    if endsInAny ["s"] entry.1.toList then none else some (entry.1 ++ "s")

example : unsettled = ["aliases", "childrens", "criterias", "feets", "geeses", "mens", "mices", "oxens",
    "peoples", "phenomenas", "teeths", "womens"] := by decide +kernel

theorem settled_of_not_unsettled {word : List Char}
    (h : String.ofList (word.map Char.toLower) ∉ unsettled) :
    singularizeChars word = word ∨ Settled ((singularizeChars word).map Char.toLower) := by
  obtain hsame | ⟨entry, hentry, hplural, hsingular⟩ | hrules := singularizeChars_cases word
  · exact Or.inl hsame
  · right
    have htable : ∀ entry ∈ irregularPlurals, entry.1 ∈ unsettled ∨ Settled entry.2.toList := by
      decide +kernel
    rw [hsingular, map_toLower_matchCase word (irregularPlurals_spec entry hentry).2]
    refine (htable entry hentry).resolve_left ?_
    rwa [← hplural, String.ofList_toList] at h
  · rw [hrules, map_toLower_singularBySuffix]
    obtain hsame | hends | ⟨hstem, hends⟩ := singularBySuffix_ends word (word.map Char.toLower)
    · exact Or.inl hsame
    · exact Or.inr (settled_of_ruleEndings hends)
    · refine Or.inr ⟨?_, Or.inl hends⟩
      rintro entry hentry hplural
      refine h (List.mem_cons_of_mem _ (List.mem_filterMap.2 ⟨entry, hentry, ?_⟩))
      rw [← hplural] at hends hstem
      rw [if_neg (Bool.eq_false_iff.1 hends), hstem, String.ofList_append, String.ofList_toList]

/-- The singular of a singular is the singular, up to the words of `unsettled` in any case. -/
theorem singularize_singularize_iff (word : String) :
    singularize (singularize word) = singularize word ↔ asciiLower word ∉ unsettled := by
  have hunsettled : ∀ word ∈ unsettled,
      singularizeChars (singularizeChars word.toList) ≠ singularizeChars word.toList := by
    decide +kernel
  have hlower : asciiLower word = String.ofList (word.toList.map Char.toLower) := by
    rw [asciiLower, ← String.toList_map, String.ofList_toList]
  rw [singularize, singularize, String.toList_ofList, String.ofList_inj, hlower]
  constructor
  · intro heq hmem
    refine hunsettled _ hmem ?_
    rw [String.toList_ofList, ← map_toLower_singularizeChars, ← map_toLower_singularizeChars, heq]
  · intro h
    rcases settled_of_not_unsettled h with hsame | hsettled
    · rw [hsame, hsame]
    · exact singularizeChars_of_settled _ hsettled

/-- The singular that the table has for `aliases` gets a singular of its own. -/
theorem singularize_aliases :
    singularize "aliases" = "alias" ∧ singularize (singularize "aliases") = "alia" ∧
      singularize (singularize "aliases") ≠ singularize "aliases" := by
  decide +kernel

end ApiModel.Text
