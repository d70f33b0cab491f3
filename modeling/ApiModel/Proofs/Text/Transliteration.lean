import ApiModel.Proofs.Text.Case
import ApiModel.Text.Transliteration

/-!
# Transliteration is a spelling in ASCII

Names may be made with any spelling, and what is said of them names what it takes of the spelling: that it
keeps to ASCII. The spelling by the table does (`ascii_transliterate`).
-/

namespace ApiModel.Text

theorem ascii_spellings : ∀ entry ∈ spellings, Ascii entry.2.toList := by
  decide +kernel

theorem ascii_of_spelling? {c : Char} {chars : List Char} (h : spelling? c = some chars) : Ascii chars := by
  unfold spelling? at h
  split at h
  · next hascii =>
    cases h
    exact fun d hd => List.mem_singleton.1 hd ▸ hascii
  · obtain ⟨text, htext, rfl⟩ := Option.map_eq_some_iff.1 h
    obtain ⟨before, after, htable, -⟩ := List.lookup_eq_some_iff.1 htext
    refine ascii_spellings (c, text) ?_
    rw [htable]
    exact List.mem_append_right before List.mem_cons_self

theorem ascii_joinSpellings {found : List (Option (List Char))}
    (h : ∀ chars, some chars ∈ found → Ascii chars) : Ascii (joinSpellings found) := by
  induction found with
  | nil => exact fun _ hc => absurd hc List.not_mem_nil
  | cons first rest ih =>
    have hrest := ih fun chars hchars => h chars (List.mem_cons_of_mem first hchars)
    cases first with
    | none => exact Ascii.append (by decide) hrest
    | some chars =>
      have hchars := h chars List.mem_cons_self
      refine Ascii.append ?_ hrest
      -- at most a blank at its end is dropped from a spelling
      split
      · exact fun c hc => hchars c (List.dropLast_subset chars hc)
      · exact hchars

theorem ascii_transliterate (text : List Char) : Ascii (transliterate text) := by
  refine ascii_joinSpellings fun chars hchars => ?_
  obtain ⟨c, _, hspelling⟩ := List.mem_map.1 hchars
  exact ascii_of_spelling? hspelling

end ApiModel.Text
