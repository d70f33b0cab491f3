import ApiModel.Json.Reader
import ApiModel.Proofs.Document

/-!
# JSON texts that are read

What the reader takes from a text that begins with a string or an object, said by the tokens that come
next. The reader recurs on the length of the text that is left and cannot be evaluated on a text; by these
facts a text is read token by token. Whatever text is read, its document is well-formed: an array has no more
items than the text has characters, and an object is made from its members in turn (`wellFormed_parse?`).
-/

namespace ApiModel.Json

open Document (wellFormed_list wellFormed_map wellFormed_ofEntries)

/-- A piece of a text is read: its value, and the text that is left. -/
def Reads {α : Type} {chars : List Char} (piece : Option (Taken α chars)) (value : α)
    (rest : List Char) : Prop :=
  piece.map (fun taken => (taken.value, taken.rest)) = some (value, rest)

variable {depth : Nat} {chars quoted key text after body left others rest : List Char} {value : Document}
  {members : List (String × Document)}

theorem Reads.eq_some {α : Type} {piece : Option (Taken α chars)} {value : α}
    (h : Reads piece value rest) : ∃ shorter, piece = some ⟨value, rest, shorter⟩ := by
  obtain ⟨⟨_, _, shorter⟩, rfl, heq⟩ := Option.map_eq_some_iff.1 h
  cases heq
  exact ⟨shorter, rfl⟩

/-! ## Values -/

theorem reads_string (hquote : skipBlank chars = '"' :: quoted)
    (htext : stringBody? quoted = some (text, rest)) :
    Reads (value? depth chars) (.string (String.ofList text)) rest := by
  have hscalar : scalar? (skipBlank chars) = some (.string (String.ofList text), rest) := by
    rw [hquote, scalar?, htext]
    rfl
  unfold Reads
  rw [value?]
  split
  · next heq => cases hquote.symm.trans heq
  · next heq => cases hquote.symm.trans heq
  · split
    · next heq => cases hscalar.symm.trans heq
    · next heq =>
      cases hscalar.symm.trans heq
      rfl

theorem reads_emptyObject (hopen : skipBlank chars = '\x7b' :: body)
    (hclose : skipBlank body = '\x7d' :: rest) : Reads (value? (depth + 1) chars) (.map []) rest := by
  unfold Reads
  rw [value?]
  split
  · next heq => cases hopen.symm.trans heq
  · next heq =>
    cases hopen.symm.trans heq
    split
    · next hzero => cases hzero
    · next heq =>
      cases hclose.symm.trans heq
      rfl
    · next hother => exact absurd hclose (hother _)
  · next hother => exact absurd hopen (hother _)

theorem reads_object (hopen : skipBlank chars = '\x7b' :: body) (hquote : skipBlank body = '"' :: quoted)
    (hmembers : Reads (members? depth body) members rest) :
    Reads (value? (depth + 1) chars) (Document.ofEntries members) rest := by
  obtain ⟨_, hread⟩ := hmembers.eq_some
  unfold Reads
  rw [value?]
  split
  · next heq => cases hopen.symm.trans heq
  · next heq =>
    cases hopen.symm.trans heq
    split
    · next hzero => cases hzero
    · next heq => cases hquote.symm.trans heq
    · next hdepth _ =>
      cases hdepth
      rw [hread]
      rfl
  · next hother => exact absurd hopen (hother _)

/-! ## Members -/

/-- The last of the members, and the brace behind it. -/
theorem reads_lastMember (hquote : skipBlank chars = '"' :: quoted)
    (hkey : stringBody? quoted = some (key, after)) (hcolon : skipBlank after = ':' :: body)
    (hvalue : Reads (value? depth body) value left) (hclose : skipBlank left = '\x7d' :: rest) :
    Reads (members? depth chars) [(String.ofList key, value)] rest := by
  obtain ⟨_, hvalue⟩ := hvalue.eq_some
  unfold Reads
  rw [members?]
  split
  · next heq =>
    cases hquote.symm.trans heq
    split
    · next heq => cases hkey.symm.trans heq
    · next heq =>
      cases hkey.symm.trans heq
      split
      · next heq =>
        cases hcolon.symm.trans heq
        rw [hvalue]
        dsimp only
        split
        · next heq =>
          cases hclose.symm.trans heq
          rfl
        · next heq => cases hclose.symm.trans heq
        · next hother _ => exact absurd hclose (hother _)
      · next hother => exact absurd hcolon (hother _)
  · next hother => exact absurd hquote (hother _)

/-- A member before others, and the comma behind it. -/
theorem reads_member (hquote : skipBlank chars = '"' :: quoted)
    (hkey : stringBody? quoted = some (key, after)) (hcolon : skipBlank after = ':' :: body)
    (hvalue : Reads (value? depth body) value left) (hcomma : skipBlank left = ',' :: others)
    (hothers : Reads (members? depth others) members rest) :
    Reads (members? depth chars) ((String.ofList key, value) :: members) rest := by
  obtain ⟨_, hvalue⟩ := hvalue.eq_some
  obtain ⟨_, hothers⟩ := hothers.eq_some
  unfold Reads
  rw [members?]
  split
  · next heq =>
    cases hquote.symm.trans heq
    split
    · next heq => cases hkey.symm.trans heq
    · next heq =>
      cases hkey.symm.trans heq
      split
      · next heq =>
        cases hcolon.symm.trans heq
        rw [hvalue]
        dsimp only
        split
        · next heq => cases hcomma.symm.trans heq
        · next heq =>
          cases hcomma.symm.trans heq
          rw [hothers]
          rfl
        · next hother => exact absurd hcomma (hother _)
      · next hother => exact absurd hcolon (hother _)
  · next hother => exact absurd hquote (hother _)

/-! ## Texts -/

/-- A text that is one value, with blanks around it. -/
theorem parse?_of_reads {text : String} (h : Reads (value? 127 text.toList) value rest)
    (hend : skipBlank rest = []) : parse? text = some value := by
  obtain ⟨_, hvalue⟩ := h.eq_some
  rw [parse?, parseWithin?, hvalue]
  exact if_pos hend

/-! ## Well-formed documents -/

theorem Literal.wellFormed_value? {literal : Literal} {value : Document} (h : literal.value? = some value) :
    value.WellFormed := by
  unfold value? at h
  dsimp only at h
  split at h
  · cases h
    trivial
  · split at h
    · cases h
      trivial
    · obtain ⟨_, -, rfl⟩ := Option.map_eq_some_iff.1 h
      trivial

theorem wellFormed_number? {negative : Bool} {chars : List Char} {number : Document × List Char}
    (h : number? negative chars = some number) : number.1.WellFormed := by
  unfold number? at h
  split at h
  · cases h
  · cases h
  · simp only [Option.bind_eq_some_iff, Option.map_eq_some_iff] at h
    obtain ⟨_, -, _, -, value, hvalue, rfl⟩ := h
    exact Literal.wellFormed_value? hvalue

theorem wellFormed_scalar? {chars : List Char} {scalar : Document × List Char}
    (h : scalar? chars = some scalar) : scalar.1.WellFormed := by
  unfold scalar? at h
  split at h
  · obtain ⟨_, -, rfl⟩ := Option.map_eq_some_iff.1 h
    trivial
  · exact wellFormed_number? h
  · obtain ⟨_, -, rfl⟩ := Option.map_eq_some_iff.1 h
    trivial
  · obtain ⟨_, -, rfl⟩ := Option.map_eq_some_iff.1 h
    trivial
  · obtain ⟨_, -, rfl⟩ := Option.map_eq_some_iff.1 h
    trivial
  · exact wellFormed_number? h

mutual

theorem wellFormed_value? {depth : Nat} {chars : List Char} (hlength : chars.length ≤ 2 ^ 64)
    {taken : Taken Document chars} (h : value? depth chars = some taken) : taken.value.WellFormed := by
  unfold value? at h
  split at h
  · next body hbody =>
    have hshorter := length_lt_of_skipBlank hbody
    split at h
    · cases h
    · cases h
      simp [wellFormed_list]
    · obtain ⟨items, hitems, rfl⟩ := Option.map_eq_some_iff.1 h
      obtain ⟨hcount, hall⟩ := wellFormed_items? (by omega) hitems
      exact wellFormed_list.2 ⟨by omega, hall⟩
  · next body hbody =>
    have hshorter := length_lt_of_skipBlank hbody
    split at h
    · cases h
    · cases h
      simp [wellFormed_map]
    · obtain ⟨members, hmembers, rfl⟩ := Option.map_eq_some_iff.1 h
      exact wellFormed_ofEntries (wellFormed_members? (by omega) hmembers)
  · split at h
    · cases h
    · next hscalar =>
      cases h
      exact wellFormed_scalar? hscalar
termination_by (depth, chars.length, 0)

/-- Each item takes a character at least, so there are no more items than characters. -/
theorem wellFormed_items? {depth : Nat} {chars : List Char} (hlength : chars.length ≤ 2 ^ 64)
    {taken : Taken (List Document) chars} (h : items? depth chars = some taken) :
    taken.value.length ≤ chars.length ∧ ∀ item ∈ taken.value, item.WellFormed := by
  unfold items? at h
  split at h
  · cases h
  · next item after hafter hitem =>
    have hwell : item.WellFormed := wellFormed_value? hlength hitem
    split at h
    · cases h
      exact ⟨by simp only [List.length_singleton]; omega, by simpa using hwell⟩
    · next others hothers =>
      have hshorter := length_lt_of_skipBlank hothers
      obtain ⟨rest, hrest, rfl⟩ := Option.map_eq_some_iff.1 h
      obtain ⟨hcount, hall⟩ := wellFormed_items? (by omega) hrest
      exact ⟨by simp only [Taken.within, List.length_cons]; omega, List.forall_mem_cons.2 ⟨hwell, hall⟩⟩
    · cases h
termination_by (depth, chars.length, 1)

theorem wellFormed_members? {depth : Nat} {chars : List Char} (hlength : chars.length ≤ 2 ^ 64)
    {taken : Taken (List (String × Document)) chars} (h : members? depth chars = some taken) :
    ∀ member ∈ taken.value, member.2.WellFormed := by
  unfold members? at h
  split at h
  · next quoted hquote =>
    have hquoted := length_lt_of_skipBlank hquote
    split at h
    · cases h
    · next key after hkey =>
      have hafter : after.length < quoted.length := length_stringBody?_lt hkey
      split at h
      · next body hcolon =>
        have hbody := length_lt_of_skipBlank hcolon
        split at h
        · cases h
        · next value left hleft hvalue =>
          have hwell : value.WellFormed := wellFormed_value? (by omega) hvalue
          split at h
          · cases h
            simpa using hwell
          · next others hcomma =>
            have hshorter := length_lt_of_skipBlank hcomma
            obtain ⟨rest, hrest, rfl⟩ := Option.map_eq_some_iff.1 h
            exact List.forall_mem_cons.2 ⟨hwell, wellFormed_members? (by omega) hrest⟩
          · cases h
      · cases h
  · cases h
termination_by (depth, chars.length, 1)

end

/-- The document that is read from a JSON text is well-formed. -/
theorem wellFormed_parse? {text : String} (hlength : text.length ≤ 2 ^ 64) {value : Document}
    (h : parse? text = some value) : value.WellFormed := by
  unfold parse? parseWithin? at h
  split at h
  · cases h
  · next taken htaken =>
    obtain ⟨-, h⟩ := Option.ite_none_right_eq_some.1 h
    cases h
    exact wellFormed_value? (String.length_toList ▸ hlength) htaken

end ApiModel.Json
