import ApiModel.Site
import Mathlib.Data.List.TakeWhile

/-!
# References into a document

A reference points into a document if it is the origin, a `#` and a pointer. Its parts are then read
back as they were put together, keys put behind it lengthen the pointer, and every `$ref` text means a
reference of this form.
-/

namespace ApiModel.Reference

/-- The reference is made of an origin, a `#` and a pointer. -/
def IsAt (origin : String) (pointer : List Char) (reference : String) : Prop :=
  '#' ∉ origin.toList ∧ reference.toList = origin.toList ++ '#' :: pointer

variable {origin reference : String} {pointer : List Char}

theorem isAt_root (h : '#' ∉ origin.toList) : IsAt origin [] (root origin) := by
  have hhash : "#".toList = ['#'] := rfl
  refine ⟨h, ?_⟩
  rw [root, String.toList_append, hhash]

theorem mem_root (origin : String) : '#' ∈ (root origin).toList := by
  rw [root, String.toList_append]
  exact List.mem_append_right _ (List.mem_singleton_self '#')

/-- A root stands in the document of its origin, which may have a fragment of its own. -/
theorem document_root (origin : String) : document (root origin) = document origin := by
  have hhash : "#".toList = ['#'] := rfl
  rw [document, root, String.toList_append, hhash, document]
  congr 1
  induction origin.toList with
  | nil => rfl
  | cons c rest ih =>
    by_cases hc : c = '#'
    · simp [hc]
    · simpa [hc] using ih

/-- A reference with a `#` points into the document it begins with. -/
theorem exists_isAt_document (h : '#' ∈ reference.toList) :
    ∃ pointer, IsAt (document reference) pointer reference := by
  have hsplit : reference.toList.takeWhile (· ≠ '#') ++ reference.toList.dropWhile (· ≠ '#') =
      reference.toList := List.takeWhile_append_dropWhile
  have hnone : ∀ c ∈ reference.toList.takeWhile (· ≠ '#'), c ≠ '#' := by
    intro c hc
    simpa using List.mem_takeWhile_imp hc
  have hplain : '#' ∉ (document reference).toList := by
    rw [document, String.toList_ofList]
    exact fun hc => hnone '#' hc rfl
  -- the text is the part before the first `#`, and what begins there
  cases hrest : reference.toList.dropWhile (· ≠ '#') with
  | nil =>
    rw [hrest, List.append_nil] at hsplit
    exact absurd rfl (hnone '#' (hsplit.symm ▸ h))
  | cons c pointer =>
    have hc : c = '#' := by
      have hhead := List.head?_dropWhile_not (· ≠ '#') reference.toList
      rw [hrest] at hhead
      simpa using hhead
    rw [hrest, hc] at hsplit
    refine ⟨pointer, hplain, ?_⟩
    rw [document, String.toList_ofList]
    exact hsplit.symm

namespace IsAt

variable (h : IsAt origin pointer reference)
include h

theorem document : document reference = origin := by
  have hall : ∀ c ∈ origin.toList, decide (c ≠ '#') = true := by
    intro c hc
    simpa using fun heq : c = '#' => h.1 (heq ▸ hc)
  rw [Reference.document, h.2, List.takeWhile_append_of_pos hall]
  simp

theorem fragment? : fragment? reference = some (String.ofList pointer) := by
  have hall : ∀ c ∈ origin.toList, decide (c ≠ '#') = true := by
    intro c hc
    simpa using fun heq : c = '#' => h.1 (heq ▸ hc)
  rw [Reference.fragment?, h.2, List.dropWhile_append_of_pos hall]
  simp

end IsAt

/-- A reference points into one document, with one pointer. -/
theorem IsAt.unique {other : String} {otherPointer : List Char} (h : IsAt origin pointer reference)
    (hother : IsAt other otherPointer reference) : other = origin ∧ otherPointer = pointer := by
  have hfragment := hother.fragment?
  rw [h.fragment?] at hfragment
  refine ⟨hother.document.symm.trans h.document, ?_⟩
  exact (String.ofList_injective (Option.some.inj hfragment)).symm

/-- What keys add to a pointer: a slash and the segment of each key. -/
def segments (keys : List String) : List Char :=
  keys.flatMap fun key => '/' :: (Pointer.escape key).toList

theorem toList_child (keys : List String) (reference : String) :
    (child reference keys).toList = reference.toList ++ segments keys := by
  unfold segments
  induction keys generalizing reference with
  | nil => rw [child, List.flatMap_nil, List.append_nil]
  | cons key rest ih =>
    have hslash : "/".toList = ['/'] := rfl
    rw [child, ih, List.flatMap_cons, String.toList_append, String.toList_append, hslash,
      List.append_assoc, List.append_assoc, List.singleton_append, List.cons_append]

theorem IsAt.child (h : IsAt origin pointer reference) (keys : List String) :
    IsAt origin (pointer ++ segments keys) (child reference keys) := by
  refine ⟨h.1, ?_⟩
  rw [toList_child, h.2, List.append_assoc, List.cons_append]

/-- What stands under keys of a node stands in the document of the node. -/
theorem mem_child (h : '#' ∈ reference.toList) (keys : List String) :
    '#' ∈ (child reference keys).toList := by
  rw [toList_child]
  exact List.mem_append_left _ h

theorem document_child (h : '#' ∈ reference.toList) (keys : List String) :
    document (child reference keys) = document reference := by
  obtain ⟨pointer, hat⟩ := exists_isAt_document h
  exact (hat.child keys).document

/-- Every `$ref` text means a reference with a `#`. -/
theorem mem_resolve (origin target : String) : '#' ∈ (resolve origin target).toList := by
  unfold resolve
  split
  · next hstart =>
    have hhead : '#' ∈ target.toList :=
      (String.startsWith_string_iff.1 hstart).subset (List.mem_singleton_self '#')
    rw [String.toList_append]
    exact List.mem_append_right _ hhead
  · split
    · split
      · assumption
      · rw [String.toList_append]
        exact List.mem_append_right _ (List.mem_singleton_self '#')
    · rw [String.toList_append, String.toList_append]
      exact List.mem_append_left _ (List.mem_append_right _ (List.mem_singleton_self '#'))

end ApiModel.Reference
