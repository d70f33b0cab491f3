import ApiModel.Operation.Naming
import ApiModel.Proofs.Operation.PathTemplate
import ApiModel.Proofs.Text.Singular

/-!
# Extensions behind a path

A dot behind a character of a part is a separator of its own, whatever the path holds before it. What follows
the dot is one more part, unless it is an extension that is left out (`PathTemplate.parts_append_dot`). So such
an extension changes no part of the path, the last literal included, and the name stays
(`Operation.urlName_extended`).
-/

namespace ApiModel

namespace Text

theorem eq_dot_of_toLower {c : Char} (h : c.toLower = '.') : c = '.' := by
  by_cases hupper : c.isUpper
  · have hletter : c.toLower.isAlphanum := toLower_of_isAlphanum (isAlphanum_of_isUpper hupper)
    rw [h] at hletter
    exact absurd hletter (by decide)
  · rw [← h, toLower_of_not_isUpper hupper]

theorem isAlphanum_of_toLower {c : Char} (h : c.toLower.isAlphanum) : c.isAlphanum := by
  by_cases hupper : c.isUpper
  · exact isAlphanum_of_isUpper hupper
  · rwa [toLower_of_not_isUpper hupper] at h

end Text

namespace PathTemplate

/-- A dot behind a closed text begins one more part, unless an extension that is left out follows it. -/
theorem parts_append_dot {front text : List Char} (hfront : Closed front) (htext : ∀ c ∈ text, isPartChar c) :
    parts (front ++ '.' :: text) =
      parts front ++ if isDropped ['.'] text then [] else [Part.ofChars text] := by
  rw [parts_append hfront (by decide), parts_token (by decide) htext]

/-- An extension that is left out is a dot with letters behind it. -/
theorem exists_text_of_dropped {extension : String} (h : Text.asciiLower extension ∈ droppedExtensions) :
    ∃ text, extension.toList = '.' :: text ∧ (∀ c ∈ text, isPartChar c) ∧ isDropped ['.'] text := by
  have hshape : ∀ dropped ∈ droppedExtensions,
      dropped.toList.head? = some '.' ∧ dropped.toList.tail.all Char.isAlphanum := by decide
  obtain ⟨hhead, hletters⟩ := hshape _ h
  rw [List.all_eq_true] at hletters
  rw [Text.asciiLower, String.toList_map] at hhead hletters
  cases hchars : extension.toList with
  | nil => rw [hchars] at hhead; cases hhead
  | cons c text =>
    rw [hchars] at hhead hletters
    have hdot : c = '.' := Text.eq_dot_of_toLower (Option.some.inj hhead)
    refine ⟨text, by rw [hdot], fun d hd => ?_, ?_⟩
    · exact isPartChar_of_isAlphanum (Text.isAlphanum_of_toLower (hletters _ (List.mem_map_of_mem hd)))
    · have hlower : '.' :: text.map Char.toLower = (Text.asciiLower extension).toList := by
        rw [Text.asciiLower, String.toList_map, hchars, hdot]
        rfl
      rw [isDropped, hlower, decide_eq_true (List.mem_map_of_mem h)]
      rfl

end PathTemplate

namespace Operation

open PathTemplate

/-- The operation with a text behind its path. -/
def extended (operation : Operation) (extension : String) : Operation :=
  { operation with path := operation.path ++ extension }

/-- An extension that is left out, in capitals or not, does not change the name of an operation if it stands
behind a character of a part. -/
theorem urlName_extended {operation : Operation} {extension : String}
    (hpath : operation.path.toList.getLast?.any isPartChar)
    (hextension : Text.asciiLower extension ∈ droppedExtensions) :
    (operation.extended extension).urlName = operation.urlName := by
  obtain ⟨text, hchars, htext, hdropped⟩ := exists_text_of_dropped hextension
  have hclosed : Closed operation.path.toList := by
    intro c hc
    rw [hc] at hpath
    exact hpath
  have hparts : parts (operation.extended extension).path.toList = parts operation.path.toList := by
    rw [extended, String.toList_append, hchars, parts_append_dot hclosed htext, if_pos hdropped,
      List.append_nil]
  have hwords : (operation.extended extension).pathWords = operation.pathWords := by
    unfold pathWords
    rw [hparts]
    rfl
  rw [urlName, hwords]
  rfl

namespace Library

/-- The owner of a pet, behind a placeholder, with an extension at the end. -/
def getPetOwner : Operation := ⟨"GET", "/pets.json/\x7bpet_id\x7d/owner.asp", "d#/paths/~1owner/get", .map []⟩

end Library

open Library in
/-- One more extension, in capitals, behind one that is left out already. -/
theorem urlName_extended_owner :
    getPetOwner.path.toList.getLast?.any isPartChar ∧ Text.asciiLower ".PhP" ∈ droppedExtensions ∧
      (getPetOwner.extended ".PhP").urlName = getPetOwner.urlName :=
  have hpath : getPetOwner.path.toList.getLast?.any isPartChar := by decide +kernel
  have hextension : Text.asciiLower ".PhP" ∈ droppedExtensions := by decide +kernel
  ⟨hpath, hextension, urlName_extended hpath hextension⟩

end Operation

end ApiModel
