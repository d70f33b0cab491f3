import ApiModel.Proofs.DataType.Objects
import ApiModel.Proofs.Registry.Location
import ApiModel.Text.Transliteration

/-!
# Spellings of one path

A `$ref` can spell a path in many ways, since any character may be percent-coded or stand for itself. All
spellings lead to the same node. But classes are looked for by the text of the reference, so a spelling
other than the one that references are written in is not known to mean a class, and the node of the class
is typed as if it were none (`typeOf_by_spelling`).
-/

namespace ApiModel.Registry

/-- Take a class at the path of a document, after all documents have been read, and a `$ref` whose pointer
spells the same path in the same document. It leads to the node of the class. If its pointer is written as
references write it, its type is the class. In any other spelling its type is no object at all. -/
theorem typeOf_by_spelling {load : Loader} {origins paths : List String} {rootName wrapper : String}
    {spell : Text.Spelling} {format : DateTimeFormat} (hplain : ∀ origin ∈ origins, '#' ∉ origin.toList)
    (hload : ∀ origin ∈ origins, ∀ root, load origin = .ok root → root.WellFormed)
    {read : Registry} (hread : ((ofOrigins origins rootName).setWhitelist paths).readDocuments load
      (Rules.standard spell wrapper format) = .ok read)
    {origin : String} {path : List String} (hfirst : path.head? ≠ some "") {c : Class}
    (hclass : read.class? (Reference.child (Reference.root origin) path) = some c)
    {site : Site} {text : String} (htarget : site.target? = some text) {pointer : List Char}
    (hat : Reference.IsAt origin pointer (site.resolve text))
    (hpath : Pointer.path? pointer = some path) :
    read.node? (site.resolve text) = some c.node ∧
      (pointer = Reference.segments path →
        (Rules.standard spell wrapper format).typeOf read site = .ok (.object c.reference c.name)) ∧
      (pointer ≠ Reference.segments path → ∀ reference name,
        (Rules.standard spell wrapper format).typeOf read site ≠ .ok (.object reference name)) := by
  obtain ⟨hreference, hlocated, hsupports⟩ := located_of_class? hload hread hclass
  have hown : Reference.IsAt origin (Reference.segments path) c.reference := by
    rw [hreference]
    exact (Reference.isAt_root hat.1).child path
  -- the path leads from the root of the document to the node of the class
  obtain ⟨-, horigin, root, hroot, hleads⟩ :=
    hlocated.path hplain hown (Reference.path?_segments path)
  have hwell := hload origin horigin root hroot
  obtain ⟨schema, hschema, hc, -⟩ := mem_of_class? hclass
  have hplaced := (found_located hload hread).placed
  obtain rfl : schema.origin = origin :=
    ((hplaced.housed schema hschema).home c hc).symm.trans hown.document
  have hnode : read.node? (site.resolve text) = some c.node := by
    rw [node?_of_path? hplain hread hschema hroot hat hpath hfirst]
    exact Pointer.walk?_of_leadsTo hleads hwell
  refine ⟨hnode, ?_, ?_⟩
  · rintro rfl
    have hsame : site.resolve text = c.reference :=
      String.toList_injective (hat.2.trans hown.2.symm)
    rw [← hreference, ← hsame] at hclass
    rw [← hsame]
    exact typeAt_of_target htarget hclass
  · intro hother reference name htype
    have hnone : read.class? (site.resolve text) = none := by
      cases hfound : read.class? (site.resolve text) with
      | none => rfl
      | some d =>
        obtain ⟨hd, hdlocated, -⟩ := located_of_class? hload hread hfound
        rw [← hd] at hat
        exact absurd (hdlocated.path hplain hat hpath).1 hother
    -- so the node is typed under a reference that is no class
    rw [typeOf_of_target htarget hnone hnode] at htype
    have hinline : Site.target? ⟨c.node, site.resolve text⟩ = none :=
      ClassRule.target?_of_supports hsupports
    obtain ⟨rfl, d, hd, -⟩ := (typeAt_eq_object_iff hinline).1 htype
    rw [hnone] at hd
    cases hd

namespace Coffee

/-- A class whose key is not plain ASCII. -/
def house : Document :=
  .map [
    ("swagger", .string "2.0"),
    ("definitions", .map [
      ("Café", .map [("properties", .map [("name", .map [("type", .string "string")])])])])]

/-- Serves the house under any name. -/
def loader : Loader := fun _ => .ok house

/-- The registry before the house is read. -/
def start : Registry := (ofOrigins ["menu"] "Root").setWhitelist []

/-- Refers to the class with its key as it is. -/
def raw : Site := ⟨.map [("$ref", .string "#/definitions/Café")], "menu#/owner"⟩

/-- Refers to the class with its key percent-coded. -/
def coded : Site := ⟨.map [("$ref", .string "#/definitions/Caf%C3%A9")], "menu#/owner"⟩

/-- Whether a type was found, and it is mixed. -/
def isMixed : Except Error DataType → Bool
  | .ok .mixed => true
  | _ => false

theorem eq_of_isMixed {result : Except Error DataType} (h : isMixed result) : result = .ok .mixed := by
  unfold isMixed at h
  split at h
  · rfl
  · cases h

/-- The house can be read. The class is found at its key, and what refers to it with the key as it is has
no type. -/
theorem exists_read :
    ∃ read, start.readDocuments loader (Rules.standard Text.transliterate "DateTime" {}) = .ok read ∧
      ∃ c, read.class? "menu#/definitions/Caf%C3%A9" = some c ∧
        (Rules.standard Text.transliterate "DateTime" {}).typeOf read raw = .ok .mixed := by
  have hends :
      (start.readDocuments loader (Rules.standard Text.transliterate "DateTime" {})).toOption.any fun read =>
        read.hasClass "menu#/definitions/Caf%C3%A9" &&
          isMixed (typeWithin (Rules.standard Text.transliterate "DateTime" {}).types read 2 [] raw) := by
    decide +kernel
  cases hread : start.readDocuments loader (Rules.standard Text.transliterate "DateTime" {}) with
  | error error => rw [hread] at hends; cases hends
  | ok read =>
    rw [hread] at hends
    obtain ⟨hhas, htype⟩ := Bool.and_eq_true_iff.1 hends
    obtain ⟨c, hclass⟩ := Option.isSome_iff_exists.1 hhas
    exact ⟨read, rfl, c, hclass, typeAt_of_typeWithin (eq_of_isMixed htype)⟩

theorem child_root :
    Reference.child (Reference.root "menu") ["definitions", "Café"] =
      "menu#/definitions/Caf%C3%A9" := by
  decide +kernel

theorem isAt_raw :
    Reference.IsAt "menu" "/definitions/Café".toList (raw.resolve "#/definitions/Café") :=
  ⟨by decide, by decide +kernel⟩

theorem path?_raw : Pointer.path? "/definitions/Café".toList = some ["definitions", "Café"] := by
  decide +kernel

end Coffee

open Coffee in
/-- The coded spelling has the class as its type, and the raw one has no object. -/
theorem typeOf_by_spelling_coffee :
    ∃ read, start.readDocuments loader (Rules.standard Text.transliterate "DateTime" {}) = .ok read ∧
      ∃ c, read.class? "menu#/definitions/Caf%C3%A9" = some c ∧
        (Rules.standard Text.transliterate "DateTime" {}).typeOf read coded = .ok (.object c.reference c.name) ∧
        ∀ reference name, (Rules.standard Text.transliterate "DateTime" {}).typeOf read raw ≠
          .ok (.object reference name) := by
  obtain ⟨read, hread, c, hclass, -⟩ := exists_read
  have hplain : ∀ origin ∈ ["menu"], '#' ∉ origin.toList := by decide
  have hload : ∀ origin ∈ ["menu"], ∀ root, loader origin = .ok root → root.WellFormed := by
    rintro origin - root ⟨⟩
    decide +kernel
  have hfirst : ["definitions", "Café"].head? ≠ some "" := by decide
  have hat : Reference.IsAt "menu" "/definitions/Caf%C3%A9".toList
      (coded.resolve "#/definitions/Caf%C3%A9") := ⟨by decide, by decide +kernel⟩
  have hpath : Pointer.path? "/definitions/Caf%C3%A9".toList = some ["definitions", "Café"] := by
    decide +kernel
  have hfound := hclass
  rw [← child_root] at hfound
  obtain ⟨-, hcoded, -⟩ := typeOf_by_spelling hplain hload hread hfirst hfound rfl hat hpath
  obtain ⟨-, -, hraw⟩ := typeOf_by_spelling hplain hload hread hfirst hfound rfl isAt_raw path?_raw
  exact ⟨read, hread, c, hclass, hcoded (by decide +kernel), hraw (by decide +kernel)⟩

open Coffee in
/-- A spelling of the path of a class that leads to its node and has another type. -/
theorem mixed_of_raw_spelling :
    ∃ read, start.readDocuments loader (Rules.standard Text.transliterate "DateTime" {}) = .ok read ∧
      ∃ c, read.class? (Reference.child (Reference.root "menu") ["definitions", "Café"]) = some c ∧
        raw.target? = some "#/definitions/Café" ∧
        Reference.IsAt "menu" "/definitions/Café".toList (raw.resolve "#/definitions/Café") ∧
        Pointer.path? "/definitions/Café".toList = some ["definitions", "Café"] ∧
        (Rules.standard Text.transliterate "DateTime" {}).typeOf read raw = .ok .mixed := by
  obtain ⟨read, hread, c, hclass, htype⟩ := exists_read
  exact ⟨read, hread, c, child_root ▸ hclass, rfl, isAt_raw, path?_raw, htype⟩

end ApiModel.Registry
