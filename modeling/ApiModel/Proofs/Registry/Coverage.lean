import ApiModel.Proofs.Class.Coverage
import ApiModel.Proofs.DataType.Objects
import ApiModel.Proofs.Registry.Evaluation
import ApiModel.Text.Transliteration

/-!
# Nested object schemas are objects

After a build without a whitelist every object schema that is nested in the node of a class, at one of the
places that are searched, is a class itself, and so a node of such a place is typed as an object wherever
its type is asked for (`objects_of_nests`). The search and the types look at different places: an object
schema that only the types come to is no class, and its structure is lost.
-/

namespace ApiModel

/-- What is known of a class when it is found. -/
def Class.declared (c : Class) : String × Site := (c.name, c.site)

namespace Registry

/-- Two registries have classes under the same references, with the same names and nodes. -/
def Alongside (a b : Registry) : Prop :=
  ∀ reference, (a.class? reference).map Class.declared = (b.class? reference).map Class.declared

namespace Alongside

variable {a b : Registry} (h : a.Alongside b)
include h

theorem exists_class? {reference : String} {c : Class} (hclass : a.class? reference = some c) :
    ∃ d, b.class? reference = some d ∧ d.site = c.site := by
  have hsame := h reference
  rw [hclass, Option.map_some, eq_comm, Option.map_eq_some_iff] at hsame
  obtain ⟨d, hd, hdeclared⟩ := hsame
  exact ⟨d, hd, congrArg Prod.snd hdeclared⟩

theorem hasClass (reference : String) : a.hasClass reference = b.hasClass reference := by
  have hsame := congrArg Option.isSome (h reference)
  rw [Option.isSome_map, Option.isSome_map] at hsame
  exact hsame

end Alongside

variable {load : Loader} {rules : Rules} {registry read : Registry}

/-! ## Reading documents -/

theorem readDocument_extends {origin : String}
    (h : readDocument load rules registry origin = .ok read) : registry.Extends read := by
  obtain ⟨root, name, reached, _, rfl, hok, rfl⟩ := readDocument_eq_ok h
  refine (discover_extends hok).1.trans (.of_lists ?_)
  apply lists_modifySchema_of_classes
  intro schema
  rfl

theorem readDocuments_extends (h : registry.readDocuments load rules = .ok read) :
    registry.Extends read :=
  Traversal.foldlM_preserves (P := registry.Extends)
    (fun _ _ _ _ hext hstep => hext.trans (readDocument_extends hstep))
    (.of_lists fun _ => Iff.rfl) h

/-- After the documents of new schemas have been read, every class is covered. -/
theorem covered_of_readDocuments {origins paths : List String} {rootName : String}
    (hread : ((ofOrigins origins rootName).setWhitelist paths).readDocuments load rules = .ok read)
    {c : Class} (hc : read.Lists c) : read.Covered c := by
  refine ((readDocuments_extends hread).covers c hc).resolve_left ?_
  rintro ⟨schema, hschema, hmem⟩
  obtain ⟨origin, _, rfl⟩ := mem_ofOrigins hschema
  cases hmem

/-! ## The later passes -/

/-- The passes after the documents were read add no class and take none away, and none gets another name,
node or reference. -/
theorem Placed.alongside {resolved : Registry} (h : read.Placed)
    (hresolved : read.resolveClasses rules = .ok resolved) : resolved.linkUnions.Alongside read := by
  intro reference
  have hadopt : Class.declared ∘ resolved.unionLinks.foldl Class.adopt = Class.declared := by
    funext c
    obtain ⟨kind, hkind⟩ := c.foldl_adopt_eq resolved.unionLinks
    show (resolved.unionLinks.foldl Class.adopt c).declared = _
    rw [hkind]
    rfl
  have houtline := congrArg (·.class? reference) (h.outline_of_resolveClasses hresolved)
  simp only [class?_outline] at houtline
  have hsame := congrArg (Option.map Class.declared) houtline
  rw [Option.map_map, Option.map_map] at hsame
  rw [(h.placed_of_resolveClasses hresolved).class?_linkUnions, Option.map_map, hadopt]
  exact hsame

theorem whitelist_readDocument {origin : String}
    (h : readDocument load rules registry origin = .ok read) : read.whitelist = registry.whitelist := by
  obtain ⟨root, name, _, _, rfl, _, rfl⟩ := readDocument_eq_ok h
  have hblank := blank_discover rules.spell rules.classes registry ⟨name, root, Reference.root origin⟩
  have hsame := congrArg Registry.whitelist hblank
  exact hsame

/-- Nothing changes the whitelist. -/
theorem whitelist_assembled {resolved : Registry} (hplaced : read.Placed)
    (hread : registry.readDocuments load rules = .ok read)
    (hresolved : read.resolveClasses rules = .ok resolved) :
    resolved.linkUnions.whitelist = registry.whitelist := by
  have hresolve := congrArg Registry.whitelist (hplaced.outline_of_resolveClasses hresolved)
  rw [(hplaced.placed_of_resolveClasses hresolved).linkUnions]
  refine Eq.trans hresolve ?_
  exact Traversal.foldlM_preserves (P := fun after => after.whitelist = registry.whitelist)
    (fun _ _ _ _ hsame hstep => (whitelist_readDocument hstep).trans hsame) rfl hread

/-! ## The whole build -/

section

variable {origins : List String} {rootName : String} {built : Registry}
  (hbuilt : ((ofOrigins origins rootName).setWhitelist []).build load rules = .ok built)
include hbuilt

/-- A build without a whitelist ends with the classes that were found. -/
theorem exists_read_of_build :
    ∃ read, ((ofOrigins origins rootName).setWhitelist []).readDocuments load rules = .ok read ∧
      built.Alongside read := by
  rw [build_eq] at hbuilt
  obtain ⟨assembled, hassembled, rfl⟩ := Traversal.map_eq_ok.1 hbuilt
  obtain ⟨read, resolved, hread, hresolved, rfl⟩ := assemble_eq_ok hassembled
  have hplaced := (found_of_readDocuments hread).placed
  have hkept : resolved.linkUnions.prune = resolved.linkUnions :=
    if_pos (whitelist_assembled hplaced hread hresolved)
  rw [hkept]
  exact ⟨read, hread, hplaced.alongside hresolved⟩

variable {reference : String} {c : Class} (hclass : built.class? reference = some c) {inner : Site}
  (hnests : c.site.Nests inner) (hsupports : ClassRule.objectSchema.supports inner.node)
include hclass hnests hsupports

/-- An object schema that is nested in a class is a class. -/
theorem hasClass_of_nests : built.hasClass inner.reference := by
  obtain ⟨read, hread, halong⟩ := exists_read_of_build hbuilt
  obtain ⟨found, hfound, hsite⟩ := halong.exists_class? hclass
  obtain ⟨schema, hschema, hmem, -⟩ := mem_of_class? hfound
  rw [halong.hasClass]
  exact covered_of_readDocuments hread ⟨schema, hschema, hmem⟩ inner (hsite ▸ hnests) hsupports

end

/-- After a build without a whitelist, an object schema at a place that is nested in a class is a class, and
it is typed as that class wherever a search for a type comes to it. At any other place too, an object schema
is typed as an object exactly if it is a class. -/
theorem objects_of_nests {origins : List String} {rootName wrapper : String} {spell : Text.Spelling}
    {format : DateTimeFormat} {built : Registry}
    (hbuilt : ((ofOrigins origins rootName).setWhitelist []).build load
      (Rules.standard spell wrapper format) = .ok built) :
    (∀ reference c inner, built.class? reference = some c → c.site.Nests inner →
      ClassRule.objectSchema.supports inner.node →
        ∃ d, built.class? inner.reference = some d ∧
          ∀ followed, typeAt (Rules.standard spell wrapper format).types built followed inner =
            .ok (.object inner.reference d.name)) ∧
      ∀ site followed reference name, ClassRule.objectSchema.supports site.node →
        (typeAt (Rules.standard spell wrapper format).types built followed site =
            .ok (.object reference name) ↔
          site.reference = reference ∧ built.Names reference name) := by
  refine ⟨fun reference c inner hclass hnests hsupports => ?_,
    fun site followed reference name hsupports =>
      typeAt_eq_object_iff (ClassRule.target?_of_supports hsupports)⟩
  have hhas := hasClass_of_nests hbuilt hclass hnests hsupports
  obtain ⟨d, hd⟩ := Option.isSome_iff_exists.1 hhas
  refine ⟨d, hd, fun followed => ?_⟩
  exact typeAt_of_class (ClassRule.target?_of_supports hsupports) hd

/-- A search for the type of an array comes to its items. -/
theorem calls_items {registry : Registry} {types : List TypeRule} {followed : List String}
    {site items : Site} (hrule : types.find? (·.supports registry site) = some .array)
    (hitems : site.object? "items" = some items) :
    TypeCalls types registry ⟨followed, site⟩ ⟨followed, items⟩ := by
  have hplan : TypeRule.array.plan registry site =
      .ok (.combine [items] fun types => .array (types.headD .mixed)) := by
    simp only [TypeRule.plan, TypeRule.planArray, hitems]
  exact .combine ⟨.array, hrule, hplan⟩ List.mem_cons_self

/-! ## A shelter -/

namespace Shelter

/-- A pet with an owner, and with rows of tags. -/
def pets : Document :=
  .map [
    ("swagger", .string "2.0"),
    ("definitions", .map [
      ("Pet", .map [
        ("properties", .map [
          ("owner", .map [("properties", .map [("name", .map [("type", .string "string")])])]),
          ("tags", .map [
            ("type", .string "array"),
            ("items", .map [
              ("type", .string "array"),
              ("items", .map [("properties", .map [("text", .map [("type", .string "string")])])])])
          ])])])])]

/-- Serves the pets under any name. -/
def loader : Loader := fun _ => .ok pets

/-- The registry before the pets are read. -/
def start : Registry := (ofOrigins ["shelter"] "Root").setWhitelist []

/-- A property whose type is an array of arrays of anything, although the items of its items are an object
schema; that is no class. -/
def isLost (built : Registry) (property : Property) : Bool :=
  let isArray := fun site =>
    (Rules.standard Text.transliterate "DateTime" {}).types.find? (·.supports built site) = some .array
  (match property.type with
    | .array (.array .mixed) => true
    | _ => false) &&
  (isArray property.site && (property.site.object? "items").any fun row =>
    isArray row && (row.object? "items").any fun tag =>
      ClassRule.objectSchema.supports tag.node && !built.hasClass tag.reference)

/-- What can be computed of the pets: the owner is nested in a pet, and the tags are lost. -/
theorem exists_pet :
    ∃ built, start.build loader (Rules.standard Text.transliterate "DateTime" {}) = .ok built ∧
      ∃ c, built.class? "shelter#/definitions/Pet" = some c ∧
        (∃ entry ∈ c.site.entries "properties", ClassRule.objectSchema.supports entry.2.node ∧
          entry.2.reference = "shelter#/definitions/Pet/properties/owner") ∧
        ∃ property ∈ c.properties, isLost built property := by
  have hends :
      (start.buildWithin 4 loader (Rules.standard Text.transliterate "DateTime" {})).toOption.any fun built =>
        (built.class? "shelter#/definitions/Pet").any fun c =>
          (c.site.entries "properties").any (fun entry =>
            ClassRule.objectSchema.supports entry.2.node &&
              entry.2.reference = "shelter#/definitions/Pet/properties/owner") &&
          c.properties.any (isLost built) := by
    decide +kernel
  obtain ⟨built, hbuilt, hpet⟩ := exists_build_of_any hends
  obtain ⟨c, hclass, hchecked⟩ := (Option.any_eq_true _ _).1 hpet
  obtain ⟨howner, hlost⟩ := Bool.and_eq_true_iff.1 hchecked
  refine ⟨built, hbuilt, c, hclass, ?_, List.any_eq_true.1 hlost⟩
  obtain ⟨entry, hentry, hboth⟩ := List.any_eq_true.1 howner
  obtain ⟨hsupports, href⟩ := Bool.and_eq_true_iff.1 hboth
  exact ⟨entry, hentry, hsupports, of_decide_eq_true href⟩

end Shelter

open Shelter in
/-- The owner is nested in the pet, and so it is a class. -/
theorem objects_of_nests_shelter :
    ∃ built, start.build loader (Rules.standard Text.transliterate "DateTime" {}) = .ok built ∧
      built.hasClass "shelter#/definitions/Pet/properties/owner" := by
  obtain ⟨built, hbuilt, c, hclass, ⟨entry, hentry, hsupports, href⟩, -⟩ := exists_pet
  have hnests : c.site.Nests entry.2 := .property hentry
  obtain ⟨hnested, -⟩ := objects_of_nests hbuilt
  obtain ⟨d, hd, -⟩ := hnested _ c entry.2 hclass hnests hsupports
  rw [href] at hd
  exact ⟨built, hbuilt, by rw [hasClass, hd]; rfl⟩

open Shelter in
/-- A search for the type of the tags comes to an object schema that is no class, and nothing of it is in
the type. -/
theorem not_hasClass_of_nested_items :
    ∃ built, start.build loader (Rules.standard Text.transliterate "DateTime" {}) = .ok built ∧
      ∃ c, built.class? "shelter#/definitions/Pet" = some c ∧
        ∃ property ∈ c.properties, property.type = .array (.array .mixed) ∧
          ∃ tag, Relation.ReflTransGen (TypeCalls (Rules.standard Text.transliterate "DateTime" {}).types built)
              ⟨[], property.site⟩ ⟨[], tag⟩ ∧
            ClassRule.objectSchema.supports tag.node ∧ ¬ built.hasClass tag.reference := by
  obtain ⟨built, hbuilt, c, hclass, -, property, hproperty, hlost⟩ := exists_pet
  obtain ⟨htype, hitems⟩ := Bool.and_eq_true_iff.1 hlost
  obtain ⟨harray, hrows⟩ := Bool.and_eq_true_iff.1 hitems
  obtain ⟨row, hrow, hrest⟩ := (Option.any_eq_true _ _).1 hrows
  obtain ⟨hrowArray, htags⟩ := Bool.and_eq_true_iff.1 hrest
  obtain ⟨tag, htag, hboth⟩ := (Option.any_eq_true _ _).1 htags
  obtain ⟨hsupports, hnone⟩ := Bool.and_eq_true_iff.1 hboth
  refine ⟨built, hbuilt, c, hclass, property, hproperty, ?_, tag, ?_, hsupports, ?_⟩
  · split at htype
    · assumption
    · cases htype
  · refine .head (calls_items (of_decide_eq_true harray) hrow) (.single ?_)
    exact calls_items (of_decide_eq_true hrowArray) htag
  · simpa using hnone

end Registry

end ApiModel
