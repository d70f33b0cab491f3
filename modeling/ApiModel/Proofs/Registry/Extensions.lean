import ApiModel.Proofs.Registry.Identifiers
import ApiModel.Proofs.Registry.Location
import ApiModel.Text.Transliteration

/-!
# Extensions and the pattern that is taken

A class has an extension for each pattern under `patternProperties`, and one for `additionalProperties`
under a pattern that is meant to match what the others leave. Extensions are kept by pattern. So all that a
node declares are there, each with its type, unless the node gives that same pattern a schema of its own:
then `additionalProperties` is kept in the place of that schema (`Registry.slots_of_build`).
-/

namespace ApiModel

/-! ## What a node declares -/

namespace Site

/-- The site of `additionalProperties` where that allows properties. If it is just `true`, it stands for an
empty object. -/
def additional? (site : Site) : Option Site :=
  match site.node.get? "additionalProperties" with
  | some (.map entries) => some (site.under ["additionalProperties"] (.map entries))
  | some (.bool true) => some (site.under ["additionalProperties"] (.map []))
  | _ => none

/-- The extension that is made from a site. -/
def extension (site : Site) : Extension := ⟨site.node, site.reference⟩

/-- The extensions for `patternProperties`. -/
def patternSlots (site : Site) : List (String × Extension) :=
  (site.entries "patternProperties").map fun entry => (entry.1, entry.2.extension)

/-- The pattern that stands for `additionalProperties` has a schema too. -/
def Clashes (site : Site) : Prop :=
  site.additional?.isSome ∧ additionalPattern ∈ site.patternSlots.map Prod.fst

instance (site : Site) : Decidable site.Clashes :=
  inferInstanceAs (Decidable (site.additional?.isSome ∧ additionalPattern ∈ site.patternSlots.map Prod.fst))

variable {site inner : Site}

theorem reference_of_additional? (h : site.additional? = some inner) :
    inner.reference = Reference.child site.reference ["additionalProperties"] := by
  unfold additional? at h
  split at h
  · cases h
    rfl
  · cases h
    rfl
  · cases h

theorem extensionSites_eq (site : Site) :
    extensionSites site = site.entries "patternProperties" ++
      site.additional?.toList.map fun inner => (additionalPattern, inner) := by
  unfold extensionSites additional?
  cases site.node.get? "additionalProperties" with
  | none => rfl
  | some value =>
    cases value with
    | bool allowed =>
      cases allowed with
      | false => rfl
      | true => rfl
    | map entries => rfl
    | null | int _ | float _ | string _ | list _ => rfl

/-- The keys of an object are those of its entries. -/
theorem nodup_entries (h : site.node.WellFormed) (key : String) :
    ((site.entries key).map Prod.fst).Nodup := by
  unfold entries
  rw [List.map_map]
  cases hentries : site.node.entriesAt? key with
  | none => exact List.nodup_nil
  | some entries => exact (Document.wellFormed_map.1 (h.get? (Document.get?_of_entriesAt? hentries))).1

theorem nodup_patternSlots (h : site.node.WellFormed) : (site.patternSlots.map Prod.fst).Nodup := by
  rw [patternSlots, List.map_map]
  exact nodup_entries h "patternProperties"

end Site

/-! ## What a class keeps of it -/

section Slots

variable {site inner : Site} (h : site.node.WellFormed)
include h

/-- The extensions for `patternProperties`, and behind them or in the place of one that for
`additionalProperties`. -/
theorem extensionsOf_eq :
    extensionsOf site = site.additional?.toList.foldl
      (fun slots inner => Keyed.put Prod.fst (additionalPattern, inner.extension) slots)
      site.patternSlots := by
  have hput : extensionsOf site = (extensionSites site).foldl
      (fun slots slot => Keyed.put Prod.fst (slot.1, slot.2.extension) slots) [] := rfl
  have hkeys : (([] ++ (site.entries "patternProperties").map fun entry : String × Site =>
      (entry.1, entry.2.extension)).map Prod.fst).Nodup := Site.nodup_patternSlots h
  rw [hput, Site.extensionSites_eq, List.foldl_append, Keyed.foldl_put_eq_append _ hkeys,
    List.foldl_map, List.nil_append]
  rfl

theorem nodup_extensionsOf : ((extensionsOf site).map Prod.fst).Nodup := by
  rw [extensionsOf_eq h]
  exact Keyed.nodup_foldl_put (f := fun inner : Site => (additionalPattern, inner.extension)) _
    (Site.nodup_patternSlots h)

theorem additional_mem_extensionsOf (hadditional : site.additional? = some inner) :
    (additionalPattern, inner.extension) ∈ extensionsOf site := by
  rw [extensionsOf_eq h, hadditional]
  exact Keyed.mem_of_get? (Keyed.get?_put_self Prod.fst (additionalPattern, inner.extension) _)

/-- The schema of a pattern is kept unless `additionalProperties` takes the pattern. -/
theorem pattern_mem_extensionsOf_iff {pattern : String}
    (hentry : (pattern, inner) ∈ site.entries "patternProperties") :
    (pattern, inner.extension) ∈ extensionsOf site ↔
      ¬ (pattern = additionalPattern ∧ site.additional?.isSome) := by
  have hslot : (pattern, inner.extension) ∈ site.patternSlots :=
    List.mem_map_of_mem (f := fun entry : String × Site => (entry.1, entry.2.extension)) hentry
  have hget := Keyed.get?_eq_some_of_mem (Site.nodup_patternSlots h) hslot
  cases hadditional : site.additional? with
  | none =>
    rw [extensionsOf_eq h, hadditional]
    exact ⟨fun _ hboth => Bool.noConfusion hboth.2, fun _ => hslot⟩
  | some additional =>
    constructor
    · rintro hkept ⟨rfl, -⟩
      -- one pattern has one extension, and the two schemas stand at different keys
      have hsame := List.inj_on_of_nodup_map (nodup_extensionsOf h) hkept
        (additional_mem_extensionsOf h hadditional) rfl
      have hreference : inner.reference = additional.reference :=
        congrArg (fun slot => slot.2.reference) hsame
      obtain ⟨_, _, _, _, hinner⟩ := Site.exists_of_mem_entries hentry
      rw [show inner = _ from hinner, Site.reference_of_additional? hadditional] at hreference
      exact absurd (Reference.child_injective _ hreference) (by simp)
    · intro hother
      have hne : additionalPattern ≠ pattern := fun heq => hother ⟨heq.symm, rfl⟩
      rw [extensionsOf_eq h, hadditional]
      exact Keyed.mem_of_get?
        ((Keyed.get?_put_of_ne (x := (additionalPattern, additional.extension)) hne _).trans hget)

/-- One extension less than the node declares is kept where patterns clash, and all otherwise. -/
theorem length_extensionsOf :
    (site.Clashes → (extensionsOf site).length + 1 = (extensionSites site).length) ∧
      (¬ site.Clashes → (extensionsOf site).length = (extensionSites site).length) := by
  have hlength : (extensionsOf site).length = ((extensionsOf site).map Prod.fst).length :=
    (List.length_map Prod.fst).symm
  have hslots : (site.patternSlots.map Prod.fst).length = (site.entries "patternProperties").length := by
    rw [List.length_map, Site.patternSlots, List.length_map]
  unfold Site.Clashes
  rw [hlength, Site.extensionSites_eq, List.length_append, ← hslots, extensionsOf_eq h]
  cases site.additional? with
  | none => exact ⟨fun hclash => Bool.noConfusion hclash.1, fun _ => rfl⟩
  | some inner =>
    rw [Option.toList_some, List.foldl_cons, List.foldl_nil, Keyed.map_put, Keyed.addNew]
    constructor
    · rintro ⟨-, hmem⟩
      rw [if_pos hmem]
      rfl
    · intro hnone
      rw [if_neg fun hmem => hnone ⟨rfl, hmem⟩, List.length_append]
      rfl

end Slots

/-! ## Types -/

/-- The class has an extension for a pattern that is made from a site, and the type of that site. -/
def Class.HasSlot (rules : Rules) (read : Registry) (c : Class) (pattern : String) (site : Site) : Prop :=
  (pattern, site.extension) ∈ c.extensions ∧
    ∃ type, rules.typeOf read site = .ok type ∧ (pattern, type) ∈ c.extensionTypes

/-- What a class has of the extensions that its node declares. -/
structure Class.KeepsSlots (rules : Rules) (read : Registry) (c : Class) : Prop where
  nodup : (c.extensions.map Prod.fst).Nodup
  /-- Types stand under the patterns of the extensions, in their order. -/
  patterns : c.extensionTypes.map Prod.fst = c.extensions.map Prod.fst
  additional : ∀ inner, c.site.additional? = some inner → c.HasSlot rules read additionalPattern inner
  /-- The schema of a pattern is lost exactly if `additionalProperties` has the pattern. -/
  pattern : ∀ pattern inner, (pattern, inner) ∈ c.site.entries "patternProperties" →
    (c.HasSlot rules read pattern inner ↔ ¬ (pattern = additionalPattern ∧ c.site.additional?.isSome))
  clash : c.site.Clashes → c.extensions.length + 1 = (extensionSites c.site).length
  whole : ¬ c.site.Clashes → c.extensions.length = (extensionSites c.site).length

/-- Where no patterns clash, nothing that is declared is lost. -/
theorem Class.KeepsSlots.hasSlot {c : Class} {rules : Rules} {read : Registry}
    (h : c.KeepsSlots rules read) (hclash : ¬ c.site.Clashes) :
    ∀ slot ∈ extensionSites c.site, c.HasSlot rules read slot.1 slot.2 := by
  intro slot hslot
  rw [Site.extensionSites_eq] at hslot
  rcases List.mem_append.1 hslot with hentry | hadditional
  · refine (h.pattern slot.1 slot.2 hentry).2 fun ⟨heq, hsome⟩ => hclash ⟨hsome, heq ▸ ?_⟩
    exact List.mem_map_of_mem (List.mem_map_of_mem (f := fun entry : String × Site =>
      (entry.1, entry.2.extension)) hentry)
  · obtain ⟨inner, hinner, rfl⟩ := List.mem_map.1 hadditional
    exact h.additional inner (Option.mem_toList.1 hinner)

/-- Finding members keeps the extensions and gives each of them its type. -/
theorem Class.extensions_of_resolve {c resolved : Class} {rules : Rules} {read : Registry}
    (h : c.resolve rules read = .ok resolved) :
    resolved.extensions = c.extensions ∧
      List.Forall₂ (fun slot typed => typed.1 = slot.1 ∧ rules.typeOf read slot.2.site = .ok typed.2)
        c.extensions resolved.extensionTypes := by
  obtain ⟨_, _, h⟩ := Traversal.bind_eq_ok.1 h
  obtain ⟨types, htypes, h⟩ := Traversal.bind_eq_ok.1 h
  cases h
  refine ⟨rfl, (Traversal.mapM_eq_ok_iff.1 htypes).imp fun slot typed hstep => ?_⟩
  obtain ⟨type, htype, hstep⟩ := Traversal.bind_eq_ok.1 hstep
  cases hstep
  exact ⟨rfl, htype⟩

/-- A class that is made from a well-formed node keeps what that declares when it gets its members. -/
theorem Class.keepsSlots_of_resolve {c resolved : Class} {rules : Rules} {read : Registry}
    (hwell : c.node.WellFormed) (hdeclared : c.extensions = extensionsOf c.site)
    (h : c.resolve rules read = .ok resolved) : resolved.KeepsSlots rules read := by
  obtain ⟨hextensions, htypes⟩ := extensions_of_resolve h
  have hsite : resolved.site = c.site := by
    show resolved.outline.site = c.outline.site
    rw [outline_of_resolve h]
  rw [hdeclared] at hextensions htypes
  have hslot : ∀ pattern inner, resolved.HasSlot rules read pattern inner ↔
      (pattern, inner.extension) ∈ extensionsOf c.site := by
    intro pattern inner
    constructor
    · exact fun hslot => hextensions ▸ hslot.1
    · intro hmem
      obtain ⟨⟨_, type⟩, htyped, rfl, htype⟩ := Traversal.exists_of_mem_left htypes hmem
      exact ⟨hextensions.symm ▸ hmem, type, htype, htyped⟩
  constructor
  case nodup =>
    rw [hextensions]
    exact nodup_extensionsOf hwell
  case patterns =>
    rw [hextensions]
    exact Traversal.map_eq_of_forall₂ (fun _ _ htyped => htyped.1) htypes
  case additional =>
    rw [hsite]
    exact fun inner hadditional => (hslot _ _).2 (additional_mem_extensionsOf hwell hadditional)
  case pattern =>
    rw [hsite]
    exact fun pattern inner hentry => (hslot _ _).trans (pattern_mem_extensionsOf_iff hwell hentry)
  case clash =>
    rw [hsite, hextensions]
    exact (length_extensionsOf hwell).1
  case whole =>
    rw [hsite, hextensions]
    exact (length_extensionsOf hwell).2

namespace Registry

variable {origins paths : List String} {rootName : String} {load : Loader} {rules : Rules}
  {built : Registry}

/-- Each extension of a class in a build has its type, and no pattern comes twice. The class has the
extension that is made from `additionalProperties`, and those that are made from `patternProperties` but
the one under the pattern that `additionalProperties` stands under. That one is lost. -/
theorem slots_of_build
    (hload : ∀ origin ∈ origins, ∀ root, load origin = .ok root → root.WellFormed)
    (hbuilt : ((ofOrigins origins rootName).setWhitelist paths).build load rules = .ok built) :
    ∃ read, ((ofOrigins origins rootName).setWhitelist paths).readDocuments load rules = .ok read ∧
      ∀ schema ∈ built.schemas, ∀ c ∈ schema.classes, c.KeepsSlots rules read := by
  obtain ⟨read, hread, hfrom⟩ := exists_found_of_build hbuilt
  refine ⟨read, hread, fun schema hschema c hc => ?_⟩
  obtain ⟨found, resolved, kind, hfound, hresolve, rfl⟩ := hfrom schema hschema c hc
  -- the class was made from a node of a well-formed document
  obtain ⟨-, ⟨origin, horigin, root, _, hroot, hleads, -⟩, -⟩ := located_of_class? hload hread hfound
  have hwell : found.node.WellFormed := hleads.wellFormed (hload origin horigin root hroot)
  have hdeclared : found.extensions = extensionsOf found.site := by
    have hseeds := found_of_readDocuments hread
    obtain ⟨before, hbefore, hmem, _⟩ := mem_of_class? hfound
    obtain ⟨seed, _, _, _, rfl⟩ := (hseeds.found before hbefore).classes found hmem
    rfl
  have hkeeps := Class.keepsSlots_of_resolve hwell hdeclared hresolve
  -- the union that a class is a child of plays no part in it
  exact ⟨hkeeps.nodup, hkeeps.patterns, hkeeps.additional, hkeeps.pattern, hkeeps.clash, hkeeps.whole⟩

/-! ## A bag of anything -/

namespace Bag

/-- Two bags that hold texts under some keys and numbers under all others. The first one gives its texts the
pattern that matches every key. -/
def bags : Document :=
  .map [
    ("openapi", .string "3.0.0"),
    ("definitions", .map [
      ("Bag", .map [
        ("properties", .map []),
        ("patternProperties", .map [(".*", .map [("type", .string "string")])]),
        ("additionalProperties", .map [("type", .string "integer")])]),
      ("Box", .map [
        ("properties", .map []),
        ("patternProperties", .map [("^x-", .map [("type", .string "string")])]),
        ("additionalProperties", .map [("type", .string "integer")])])])]

/-- Serves the bags under any name. -/
def loader : Loader := fun _ => .ok bags

/-- The registry before the bags are read. -/
def start : Registry := (ofOrigins ["d"] "Api").setWhitelist []

theorem wellFormed_of_loader (origin : String) (root : Document) (h : loader origin = .ok root) :
    root.WellFormed := by
  cases h
  decide

/-- The patterns of extensions with the references of their nodes. -/
def patterns (slots : List (String × Extension)) : List (String × String) :=
  slots.map fun slot => (slot.1, slot.2.reference)

/-- What can be computed of the bags: whether their patterns clash, and for the first of them what it declares
and keeps. -/
theorem exists_bags :
    ∃ built, start.build loader (Rules.standard Text.transliterate "DateTime" {}) = .ok built ∧
      ∃ schema ∈ built.schemas, ∃ bag ∈ schema.classes, ∃ box ∈ schema.classes,
        bag.site.Clashes ∧ ¬ box.site.Clashes ∧
        patterns bag.site.patternSlots = [(".*", "d#/definitions/Bag/patternProperties/.*")] ∧
        patterns bag.extensions = [(".*", "d#/definitions/Bag/additionalProperties")] := by
  have hends :
      (start.buildWithin 3 loader (Rules.standard Text.transliterate "DateTime" {})).toOption.any fun built =>
        built.schemas.any fun schema => schema.classes.any fun bag => schema.classes.any fun box =>
          bag.site.Clashes ∧ ¬ box.site.Clashes ∧
            patterns bag.site.patternSlots = [(".*", "d#/definitions/Bag/patternProperties/.*")] ∧
            patterns bag.extensions = [(".*", "d#/definitions/Bag/additionalProperties")] := by
    decide +kernel
  obtain ⟨built, hbuilt, hschemas⟩ := exists_build_of_any hends
  obtain ⟨schema, hschema, hbags⟩ := List.any_eq_true.1 hschemas
  obtain ⟨bag, hbag, hboxes⟩ := List.any_eq_true.1 hbags
  obtain ⟨box, hbox, hall⟩ := List.any_eq_true.1 hboxes
  exact ⟨built, hbuilt, schema, hschema, bag, hbag, box, hbox, of_decide_eq_true hall⟩

end Bag

open Bag in
/-- The box has an extension with its type for all that its node declares; of the bag's two one is left. -/
theorem slots_of_build_bag :
    (∀ origin ∈ ["d"], ∀ root, loader origin = .ok root → root.WellFormed) ∧
    ∃ built read, start.build loader (Rules.standard Text.transliterate "DateTime" {}) = .ok built ∧
      start.readDocuments loader (Rules.standard Text.transliterate "DateTime" {}) = .ok read ∧
      ∃ schema ∈ built.schemas, ∃ bag ∈ schema.classes, ∃ box ∈ schema.classes,
        bag.site.Clashes ∧ bag.extensions.length + 1 = (extensionSites bag.site).length ∧
        ¬ box.site.Clashes ∧ ∀ slot ∈ extensionSites box.site,
          box.HasSlot (Rules.standard Text.transliterate "DateTime" {}) read slot.1 slot.2 := by
  have hload : ∀ origin ∈ ["d"], ∀ root, loader origin = .ok root → root.WellFormed :=
    fun origin _ root => wellFormed_of_loader origin root
  obtain ⟨built, hbuilt, schema, hschema, bag, hbag, box, hbox, hclash, hwhole, -, -⟩ := exists_bags
  obtain ⟨read, hread, hslots⟩ := slots_of_build hload hbuilt
  have hlost := hslots schema hschema bag hbag
  have hkept := hslots schema hschema box hbox
  exact ⟨hload, built, read, hbuilt, hread, schema, hschema, bag, hbag, box, hbox, hclash,
    hlost.clash hclash, hwhole, hkept.hasSlot hwhole⟩

open Bag in
/-- The bag declares a schema for its pattern, and has no extension that is made from it. -/
theorem not_hasSlot_of_clash :
    ∃ built, start.build loader (Rules.standard Text.transliterate "DateTime" {}) = .ok built ∧
      ∃ schema ∈ built.schemas, ∃ bag ∈ schema.classes, ∃ inner,
        (".*", inner) ∈ bag.site.entries "patternProperties" ∧
        ∀ rules read, ¬ bag.HasSlot rules read ".*" inner := by
  obtain ⟨built, hbuilt, schema, hschema, bag, hbag, -, -, -, -, hdeclared, hkept⟩ := exists_bags
  have hslot : (".*", "d#/definitions/Bag/patternProperties/.*") ∈ patterns bag.site.patternSlots := by
    rw [hdeclared]
    exact List.mem_singleton_self _
  obtain ⟨slot, hslot, heq⟩ := List.mem_map.1 hslot
  obtain ⟨⟨pattern, inner⟩, hentry, rfl⟩ := List.mem_map.1 hslot
  obtain ⟨hpattern, hreference⟩ := Prod.mk.inj heq
  cases hpattern
  refine ⟨built, hbuilt, schema, hschema, bag, hbag, inner, hentry, ?_⟩
  rintro rules read ⟨hmem, -⟩
  have hmem : (".*", inner.reference) ∈ patterns bag.extensions :=
    List.mem_map_of_mem (f := fun slot : String × Extension => (slot.1, slot.2.reference)) hmem
  rw [hkept, List.mem_singleton, Prod.mk.injEq] at hmem
  exact absurd (hreference.symm.trans hmem.2) (by decide)

end Registry

end ApiModel
