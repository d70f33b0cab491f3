import ApiModel.Proofs.Class.Repetition
import ApiModel.Proofs.Class.Visiting
import ApiModel.Proofs.Registry.Separation
import ApiModel.Text.Transliteration

/-!
# What a search for classes adds

A search looks at the places that a visit of the document comes to (`Document.visits`), and where these are
object schemas it adds their classes in the order of the visit. It skips what is a class already, but in a
document that nothing has been found in yet there is no such place: a visit comes to no place twice, and
different places have different references. So the classes that are added are exactly those of the object
schemas visited, each once (`Registry.readDocument_exact`).
-/

namespace ApiModel

/-! ## Seeds at places -/

namespace Site

/-- A place of the node of a site. -/
def place (site : Site) (place : Place) : Site := site.under place.path place.node

theorem place_behind (site : Site) (path : List String) (inner : Place) (node : Document) :
    site.place (inner.behind path) = (site.under path node).place inner :=
  congrArg (Site.mk inner.node) (Reference.child_append site.reference path inner.path)

theorem map_entries (site : Site) (key : String) :
    (site.entries key).map Prod.snd = (site.node.entryPlaces key).map site.place := by
  unfold entries Document.entryPlaces
  rw [List.map_map, List.map_map]
  rfl

theorem items_eq (site : Site) (key : String) :
    site.items key = (site.node.itemPlaces key).map site.place := by
  unfold items Document.itemPlaces
  refine List.ext_getElem (by simp) fun index _ _ => ?_
  rw [List.getElem_map, List.getElem_mapIdx, List.getElem_mapIdx]
  rfl

theorem object?_eq (site : Site) (key : String) :
    site.object? key = (site.node.objectPlace? key).map site.place := by
  unfold object? Document.objectPlace?
  rw [Option.map_map]
  rfl

/-- The object schemas that a visit of the node of a site comes to. -/
def schemas (site : Site) : List Site := site.node.visitedSchemas.map site.place

end Site

theorem map_schemaSeeds (site : Site) :
    (schemaSeeds site).map Seed.site = site.node.schemaPlaces.map site.place := by
  have hentries : ∀ entries : List (String × Site),
      (entries.map fun entry => ({ name := entry.1, site := entry.2 } : Seed)).map Seed.site =
        entries.map Prod.snd := by
    intro entries
    rw [List.map_map]
    rfl
  unfold schemaSeeds Document.schemaPlaces
  rw [hentries, List.map_append, List.map_append, Site.map_entries]
  congr 1
  cases site.node.get? "components" with
  | none => rfl
  | some components =>
    rw [Option.map_some, Option.toList_some, Option.toList_some, List.flatMap_singleton,
      List.flatMap_singleton, Site.map_entries, List.map_map]
    exact List.map_congr_left fun inner _ => (site.place_behind ["components"] inner components).symm

theorem map_propertySeeds (name : String) (site : Site) :
    (propertySeeds name site).map Seed.site = site.node.propertyPlaces.map site.place := by
  unfold propertySeeds Document.propertyPlaces Site.entries Document.entryPlaces
  rw [List.map_flatMap, List.map_flatMap, List.flatMap_map, List.flatMap_map]
  refine congrArg (List.flatMap · _) (funext fun ⟨key, property⟩ => ?_)
  dsimp only
  rw [Site.object?_eq, List.map_cons, List.map_cons]
  refine congrArg (List.cons _) ?_
  show List.map _ (List.map _ ((property.objectPlace? "items").map _).toList) = _
  cases property.objectPlace? "items" with
  | none => rfl
  | some items => exact congrArg (fun inner => [inner]) (site.place_behind _ items property).symm

theorem map_extensionSeeds (spell : Text.Spelling) (name : String) (site : Site) :
    (extensionSeeds spell name site).map Seed.site = (extensionSites site).map Prod.snd := by
  unfold extensionSeeds
  rw [List.map_map]
  rfl

/-- What is made of the extensions of a site is made of their places, if the empty object that stands for
`additionalProperties: true` gives nothing. -/
theorem flatMap_extensionSites {β : Type} {f : Site → List β}
    (hblank : ∀ site : Site, site.node = .map [] → f site = []) (site : Site) :
    ((extensionSites site).map Prod.snd).flatMap f =
      (site.node.extensionPlaces.map site.place).flatMap f := by
  unfold extensionSites Document.extensionPlaces
  rw [List.map_append, List.map_append, List.flatMap_append, List.flatMap_append, Site.map_entries]
  congr 1
  unfold Document.objectPlace?
  cases site.node.get? "additionalProperties" with
  | none => rfl
  | some value =>
    cases value with
    | map entries => rfl
    | bool value =>
      cases value with
      | true =>
        show f (site.under ["additionalProperties"] (.map [])) ++ [] = []
        rw [hblank _ rfl]
        rfl
      | false => rfl
    | _ => rfl

/-- What is made of the seeds nested under a class is made of the places nested in its node. -/
theorem flatMap_nestedSeeds {β : Type} {f : Site → List β}
    (hblank : ∀ site : Site, site.node = .map [] → f site = []) (spell : Text.Spelling) (name : String)
    (site : Site) :
    ((nestedSeeds spell name site).map Seed.site).flatMap f =
      (site.node.nestedPlaces.map site.place).flatMap f := by
  -- inline `allOf` members are walked through, so this is an induction on the size of the node
  induction hsize : sizeOf site.node using Nat.strongRecOn generalizing site with
  | ind size ih =>
    subst hsize
    have hmembers : (((site.items "allOf").flatMap (memberSeeds spell name)).map Seed.site).flatMap f =
        (((site.node.itemPlaces "allOf").flatMap Document.memberPlaces).map site.place).flatMap f := by
      rw [Site.items_eq, List.map_flatMap, List.map_flatMap, List.flatMap_map, List.flatMap_assoc,
        List.flatMap_assoc]
      refine List.flatMap_congr fun member hmember => ?_
      show ((if (member.node.textAt? "$ref").isSome then [] else _).map _).flatMap f = _
      unfold Document.memberPlaces
      split
      · rfl
      · rw [ih _ (Document.sizeOf_itemPlaces_lt hmember) (site.place member) rfl, List.map_map]
        exact congrArg (List.flatMap f) (List.map_congr_left fun inner _ =>
          (site.place_behind member.path inner member.node).symm)
    rw [nestedSeeds_eq, Document.nestedPlaces_eq]
    simp only [List.map_append, List.flatMap_append]
    rw [map_propertySeeds, hmembers, map_extensionSeeds, flatMap_extensionSites hblank]

namespace Site

theorem map_visits (site : Site) (inner : Place) :
    (inner.visits.filter (ClassRule.objectSchema.supports ·.node)).map site.place =
      (site.place inner).schemas := by
  unfold Place.visits schemas Document.visitedSchemas
  rw [List.filter_map, List.map_map]
  exact List.map_congr_left fun deeper _ => site.place_behind inner.path deeper inner.node

theorem schemas_eq (site : Site) :
    site.schemas =
      site.node.placesBefore.flatMap (fun inner => (site.place inner).schemas) ++
        ((if ClassRule.objectSchema.supports site.node then [site] else []) ++
          site.node.placesBehind.flatMap fun inner => (site.place inner).schemas) := by
  rw [schemas, Document.visitedSchemas, Document.visits_eq, List.filter_append, List.map_append,
    List.filter_flatMap, List.map_flatMap]
  simp only [map_visits]
  congr 1
  rw [List.filter_cons]
  split
  · rw [List.map_cons, List.filter_flatMap, List.map_flatMap]
    simp only [map_visits]
    rfl
  · rw [List.filter_flatMap, List.map_flatMap]
    simp only [map_visits]
    rfl

theorem schemas_of_blank {site : Site} (h : site.node = .map []) : site.schemas = [] := by
  obtain ⟨node, reference⟩ := site
  cases h
  rw [schemas_eq]
  rfl

end Site

/-- The object schemas that a rule leads to from a seed, in the order that their classes are added. -/
def ClassRule.leads (spell : Text.Spelling) (rule : ClassRule) (seed : Seed) : List Site :=
  match rule with
  | documentRoot => (schemaSeeds seed.site).flatMap (·.site.schemas)
  | objectSchema =>
    seed.site ::
      (nestedSeeds spell (Identifier.ofClass spell seed.name) seed.site).flatMap (·.site.schemas)

/-- The rules lead from a seed to the object schemas that a visit comes to. -/
theorem Seed.schemas_eq (spell : Text.Spelling) (seed : Seed) :
    seed.site.schemas =
      ([ClassRule.documentRoot, .objectSchema].filter (·.supports seed.site.node)).flatMap
        (·.leads spell seed) := by
  have hschemas : ClassRule.documentRoot.leads spell seed =
      seed.site.node.schemaPlaces.flatMap fun inner => (seed.site.place inner).schemas := by
    have hsites := congrArg (List.flatMap Site.schemas) (map_schemaSeeds seed.site)
    rw [List.flatMap_map, List.flatMap_map] at hsites
    exact hsites
  have hnested : ClassRule.objectSchema.leads spell seed =
      seed.site :: seed.site.node.nestedPlaces.flatMap fun inner => (seed.site.place inner).schemas := by
    have hsites := flatMap_nestedSeeds (f := Site.schemas) (fun _ => Site.schemas_of_blank) spell
      (Identifier.ofClass spell seed.name) seed.site
    rw [List.flatMap_map, List.flatMap_map] at hsites
    exact congrArg (List.cons seed.site) hsites
  rw [Site.schemas_eq, Document.placesBefore, Document.placesBehind]
  by_cases hroot : ClassRule.documentRoot.supports seed.site.node <;>
    by_cases hobject : ClassRule.objectSchema.supports seed.site.node <;>
      simp [hroot, hobject, hschemas, hnested]

/-! ## Adding classes for sites -/

namespace Registry

/-- The document at an origin has a schema, and no class is known at any of the sites, which have references
of their own. -/
structure Awaits (registry : Registry) (origin : String) (sites : List Site) : Prop where
  schema : origin ∈ registry.origins
  nodup : (sites.map Site.reference).Nodup
  fresh : ∀ site ∈ sites, ¬ registry.hasClass site.reference

/-- A search that ended without an error, and changed nothing but the schema of an origin: classes for the
sites were put behind those of the schema, one for each and in their order, and operations behind its
operations. -/
def Registers (registry : Registry) (origin : String) (sites : List Site) (reached : Discovery) :
    Prop :=
  ∃ classes operations, classes.map Class.site = sites ∧
    reached = { registry := registry.modifySchema origin (·.extend classes operations) }

variable {registry : Registry} {origin : String} {sites more : List Site} {reached next : Discovery}

theorem Registers.nil (registry : Registry) (origin : String) :
    registry.Registers origin [] { registry } := by
  have hsame : (fun schema : Schema => schema.extend [] []) = id := by
    funext schema
    simp [Schema.extend]
  refine ⟨[], [], rfl, ?_⟩
  rw [modifySchema, hsame, Keyed.modify_id]

/-- What one search does and what another one does after it, both together do. -/
theorem Registers.trans (h : registry.Registers origin sites reached)
    (hnext : reached.registry.Registers origin more next) :
    registry.Registers origin (sites ++ more) next := by
  obtain ⟨classes, operations, hsites, rfl⟩ := h
  obtain ⟨others, further, hmore, rfl⟩ := hnext
  refine ⟨classes ++ others, operations ++ further, ?_, ?_⟩
  · rw [List.map_append, hsites, hmore]
  · dsimp only
    rw [modifySchema_modifySchema]
    · congr 2
      funext schema
      exact schema.extend_extend _ _ _ _
    · exact fun _ => rfl

theorem Awaits.left (h : registry.Awaits origin (sites ++ more)) : registry.Awaits origin sites where
  schema := h.schema
  nodup := (List.nodup_append.1 (List.map_append ▸ h.nodup)).1
  fresh site hsite := h.fresh site (List.mem_append_left more hsite)

/-- After some of the sites the others are still awaited. -/
theorem Awaits.right (h : registry.Awaits origin (sites ++ more))
    (hreached : registry.Registers origin sites reached) : reached.registry.Awaits origin more := by
  obtain ⟨classes, operations, rfl, rfl⟩ := hreached
  have hnodup := h.nodup
  rw [List.map_append, List.nodup_append] at hnodup
  obtain ⟨_, hmore, hdisjoint⟩ := hnodup
  refine ⟨?_, hmore, fun site hsite hhas => ?_⟩
  · rw [origins_modifySchema]
    · exact h.schema
    · exact fun _ => rfl
  · obtain ⟨schema, hschema, c, hc, href⟩ := hasClass_iff.1 hhas
    have hnew : ∀ own ∈ registry.schemas, c ∉ own.classes := fun own hown hc =>
      h.fresh site (List.mem_append_right _ hsite) (hasClass_iff.2 ⟨own, hown, c, hc, href⟩)
    rcases Keyed.mem_modify hschema with hold | ⟨own, hown, rfl⟩
    · exact hnew schema hold hc
    · rcases List.mem_append.1 hc with hc | hc
      · exact hnew own hown hc
      · -- the class is one of those that were added for the other sites
        refine hdisjoint _ ?_ _ (List.mem_map_of_mem hsite) href
        exact List.mem_map.2 ⟨c.site, List.mem_map_of_mem hc, rfl⟩

/-- Steps that each add classes for sites of their own add them for all of these. -/
theorem Registers.each {α : Type} {step : Registry → α → Discovery} {S : α → List Site} {xs : List α}
    (hstep : ∀ x ∈ xs, ∀ registry : Registry, registry.Awaits origin (S x) →
      registry.Registers origin (S x) (step registry x))
    (h : registry.Awaits origin (xs.flatMap S)) :
    registry.Registers origin (xs.flatMap S) (Discovery.each step registry xs) := by
  induction xs generalizing registry with
  | nil => exact .nil registry origin
  | cons x xs ih =>
    rw [List.flatMap_cons] at h ⊢
    have hfirst := hstep x List.mem_cons_self registry h.left
    have hrest := ih (fun y hy => hstep y (List.mem_cons_of_mem x hy)) (h.right hfirst)
    have hok : (step registry x).failure = none := by
      obtain ⟨_, _, _, heq⟩ := hfirst
      rw [heq]
    rw [Discovery.each, hok]
    exact hfirst.trans hrest

end Registry

/-! ## One rule at one seed -/

/-- A site of the document at an origin. -/
def Site.StandsIn (origin : String) (site : Site) : Prop :=
  '#' ∈ site.reference.toList ∧ site.origin = origin

/-- Where no class is known yet, a rule adds classes for some of the sites that it leads to, and its seeds
lead to the others. -/
theorem ClassRule.registers_of_enter {spell : Text.Spelling} {rule : ClassRule} {registry : Registry}
    {origin : String} {seed : Seed} (horigin : seed.site.origin = origin)
    (h : registry.Awaits origin (rule.leads spell seed)) :
    ∃ after seeds sites, rule.enter spell registry seed = .ok (after, seeds) ∧
      rule.leads spell seed = sites ++ seeds.flatMap (·.site.schemas) ∧
        registry.Registers origin sites { registry := after } := by
  subst horigin
  cases henter : rule.enter spell registry seed with
  | error error =>
    have hnone : registry.schema? seed.site.origin = none := (noSchema_of_enter henter).2
    have hsome := Registry.isSome_schema?_iff.2 h.schema
    rw [hnone] at hsome
    cases hsome
  | ok result =>
    obtain ⟨after, seeds⟩ := result
    refine ⟨after, seeds, ?_⟩
    cases entered_of_enter henter with
    | noPaths => exact ⟨[], rfl, rfl, .nil registry _⟩
    | operations =>
      refine ⟨[], rfl, rfl, [], operationsOf seed.site, rfl, ?_⟩
      simp only [Schema.extend, List.append_nil]
    | known hknown => exact absurd hknown (h.fresh seed.site List.mem_cons_self)
    | added hschema hnew =>
      refine ⟨[seed.site], rfl, rfl,
        [classOf (Identifier.ofClass spell seed.name) seed.site], [], rfl, ?_⟩
      have hfree : ∀ schema, registry.schema? seed.site.origin = some schema →
          ¬ schema.hasClass seed.site.reference :=
        fun schema hget hhas => hnew (Registry.hasClass_of_schema? hget hhas)
      unfold Registry.modifySchema
      rw [Keyed.modify_congr fun schema hget => Schema.addClass_eq_extend (hfree schema hget)]

/-! ## The whole search -/

/-- A search in a document where no class is known yet adds classes for the object schemas that a visit
comes to. -/
theorem discover_registers {spell : Text.Spelling} {registry : Registry} {origin : String} {seed : Seed}
    (hseed : seed.site.StandsIn origin ∨ seed.site.node = .map [])
    (h : registry.Awaits origin seed.site.schemas) :
    registry.Registers origin seed.site.schemas
      (discover spell [.documentRoot, .objectSchema] registry seed) := by
  have hinherited := Seed.inherited_of_site spell (Site.inherited_document origin)
  -- by induction on the size of the node: all seeds that a rule gives hold smaller ones
  induction hsize : sizeOf seed.site.node using Nat.strongRecOn generalizing registry seed with
  | ind size ih =>
    subst hsize
    rw [Seed.schemas_eq spell] at h ⊢
    rw [discover_eq]
    refine .each (fun rule hrule registry h => ?_) h
    have hat : seed.site.StandsIn origin := Site.of_supports hseed (List.mem_filter.1 hrule).2
    obtain ⟨after, seeds, sites, henter, hleads, hadded⟩ := ClassRule.registers_of_enter hat.2 h
    rw [hleads] at h ⊢
    rw [ClassRule.discover_of_enter _ henter]
    refine hadded.trans (.each (fun inner hinner registry h => ?_) (h.right hadded))
    have hinnerAt := hinherited.entered hseed (ClassRule.entered_of_enter henter) inner hinner
    exact ih _ (sizeOf_enter_lt henter hinner) hinnerAt h rfl

/-! ## One document -/

namespace Registry

/-- In a registry without classes of a document no part of the document is a class. -/
theorem not_hasClass_of_document {registry : Registry} {origin : String} (hplain : '#' ∉ origin.toList)
    (hother : ∀ schema ∈ registry.schemas, ∀ c ∈ schema.classes,
      Reference.document c.reference ≠ origin) (path : List String) :
    ¬ registry.hasClass (Reference.child (Reference.root origin) path) := by
  intro hhas
  obtain ⟨schema, hschema, c, hc, href⟩ := hasClass_iff.1 hhas
  refine hother schema hschema c hc ?_
  rw [href]
  exact ((Reference.isAt_root hplain).child path).document

/-- Object schemas of a document that are no classes yet are awaited. -/
theorem awaits_root {registry : Registry} {origin : String} {root : Document}
    (hroot : root.WellFormed) (horigin : origin ∈ registry.origins)
    (hfresh : ∀ place ∈ root.visitedSchemas,
      ¬ registry.hasClass (Reference.child (Reference.root origin) place.path)) :
    registry.Awaits origin (Site.schemas ⟨root, Reference.root origin⟩) where
  schema := horigin
  nodup := by
    -- the paths of a visit are different, and so are the references that are made of them
    have hpaths : (root.visitedSchemas.map Place.path).Nodup :=
      (Document.nodup_visits hroot).sublist (List.filter_sublist.map _)
    have hreferences := hpaths.map (Reference.child_injective (Reference.root origin))
    rw [List.map_map] at hreferences
    rw [Site.schemas, List.map_map]
    exact hreferences
  fresh site hsite := by
    obtain ⟨place, hplace, rfl⟩ := List.mem_map.1 hsite
    exact hfresh place hplace

/-- Reading a document whose origin has no `#`, while none of the object schemas that a visit of it comes to is
a class, ends without an error. It changes nothing but the schema of the origin: that keeps the root and gains
operations and classes. The new classes stand behind the others in the order of the visit. They are those of
the object schemas that it comes to, each under the path that leads to it, and no two of them have one
reference. -/
theorem readDocument_exact {load : Loader} {registry : Registry} {origin : String} {schema : Schema}
    {root : Document} (spell : Text.Spelling) (wrapper : String) (format : DateTimeFormat)
    (hload : load origin = .ok root) (hroot : root.WellFormed) (hplain : '#' ∉ origin.toList)
    (hschema : registry.schema? origin = some schema)
    (hfresh : ∀ place ∈ root.visitedSchemas,
      ¬ registry.hasClass (Reference.child (Reference.root origin) place.path)) :
    ∃ added operations,
      registry.readDocument load (Rules.standard spell wrapper format) origin =
        .ok (registry.modifySchema origin fun schema =>
          { schema.extend added operations with parsed := some root }) ∧
      added.map (fun c => (c.reference, c.node)) =
        root.visitedSchemas.map (fun place =>
          (Reference.child (Reference.root origin) place.path, place.node)) ∧
      (∀ place ∈ root.visitedSchemas, root.LeadsTo place.path place.node) ∧
      (added.map Class.reference).Nodup := by
  let seed : Seed := ⟨schema.rootName, root, Reference.root origin⟩
  have hawaits : registry.Awaits origin seed.site.schemas :=
    awaits_root hroot (isSome_schema?_iff.1 (hschema ▸ rfl)) hfresh
  have hat : seed.site.StandsIn origin :=
    ⟨Reference.mem_root origin, (Reference.isAt_root hplain).document⟩
  obtain ⟨added, operations, hadded, hreached⟩ := discover_registers (Or.inl hat) hawaits
  refine ⟨added, operations, ?_, ?_, fun place hplace => ?_, ?_⟩
  · have hsearch : discover spell (Rules.standard spell wrapper format).classes registry seed = _ :=
      hreached
    rw [readDocument_eq hload hschema hsearch]
    dsimp only [Option.elim]
    rw [modifySchema_modifySchema]
    · rfl
    · exact fun _ => rfl
  · have hpairs := congrArg (List.map fun site : Site => (site.reference, site.node)) hadded
    rw [List.map_map, Site.schemas, List.map_map] at hpairs
    exact hpairs
  · exact Document.leadsTo_visits hroot (List.mem_of_mem_filter hplace)
  · have hnodup := hawaits.nodup
    rw [← hadded, List.map_map] at hnodup
    exact hnodup

/-! ## A yard -/

namespace Yard

/-- A root that is an object schema, with another root among the properties of an `allOf` member. -/
def plan : Document :=
  .map [
    ("properties", .map [
      ("gate", .map [
        ("properties", .map [("lock", .map [("discriminator", .null)])]),
        ("items", .map [("properties", .map [])])])]),
    ("openapi", .string "3.0.0"),
    ("definitions", .map [
      ("text", .map [("type", .string "string"), ("properties", .map [])]),
      ("Crate", .map [
        ("additionalProperties", .map [("allOf", .list [])]),
        ("patternProperties", .map [("x/y", .map [("properties", .map [])])]),
        ("allOf", .list [
          .map [("$ref", .string "#/definitions/text")],
          .map [("properties", .map [
            ("lid", .map [
              ("swagger", .string "2.0"),
              ("properties", .map []),
              ("definitions", .map [("Hinge", .map [("properties", .map [])])])])])]])])]),
    ("components", .map [("schemas", .map [("Shelf", .map [("properties", .map [])])])])]

/-- Serves the plan under any name. -/
def loader : Loader := fun _ => .ok plan

/-- A registry with a class of another document, and nothing found in the yard yet. -/
def start : Registry where
  schemas := [
    { origin := "house", rootName := "House",
      classes := [{ reference := "house#/definitions/Room", name := "Room", node := .null }] },
    { origin := "yard", rootName := "Yard" }]

end Yard

open Yard in
/-- The components come first, then the definitions, then the root and what is nested in it. The inner root has
its definition before it, and the member that refers to another schema gives nothing. -/
theorem readDocument_exact_yard :
    ∃ added operations,
      start.readDocument loader (Rules.standard Text.transliterate "DateTime" {}) "yard" =
        .ok (start.modifySchema "yard" fun schema =>
          { schema.extend added operations with parsed := some plan }) ∧
      added.map Class.reference = [
        "yard#/components/schemas/Shelf",
        "yard#/definitions/Crate",
        "yard#/definitions/Crate/allOf/1/properties/lid/definitions/Hinge",
        "yard#/definitions/Crate/allOf/1/properties/lid",
        "yard#/definitions/Crate/patternProperties/x~1y",
        "yard#/definitions/Crate/additionalProperties",
        "yard#",
        "yard#/properties/gate",
        "yard#/properties/gate/properties/lock",
        "yard#/properties/gate/items"] := by
  have hload : loader "yard" = .ok plan := rfl
  have hroot : plan.WellFormed := by decide +kernel
  have hplain : '#' ∉ "yard".toList := by decide
  have hschema : start.schema? "yard" = some { origin := "yard", rootName := "Yard" } := rfl
  have hother : ∀ schema ∈ start.schemas, ∀ c ∈ schema.classes,
      Reference.document c.reference ≠ "yard" := by decide +kernel
  have hfresh : ∀ place ∈ plan.visitedSchemas,
      ¬ start.hasClass (Reference.child (Reference.root "yard") place.path) :=
    fun place _ => not_hasClass_of_document hplain hother place.path
  obtain ⟨added, operations, hread, hadded, -, -⟩ :=
    readDocument_exact Text.transliterate "DateTime" {} hload hroot hplain hschema hfresh
  have hreferences := congrArg (List.map Prod.fst) hadded
  rw [List.map_map, List.map_map] at hreferences
  exact ⟨added, operations, hread, hreferences.trans (by decide +kernel)⟩

end Registry

end ApiModel
