import ApiModel.Proofs.Pointer
import ApiModel.Proofs.Property.Resolution
import ApiModel.Proofs.Registry.Evaluation
import ApiModel.Proofs.Registry.Separation
import ApiModel.Proofs.Site
import ApiModel.Text.Transliteration

/-!
# References lead to what they stand for

References are put together from the reference of a document and the keys below it, a key at a time, and
are taken apart again to find a node. Where no root has an empty key, a reference that leads to a node
leads to a part of the node with the key of the part behind it. So everything that is found from the
roots on, and from nodes that documents refer to, can be found again under its reference, and the later
passes of a build change neither the documents nor the references.
-/

namespace ApiModel

/-- The reference of a site points into a document, and to the node of the site. -/
structure Registry.Addresses (registry : Registry) (site : Site) : Prop where
  fragment : '#' ∈ site.reference.toList
  node : registry.node? site.reference = some site.node

/-- Documents all of whose parts can be told apart by pointers: no object has a key twice, and no root
has an empty key, which would be a single slash. -/
def Registry.Addressable (registry : Registry) : Prop :=
  ∀ schema ∈ registry.schemas, ∀ root, schema.parsed = some root →
    root.WellFormed ∧ root.get? "" = none

/-- The references in a class lead to the nodes they stand for. The slot of `additionalProperties: true`
is the one exception: its node is an empty object. -/
structure Class.AddressedIn (registry : Registry) (c : Class) : Prop where
  site : registry.Addresses c.site
  properties : ∀ property ∈ c.properties, registry.Addresses property.site
  extensions : ∀ entry ∈ c.extensions, registry.Addresses entry.2.site ∨
    c.node.get? "additionalProperties" = some (.bool true) ∧ entry.1 = additionalPattern ∧
      entry.2.node = .map [] ∧ registry.node? entry.2.reference = some (.bool true)

/-- All references of a registry lead to the nodes they stand for. -/
structure Registry.Addressed (registry : Registry) : Prop where
  classes : ∀ schema ∈ registry.schemas, ∀ c ∈ schema.classes, c.AddressedIn registry
  operations : ∀ schema ∈ registry.schemas, ∀ operation ∈ schema.operations,
    registry.Addresses ⟨operation.node, operation.reference⟩

namespace Registry

variable {registry : Registry}

/-! ## Parts of nodes -/

/-- A reference into a document leads where its pointer leads. -/
theorem node?_of_isAt (registry : Registry) {origin reference : String} {pointer : List Char}
    (h : Reference.IsAt origin pointer reference) :
    registry.node? reference =
      ((registry.schema? origin).bind (·.parsed)).bind
        (Pointer.find? · (String.ofList pointer)) := by
  unfold node? schemaOf?
  rw [h.document, h.fragment?]
  rfl

namespace Addresses

variable {site : Site} (h : registry.Addresses site) (hparts : registry.Addressable)
include h hparts

theorem wellFormed : site.node.WellFormed := by
  obtain ⟨schema, hschema, _, root, hparsed, hfind⟩ := root_of_node? h.node
  exact Pointer.wellFormed_of_find? (hparts schema hschema root hparsed).1 hfind

/-- A part of an addressed node is addressed. -/
theorem under {key : String} {part : Document} (hstep : Pointer.step? site.node key = some part) :
    registry.Addresses (site.under [key] part) := by
  obtain ⟨pointer, hat⟩ := Reference.exists_isAt_document h.fragment
  have hbelow := hat.child [key]
  have hnode := h.node
  rw [registry.node?_of_isAt hat] at hnode
  obtain ⟨root, hroot, hfind⟩ := Option.bind_eq_some_iff.1 hnode
  obtain ⟨schema, hschema, hparsed⟩ := Option.bind_eq_some_iff.1 hroot
  have hempty := (hparts schema (mem_of_schema? hschema).1 root hparsed).2
  have hsegments : Reference.segments [key] = '/' :: (Pointer.escape key).toList := by
    unfold Reference.segments
    rw [List.flatMap_singleton]
  constructor
  · show '#' ∈ (Reference.child site.reference [key]).toList
    rw [hbelow.2]
    exact List.mem_append_right _ List.mem_cons_self
  · show registry.node? (Reference.child site.reference [key]) = some part
    rw [registry.node?_of_isAt hbelow, hroot, Option.bind_some, hsegments]
    exact Pointer.find?_child hempty hfind hstep

end Addresses

theorem inherited_addresses (hparts : registry.Addressable) :
    Site.Inherited registry.Addresses where
  value h hget := h.under hparts (Pointer.step?_of_get? hget)
  item := by
    intro site item key h hitem
    obtain ⟨items, index, node, hitems, hnode, rfl⟩ := Site.exists_of_mem_items hitem
    have hlist := h.under hparts (Pointer.step?_of_get? (Document.get?_of_itemsAt? hitems))
    have hlength := (Document.wellFormed_list.1 (hlist.wellFormed hparts)).1
    exact hlist.under hparts (Pointer.step?_item hlength hnode)
  entry := by
    intro site entry key h hentry
    obtain ⟨entries, node, hentries, hmem, hsite⟩ := Site.exists_of_mem_entries hentry
    have hmap := h.under hparts (Pointer.step?_of_get? (Document.get?_of_entriesAt? hentries))
    have hget := Document.get?_of_mem (hmap.wellFormed hparts) hmem
    rw [hsite]
    exact hmap.under hparts (Pointer.step?_of_get? hget)

/-- A node that is inherited from is addressed, whatever text refers to it. -/
theorem addresses_of_inheritedFrom {site base : Site} {target : String}
    (h : inheritedFrom registry site target = .ok base) : registry.Addresses base := by
  unfold inheritedFrom at h
  cases hnode : registry.node? (site.resolve target) with
  | none => rw [hnode] at h; cases h
  | some node =>
    rw [hnode] at h
    cases h
    exact ⟨Reference.mem_resolve site.origin target, hnode⟩

/-! ## Classes -/

/-- An extension of a class is made from a site that its node declares. -/
theorem exists_of_mem_extensionsOf {site : Site} {entry : String × Extension}
    (h : entry ∈ extensionsOf site) :
    ∃ slot ∈ extensionSites site, entry.1 = slot.1 ∧ entry.2.site = slot.2 := by
  have hput : entry ∈ (extensionSites site).foldl (fun slots slot =>
      Keyed.put Prod.fst (slot.1, ⟨slot.2.node, slot.2.reference⟩) slots) [] := h
  obtain ⟨slot, hslot, rfl⟩ := (Keyed.mem_foldl_put _ [] hput).resolve_left List.not_mem_nil
  exact ⟨slot, hslot, rfl, rfl⟩

/-- A class that was found at an addressed site is addressed. -/
theorem addressedIn_classOf (hparts : registry.Addressable) {site : Site}
    (h : registry.Addresses site) (name : String) : (classOf name site).AddressedIn registry := by
  have hinherited := inherited_addresses hparts
  refine ⟨h, fun _ hproperty => absurd hproperty List.not_mem_nil, fun entry hentry => ?_⟩
  obtain ⟨slot, hslot, hpattern, hsite⟩ := exists_of_mem_extensionsOf hentry
  rw [hsite]
  refine (hinherited.extension h hslot).imp_right fun ⟨hliteral, hblank⟩ => ?_
  subst hblank
  refine ⟨hliteral, hpattern, congrArg Site.node hsite, ?_⟩
  -- the reference leads to the literal, not to the object that stands for it
  have htrue := (hinherited.value h hliteral).node
  have hreference : entry.2.reference =
      (site.under ["additionalProperties"] (.bool true)).reference := congrArg Site.reference hsite
  rw [hreference]
  exact htrue

/-- Members do not change the references of a class, and those of properties lead to their nodes, whether
they are declared or inherited. -/
theorem addressedIn_of_resolve (hparts : registry.Addressable) {rules : Rules} {c resolved : Class}
    (h : c.AddressedIn registry) (hresolve : c.resolve rules registry = .ok resolved) :
    resolved.AddressedIn registry := by
  have hproperties := Class.site_of_resolve (inherited_addresses hparts)
    (fun _ _ _ hbase => addresses_of_inheritedFrom hbase) h.site hresolve
  obtain ⟨_, _, hresolve⟩ := Traversal.bind_eq_ok.1 hresolve
  obtain ⟨_, _, hresolve⟩ := Traversal.bind_eq_ok.1 hresolve
  cases hresolve
  exact ⟨h.site, hproperties, h.extensions⟩

/-! ## Reading documents -/

section Reading

variable {load : Loader} {rules : Rules} {read : Registry}

theorem addresses_root (h : read.Placed) {schema : Schema} (hschema : schema ∈ read.schemas)
    (hplain : '#' ∉ schema.origin.toList) {root : Document} (hparsed : schema.parsed = some root) :
    read.Addresses ⟨root, Reference.root schema.origin⟩ := by
  have hat := Reference.isAt_root hplain
  constructor
  · show '#' ∈ (Reference.root schema.origin).toList
    rw [hat.2]
    exact List.mem_append_right _ List.mem_cons_self
  · show read.node? (Reference.root schema.origin) = some root
    rw [read.node?_of_isAt hat, h.schema?_origin hschema, Option.bind_some, hparsed,
      Option.bind_some, Pointer.find?, String.toList_ofList]

variable (h : registry.Found rules.spell fun _ => True)
  (hplain : ∀ schema ∈ registry.schemas, '#' ∉ schema.origin.toList)
  (hread : registry.readDocuments load rules = .ok read)
include h hplain hread

/-- Every schema that has been read holds the root that was loaded for it. -/
theorem parsed_of_readDocuments {schema : Schema} (hschema : schema ∈ read.schemas) :
    ∃ before ∈ registry.schemas, schema.origin = before.origin ∧
      ∃ root, load before.origin = .ok root ∧ schema.parsed = some root := by
  rw [h.readDocuments_eq hplain] at hread
  obtain ⟨schemas, hschemas, rfl⟩ := Traversal.map_eq_ok.1 hread
  obtain ⟨before, hbefore, hown⟩ := Traversal.exists_of_mem_mapM hschemas hschema
  exact ⟨before, hbefore, parsed_of_read hown⟩

/-- Registries into which addressable documents were read are addressable. -/
theorem addressable_of_readDocuments
    (hload : ∀ schema ∈ registry.schemas, ∀ root, load schema.origin = .ok root →
      root.WellFormed ∧ root.get? "" = none) : read.Addressable := by
  intro schema hschema root hparsed
  obtain ⟨before, hbefore, _, loaded, hloaded, hsome⟩ :=
    parsed_of_readDocuments h hplain hread hschema
  rw [hparsed] at hsome
  cases hsome
  exact hload before hbefore root hloaded

/-- In a registry that has been read, the roots are found under their references. -/
theorem addresses_of_load {schema : Schema} (hschema : schema ∈ registry.schemas) {root : Document}
    (hroot : load schema.origin = .ok root) :
    read.Addresses ⟨root, Reference.root schema.origin⟩ := by
  have hplaced := (h.readDocuments_true hread).placed
  rw [h.readDocuments_eq hplain] at hread
  obtain ⟨schemas, hschemas, rfl⟩ := Traversal.map_eq_ok.1 hread
  obtain ⟨own, hown, hstep⟩ := Traversal.exists_of_mapM_mem hschemas hschema
  obtain ⟨horigin, loaded, hloaded, hparsed⟩ := parsed_of_read hstep
  rw [hroot] at hloaded
  cases hloaded
  rw [← horigin]
  exact addresses_root hplaced hown (horigin ▸ hplain schema hschema) hparsed

end Reading

/-! ## The later passes -/

theorem Addresses.congr {a b : Registry} (hnode : ∀ reference, a.node? reference = b.node? reference)
    {site : Site} (h : a.Addresses site) : b.Addresses site :=
  ⟨h.fragment, (hnode site.reference).symm.trans h.node⟩

theorem addressedIn_congr {a b : Registry} (hnode : ∀ reference, a.node? reference = b.node? reference)
    {c : Class} (h : c.AddressedIn a) : c.AddressedIn b := by
  refine ⟨h.site.congr hnode, fun property hproperty => ?_, fun entry hentry => ?_⟩
  · exact (h.properties property hproperty).congr hnode
  · rw [← hnode]
    exact (h.extensions entry hentry).imp_left fun hsite => hsite.congr hnode

/-- References stay as good as they are where documents stay and classes change in nothing but their
kind. -/
theorem Addressed.of_classes {a b : Registry} (h : a.Addressed)
    (hnode : ∀ reference, a.node? reference = b.node? reference)
    (hschemas : ∀ schema ∈ b.schemas, ∃ before ∈ a.schemas, schema.operations = before.operations ∧
      ∀ c ∈ schema.classes, ∃ d ∈ before.classes, ∃ kind, c = { d with kind }) : b.Addressed := by
  constructor
  · intro schema hschema c hc
    obtain ⟨before, hbefore, _, hclasses⟩ := hschemas schema hschema
    obtain ⟨d, hd, kind, rfl⟩ := hclasses c hc
    have haddressed := addressedIn_congr hnode (h.classes before hbefore d hd)
    exact ⟨haddressed.site, haddressed.properties, haddressed.extensions⟩
  · intro schema hschema operation hoperation
    obtain ⟨before, hbefore, hsame, _⟩ := hschemas schema hschema
    exact (h.operations before hbefore operation (hsame ▸ hoperation)).congr hnode

theorem Addressed.linkUnions (h : registry.Addressed) (hplaced : registry.Placed) :
    registry.linkUnions.Addressed := by
  rw [hplaced.linkUnions]
  refine h.of_classes (fun reference => ?_) fun schema hschema => ?_
  · rw [mapClasses, node?_map]
    exact fun _ => ⟨rfl, rfl⟩
  · obtain ⟨before, hbefore, rfl⟩ := List.mem_map.1 hschema
    refine ⟨before, hbefore, rfl, fun c hc => ?_⟩
    obtain ⟨d, hd, rfl⟩ := List.mem_map.1 hc
    obtain ⟨kind, hkind⟩ := d.foldl_adopt_eq registry.unionLinks
    exact ⟨d, hd, kind, hkind⟩

theorem Addressed.prune (h : registry.Addressed) : registry.prune.Addressed := by
  unfold Registry.prune
  split
  · exact h
  · refine h.of_classes (fun reference => ?_) fun schema hschema => ?_
    · dsimp only
      rw [node?_map]
      exact fun _ => ⟨rfl, rfl⟩
    · obtain ⟨before, hbefore, rfl⟩ := List.mem_map.1 hschema
      exact ⟨before, hbefore, rfl, fun c hc => ⟨c, (List.mem_filter.1 hc).1, c.kind, rfl⟩⟩

/-- Where all that was found was found at addressed sites, the registry with members is addressed. -/
theorem addressed_of_resolveClasses {rules : Rules} {read resolved : Registry}
    (hfound : read.Found rules.spell fun seed => read.Addresses seed.site ∨ seed.site.node = .map [])
    (hparts : read.Addressable) (hresolved : read.resolveClasses rules = .ok resolved) :
    resolved.Addressed := by
  have houtline := hfound.placed.outline_of_resolveClasses hresolved
  have hnode := (alike_of_outline_eq houtline.symm).node
  constructor
  · intro schema hschema c hc
    obtain ⟨before, hbefore, hstep⟩ := hfound.placed.schema_of_resolveClasses hresolved hschema
    obtain ⟨unresolved, hunresolved, hresolve⟩ := class_of_resolve hstep hc
    obtain ⟨seed, hseed, _, hsupports, rfl⟩ :=
      (hfound.found before hbefore).classes unresolved hunresolved
    have hsite := Site.of_supports hseed hsupports
    exact addressedIn_congr hnode
      (addressedIn_of_resolve hparts (addressedIn_classOf hparts hsite _) hresolve)
  · intro schema hschema operation hoperation
    obtain ⟨before, hbefore, hstep⟩ := hfound.placed.schema_of_resolveClasses hresolved hschema
    have hsame : schema.outline.operations = before.outline.operations := by
      rw [Schema.outline_of_resolve hstep]
    have hoperation' : operation ∈ before.operations := hsame ▸ hoperation
    obtain ⟨seed, hseed, _, hsupports, hmem⟩ :=
      (hfound.found before hbefore).operations operation hoperation'
    have hsite := Site.of_supports hseed hsupports
    exact ((inherited_addresses hparts).operation hsite hmem).congr hnode

/-- Where no origin has a `#` in it and no document, as it is held in memory, an empty key at its root, a
registry that is built from origins finds the node of every class, property, operation and extension under
its reference. -/
theorem addressed_of_build {origins paths : List String} {rootName : String} {load : Loader}
    {rules : Rules} (hplain : ∀ origin ∈ origins, '#' ∉ origin.toList)
    (hload : ∀ origin ∈ origins, ∀ root, load origin = .ok root →
      root.WellFormed ∧ root.get? "" = none) {built : Registry}
    (h : ((ofOrigins origins rootName).setWhitelist paths).build load rules = .ok built) :
    built.Addressed := by
  have hstart : ∀ schema ∈ ((ofOrigins origins rootName).setWhitelist paths).schemas,
      schema.origin ∈ origins := by
    intro schema hschema
    obtain ⟨origin, horigin, rfl⟩ := mem_ofOrigins hschema
    exact horigin
  have hplain' := fun schema hschema => hplain _ (hstart schema hschema)
  have hload' := fun schema hschema => hload _ (hstart schema hschema)
  rw [build_eq] at h
  obtain ⟨assembled, hassembled, rfl⟩ := Traversal.map_eq_ok.1 h
  obtain ⟨read, resolved, hread, hresolved, rfl⟩ := assemble_eq_ok hassembled
  have hempty := found_ofOrigins rules.spell (fun _ => True) origins rootName paths
  have hparts := addressable_of_readDocuments hempty hplain' hread hload'
  -- all that is found is found at parts of the roots
  have hfound := (found_ofOrigins rules.spell _ origins rootName paths).readDocuments
    (Seed.inherited_of_site _ (inherited_addresses hparts))
    (fun origin horigin root name hroot => by
      obtain ⟨schema, hschema, rfl⟩ := List.mem_map.1 horigin
      exact Or.inl (addresses_of_load hempty hplain' hread hschema hroot)) hread
  exact ((addressed_of_resolveClasses hfound hparts hresolved).linkUnions
    (hfound.placed.placed_of_resolveClasses hresolved)).prune

theorem addressed_of_build_sample :
    ∃ built : Registry,
      ((ofOrigins ["pets", "people"] "Root").setWhitelist ["/cats/\x7bid\x7d"]).build Sample.load
          (Rules.standard Text.transliterate "DateTime" {}) = .ok built ∧ built.Addressed := by
  have hplain : ∀ origin ∈ ["pets", "people"], '#' ∉ origin.toList := by decide
  have hload : ∀ origin ∈ ["pets", "people"], ∀ root, Sample.load origin = .ok root →
      root.WellFormed ∧ root.get? "" = none := by
    have hchecked : ∀ origin ∈ ["pets", "people"], (Sample.load origin).toOption.all fun root =>
        root.WellFormed ∧ (root.get? "").isNone := by decide +kernel
    intro origin horigin root hroot
    have hboth := hchecked origin horigin
    rw [hroot] at hboth
    exact (of_decide_eq_true hboth).imp_right Option.isNone_iff_eq_none.1
  obtain ⟨built, hbuilt⟩ := Sample.exists_build
  exact ⟨built, hbuilt, addressed_of_build hplain hload hbuilt⟩

end Registry

end ApiModel
