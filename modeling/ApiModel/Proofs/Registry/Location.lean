import ApiModel.Proofs.Reference.Paths
import ApiModel.Proofs.Registry.Addressing

/-!
# Classes stand at paths of their documents

All that is found when documents are read stands at a part of a root, under the reference of the path to
that part (`Site.Located`). So the references of classes are all written in one way: of the pointers that
spell a path, only one can be the pointer of a class (`Site.Located.path`).
-/

namespace ApiModel

/-- A site holds a part of the document that is loaded for one of the origins, and its reference is that of
the path to the part. -/
def Site.Located (load : Loader) (origins : List String) (site : Site) : Prop :=
  ∃ origin ∈ origins, ∃ root path, load origin = .ok root ∧ root.LeadsTo path site.node ∧
    site.reference = Reference.child (Reference.root origin) path

variable {load : Loader} {origins : List String}

theorem Site.inherited_located
    (hload : ∀ origin ∈ origins, ∀ root, load origin = .ok root → root.WellFormed) :
    Site.Inherited (Site.Located load origins) where
  value := by
    rintro site key node ⟨origin, horigin, root, path, hroot, hpath, hreference⟩ hget
    refine ⟨origin, horigin, root, path ++ [key], hroot, hpath.trans (.key hget .here), ?_⟩
    rw [Reference.child_append, ← hreference]
    rfl
  item := by
    rintro site item key ⟨origin, horigin, root, path, hroot, hpath, hreference⟩ hitem
    obtain ⟨items, index, node, hitems, hnode, rfl⟩ := Site.exists_of_mem_items hitem
    refine ⟨origin, horigin, root, path ++ [key, toString index], hroot,
      hpath.trans (.key (Document.get?_of_itemsAt? hitems) (.item hnode)), ?_⟩
    rw [Reference.child_append, ← hreference]
    rfl
  entry := by
    rintro site entry key ⟨origin, horigin, root, path, hroot, hpath, hreference⟩ hentry
    obtain ⟨entries, node, hentries, hmem, hsite⟩ := Site.exists_of_mem_entries hentry
    have hmap := Document.get?_of_entriesAt? hentries
    have hwell := (hpath.wellFormed (hload origin horigin root hroot)).get? hmap
    rw [hsite]
    refine ⟨origin, horigin, root, path ++ [key, entry.1], hroot,
      hpath.trans (.key hmap (.key (Document.get?_of_mem hwell hmem) .here)), ?_⟩
    rw [Reference.child_append, ← hreference]
    rfl

/-- The pointer in the reference of a located site is written as references write it, and the path that it
spells leads to the node of the site. -/
theorem Site.Located.path {site : Site} (h : site.Located load origins)
    (hplain : ∀ origin ∈ origins, '#' ∉ origin.toList) {origin : String} {pointer : List Char}
    (hat : Reference.IsAt origin pointer site.reference) {path : List String}
    (hpath : Pointer.path? pointer = some path) :
    pointer = Reference.segments path ∧ origin ∈ origins ∧
      ∃ root, load origin = .ok root ∧ root.LeadsTo path site.node := by
  obtain ⟨own, hown, root, keys, hroot, hleads, hreference⟩ := h
  rw [hreference] at hat
  obtain ⟨rfl, hpointer⟩ := ((Reference.isAt_root (hplain own hown)).child keys).unique hat
  rw [List.nil_append] at hpointer
  subst hpointer
  rw [Reference.path?_segments] at hpath
  cases hpath
  exact ⟨rfl, hown, root, hroot, hleads⟩

namespace Registry

variable {paths : List String} {rootName : String} {rules : Rules} {read : Registry}

theorem origin_mem_of_ofOrigins {schema : Schema}
    (h : schema ∈ ((ofOrigins origins rootName).setWhitelist paths).schemas) :
    schema.origin ∈ origins := by
  obtain ⟨origin, horigin, rfl⟩ := mem_ofOrigins h
  exact horigin

/-- All that is found when documents are read is located, or it is blank. -/
theorem found_located
    (hload : ∀ origin ∈ origins, ∀ root, load origin = .ok root → root.WellFormed)
    (hread : ((ofOrigins origins rootName).setWhitelist paths).readDocuments load rules =
      .ok read) :
    read.Found rules.spell fun seed => seed.site.Located load origins ∨ seed.site.node = .map [] := by
  refine (found_ofOrigins rules.spell _ origins rootName paths).readDocuments
    (Seed.inherited_of_site _ (Site.inherited_located hload)) (fun origin horigin root name hroot => ?_)
    hread
  obtain ⟨schema, hschema, rfl⟩ := List.mem_map.1 horigin
  exact Or.inl ⟨schema.origin, origin_mem_of_ofOrigins hschema, root, [], hroot, .here, rfl⟩

/-- A class that is found is located, and its node is one that classes are made from. -/
theorem located_of_class?
    (hload : ∀ origin ∈ origins, ∀ root, load origin = .ok root → root.WellFormed)
    (hread : ((ofOrigins origins rootName).setWhitelist paths).readDocuments load rules =
      .ok read) {reference : String} {c : Class} (hclass : read.class? reference = some c) :
    c.reference = reference ∧ c.site.Located load origins ∧
      ClassRule.objectSchema.supports c.node := by
  obtain ⟨schema, hschema, hc, href⟩ := mem_of_class? hclass
  obtain ⟨seed, hseed, _, hsupports, rfl⟩ :=
    ((found_located hload hread).found schema hschema).classes c hc
  exact ⟨href, Site.of_supports hseed hsupports, hsupports⟩

/-- A pointer into a document that has been read leads along the path that it spells. -/
theorem node?_of_path? (hplain : ∀ origin ∈ origins, '#' ∉ origin.toList)
    (hread : ((ofOrigins origins rootName).setWhitelist paths).readDocuments load rules = .ok read)
    {schema : Schema} (hschema : schema ∈ read.schemas) {root : Document}
    (hroot : load schema.origin = .ok root) {reference : String} {pointer : List Char}
    (hat : Reference.IsAt schema.origin pointer reference) {path : List String}
    (hpath : Pointer.path? pointer = some path) (hfirst : path.head? ≠ some "") :
    read.node? reference = Pointer.walk? root path := by
  have hempty := found_ofOrigins rules.spell (fun _ => True) origins rootName paths
  obtain ⟨before, _, horigin, loaded, hloaded, hparsed⟩ := parsed_of_readDocuments hempty
    (fun schema hschema => hplain _ (origin_mem_of_ofOrigins hschema)) hread hschema
  rw [← horigin, hroot] at hloaded
  cases hloaded
  rw [read.node?_of_isAt hat, (hempty.readDocuments_true hread).placed.schema?_origin hschema,
    Option.bind_some, hparsed, Option.bind_some, Pointer.find?_of_path? root hpath hfirst]

end Registry

end ApiModel
