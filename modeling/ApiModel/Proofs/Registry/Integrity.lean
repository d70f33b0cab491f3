import ApiModel.Proofs.DataType.Resolution
import ApiModel.Proofs.Registry.Evaluation
import ApiModel.Proofs.Registry.Whitelist
import ApiModel.Text.Transliteration

/-!
# Nothing dangles

In a registry that has been built, every object type names a class that is there, every parent is a
union that lists the class as its child, and no kept union has lost a child that was a class. Each pass
has its part in this: types are found in the registry that the documents gave, every class in them is
recorded as a relation, and pruning follows relations, children and parents alike.
-/

namespace ApiModel

/-- An object type stands in the type of a property or of an extension of the class, at any depth. -/
def Class.Holds (c : Class) (reference name : String) : Prop :=
  (∃ property ∈ c.properties, property.type.Holds reference name) ∨
    ∃ entry ∈ c.extensionTypes, entry.2.Holds reference name

/-- Nothing in a registry refers to a class that it does not have. `before` is the registry from which
classes were dropped. -/
structure Registry.Intact (before registry : Registry) : Prop where
  objects : ∀ schema ∈ registry.schemas, ∀ c ∈ schema.classes, ∀ reference name,
    c.Holds reference name → registry.Names reference name
  parents : ∀ schema ∈ registry.schemas, ∀ c ∈ schema.classes, ∀ parent,
    c.unionParent? = some parent →
      ∃ union, registry.class? parent = some union ∧ union.isUnion ∧ c.reference ∈ union.children
  children : ∀ schema ∈ registry.schemas, ∀ c ∈ schema.classes, c.isUnion → ∀ child ∈ c.children,
    before.hasClass child → registry.hasClass child

/-! ## What one class holds -/

/-- What a class holds is among its relations. -/
theorem Class.Holds.mem_relations {c : Class} {reference name : String}
    (h : c.Holds reference name) : reference ∈ c.relations := by
  unfold relations
  rw [List.mem_append]
  rcases h with ⟨property, hproperty, hholds⟩ | ⟨entry, hentry, hholds⟩
  · exact Or.inl (List.mem_flatMap.2 ⟨property, hproperty, hholds.mem_classReferences⟩)
  · exact Or.inr (List.mem_flatMap.2 ⟨entry, hentry, hholds.mem_classReferences⟩)

/-- What a class holds is named in the registry that its members were found in. -/
theorem Class.names_of_resolve {c resolved : Class} {rules : Rules} {registry : Registry}
    (h : c.resolve rules registry = .ok resolved) {reference name : String}
    (hholds : resolved.Holds reference name) : registry.Names reference name := by
  obtain ⟨properties, hproperties, h⟩ := Traversal.bind_eq_ok.1 h
  obtain ⟨extensionTypes, hextensions, h⟩ := Traversal.bind_eq_ok.1 h
  cases h
  -- members of either kind have the types that were found for their nodes
  rcases hholds with ⟨property, hproperty, hholds⟩ | ⟨entry, hentry, hholds⟩
  · obtain ⟨_, _, hmembers⟩ := Traversal.bind_eq_ok.1 hproperties
    obtain ⟨untyped, _, hstep⟩ := Traversal.exists_of_mem_mapM hmembers hproperty
    obtain ⟨type, htype, hstep⟩ := Traversal.bind_eq_ok.1 hstep
    cases hstep
    exact names_of_typeAt htype hholds
  · obtain ⟨slot, _, hstep⟩ := Traversal.exists_of_mem_mapM hextensions hentry
    obtain ⟨type, htype, hstep⟩ := Traversal.bind_eq_ok.1 hstep
    cases hstep
    exact names_of_typeAt htype hholds

namespace Registry

/-! ## Before pruning -/

/-- What is known of every class before any class is dropped. -/
structure Wired (registry : Registry) : Prop where
  placed : registry.Placed
  objects : ∀ {reference target name : String} {c : Class},
    registry.class? reference = some c → c.Holds target name → registry.Names target name
  recorded : ∀ {reference target name : String} {c : Class},
    registry.class? reference = some c → c.Holds target name → registry.Leads reference target
  parents : ∀ {reference parent : String} {c : Class},
    registry.class? reference = some c → c.unionParent? = some parent →
      ∃ union, registry.class? parent = some union ∧ union.isUnion ∧ reference ∈ union.children

variable {load : Loader} {rules : Rules} {read resolved : Registry}

theorem unionParent?_classOf (name : String) (site : Site) :
    (classOf name site).unionParent? = none := by
  unfold classOf classKindOf
  cases discriminatorOf? site.node with
  | none => rfl
  | some discriminator => rfl

/-- A class before any union is linked has no parent. -/
theorem orphan_of_resolveClasses (hfound : read.Found rules.spell fun _ => True)
    (hresolved : read.resolveClasses rules = .ok resolved) {reference : String} {c : Class}
    (hclass : resolved.class? reference = some c) : c.unionParent? = none := by
  obtain ⟨schema, hschema, hc, _⟩ := mem_of_class? hclass
  obtain ⟨before, hbefore, hstep⟩ := hfound.placed.schema_of_resolveClasses hresolved hschema
  obtain ⟨unresolved, hunresolved, hresolve⟩ := class_of_resolve hstep hc
  obtain ⟨seed, _, _, _, rfl⟩ := (hfound.found before hbefore).classes unresolved hunresolved
  show c.outline.unionParent? = none
  rw [Class.outline_of_resolve hresolve]
  exact unionParent?_classOf (Identifier.ofClass rules.spell seed.name) seed.site

theorem relations?_linkUnions (h : resolved.Placed) {schema : Schema}
    (hschema : schema ∈ resolved.schemas) {c : Class} (hc : c ∈ schema.classes) :
    resolved.linkUnions.relations? c.reference = schema.relations? c.reference := by
  have hplaced := h.placed_linkUnions
  rw [h.linkUnions] at hplaced ⊢
  have hadopted := hplaced.relations?_of_mem (List.mem_map_of_mem hschema)
    (List.mem_map_of_mem hc)
  rw [Class.reference_foldl_adopt] at hadopted
  exact hadopted

/-- A registry is wired once its unions are linked. -/
theorem wired_of_resolveClasses (hfound : read.Found rules.spell fun _ => True)
    (hresolved : read.resolveClasses rules = .ok resolved) : resolved.linkUnions.Wired := by
  have hplaced := hfound.placed.placed_of_resolveClasses hresolved
  have houtline := hfound.placed.outline_of_resolveClasses hresolved
  -- a class is one of those with members, and linking left its members alone
  have hbefore : ∀ {reference : String} {c : Class},
      resolved.linkUnions.class? reference = some c →
        ∃ d, resolved.class? reference = some d ∧
          ∀ target name, c.Holds target name ↔ d.Holds target name := by
    intro reference c hclass
    rw [hplaced.class?_linkUnions] at hclass
    obtain ⟨d, hd, rfl⟩ := Option.map_eq_some_iff.1 hclass
    obtain ⟨kind, hkind⟩ := d.foldl_adopt_eq resolved.unionLinks
    exact ⟨d, hd, fun target name => by rw [hkind]; rfl⟩
  refine ⟨hplaced.placed_linkUnions, ?_, ?_, ?_⟩
  · intro reference target name c hclass hholds
    obtain ⟨d, hd, hsame⟩ := hbefore hclass
    obtain ⟨schema, hschema, hmem, _⟩ := mem_of_class? hd
    obtain ⟨_, _, hstep⟩ := hfound.placed.schema_of_resolveClasses hresolved hschema
    obtain ⟨_, _, hresolve⟩ := class_of_resolve hstep hmem
    have hnames := Class.names_of_resolve hresolve ((hsame target name).1 hholds)
    exact hplaced.names_linkUnions (names_of_outline_eq houtline.symm hnames)
  · intro reference target name c hclass hholds
    obtain ⟨d, hd, hsame⟩ := hbefore hclass
    obtain ⟨schema, hschema, hmem, rfl⟩ := mem_of_class? hd
    obtain ⟨_, _, hstep⟩ := hfound.placed.schema_of_resolveClasses hresolved hschema
    obtain ⟨known, hknown, hall⟩ := Schema.records_of_resolve hstep hmem
    rw [← relations?_linkUnions hplaced hschema hmem] at hknown
    exact .relation hclass hknown (hall target ((hsame target name).1 hholds).mem_relations)
  · intro reference parent c hclass hparent
    exact hplaced.parent_of_linkUnions hclass hparent
      fun d hd => orphan_of_resolveClasses hfound hresolved hd

/-! ## After pruning -/

/-- Pruning a wired registry leaves nothing that refers to a class that went. -/
theorem Wired.intact_prune {registry : Registry} (h : registry.Wired) :
    registry.Intact registry.prune := by
  have hfind : ∀ {schema : Schema} {c : Class}, schema ∈ registry.prune.schemas →
      c ∈ schema.classes → registry.class? c.reference = some c ∧ registry.Keeps c.reference := by
    intro schema c hschema hc
    exact h.placed.class?_prune_iff.1
      (h.placed.prune.class?_eq_some_iff.2 ⟨schema, hschema, hc, rfl⟩)
  -- what a kept class leads to is kept with it
  have hkeep : ∀ {reference target : String} {d : Class}, registry.Keeps reference →
      registry.Leads reference target → registry.class? target = some d →
        registry.prune.class? target = some d := by
    intro reference target d hkeeps hleads hd
    refine h.placed.class?_prune_iff.2 ⟨hd, hkeeps.leads hleads ?_⟩
    rw [hasClass, hd]
    rfl
  refine ⟨?_, ?_, ?_⟩
  · intro schema hschema c hc target name hholds
    obtain ⟨hclass, hkeeps⟩ := hfind hschema hc
    obtain ⟨d, hd, hname⟩ := h.objects hclass hholds
    exact ⟨d, hkeep hkeeps (h.recorded hclass hholds) hd, hname⟩
  · intro schema hschema c hc parent hparent
    obtain ⟨hclass, hkeeps⟩ := hfind hschema hc
    obtain ⟨union, hunion, hchild⟩ := h.parents hclass hparent
    exact ⟨union, hkeep hkeeps (.union hclass hparent) hunion, hchild⟩
  · intro schema hschema c hc _ child hchild hhas
    obtain ⟨hclass, hkeeps⟩ := hfind hschema hc
    obtain ⟨d, hd⟩ := Option.isSome_iff_exists.1 hhas
    rw [hasClass, hkeep hkeeps (.child hclass hchild) hd]
    rfl

/-- A registry that is built from origins, whatever documents stand there and whatever is whitelisted,
has all classes that its types, its parents and the unions that were kept name. -/
theorem intact_of_build {origins paths : List String} {rootName : String} {load : Loader}
    {rules : Rules} {built : Registry}
    (h : ((ofOrigins origins rootName).setWhitelist paths).build load rules = .ok built) :
    ∃ assembled, ((ofOrigins origins rootName).setWhitelist paths).assemble load rules =
        .ok assembled ∧ built = assembled.prune ∧ assembled.Intact built := by
  rw [build_eq] at h
  obtain ⟨assembled, hassembled, rfl⟩ := Traversal.map_eq_ok.1 h
  obtain ⟨read, resolved, hread, hresolved, rfl⟩ := assemble_eq_ok hassembled
  have hfound := found_of_readDocuments hread
  exact ⟨_, hassembled, rfl, (wired_of_resolveClasses hfound hresolved).intact_prune⟩

theorem intact_of_build_sample :
    ∃ built assembled : Registry,
      ((ofOrigins ["pets", "people"] "Root").setWhitelist ["/cats/\x7bid\x7d"]).build Sample.load
          (Rules.standard Text.transliterate "DateTime" {}) = .ok built ∧
        built = assembled.prune ∧ assembled.Intact built := by
  obtain ⟨built, hbuilt⟩ := Sample.exists_build
  obtain ⟨assembled, _, hpruned, hintact⟩ := intact_of_build hbuilt
  exact ⟨built, assembled, hbuilt, hpruned, hintact⟩

end Registry

end ApiModel
