import ApiModel.Proofs.DataType.Resolution
import ApiModel.Proofs.DataType.Termination
import ApiModel.Proofs.Registry.Evaluation
import ApiModel.Proofs.Registry.Sweep
import ApiModel.Text.Transliteration

/-!
# What pruning leaves of the type of a reference

A whitelisted operation refers to nodes by texts, and each of them has a type. The search for that type
goes on by texts, and by position into the nodes that it comes to; marking goes on by texts and recorded
relations only. So a class in the type is marked if a text led to it. A class that the search came to by
position, an inline one under nodes that are no classes, may be pruned (`kept_of_typeOf`).
-/

namespace ApiModel

namespace Registry

variable {load : Loader} {rules : Rules} {registry assembled : Registry}

/-- In a registry that was assembled from origins, operations stand in the documents of their schemas. -/
theorem origin_of_mem_operations {origins paths : List String} {rootName : String}
    (h : ((ofOrigins origins rootName).setWhitelist paths).assemble load rules = .ok assembled)
    {schema : Schema} (hschema : schema ∈ assembled.schemas) {operation : Operation}
    (hoperation : operation ∈ schema.operations) :
    '#' ∈ operation.reference.toList ∧ Reference.document operation.reference = schema.origin := by
  obtain ⟨read, resolved, hread, hresolved, rfl⟩ := assemble_eq_ok h
  have hroots : ∀ origin, RootSeeds load
      (fun seed => '#' ∈ seed.site.reference.toList ∨ seed.site.node = .map []) origin := by
    intro origin root name _
    exact Or.inl (Reference.mem_root origin)
  have hfound := (found_ofOrigins rules.spell _ origins rootName paths).readDocuments
    (Seed.inherited_of_site _ Site.inherited_fragment) (fun origin _ => hroots origin) hread
  have hplaced := hfound.placed.placed_of_resolveClasses hresolved
  -- linking unions and finding members change classes and relations only
  rw [hplaced.linkUnions] at hschema
  obtain ⟨linked, hlinked, rfl⟩ := List.mem_map.1 hschema
  obtain ⟨before, hbefore, hstep⟩ := hfound.placed.schema_of_resolveClasses hresolved hlinked
  have houtline := Schema.outline_of_resolve hstep
  have horigin : linked.outline.origin = before.outline.origin := by rw [houtline]
  have hoperations : linked.outline.operations = before.outline.operations := by rw [houtline]
  obtain ⟨seed, hseed, hhome, hsupports, hmem⟩ :=
    (hfound.found before hbefore).operations operation (hoperations ▸ hoperation)
  have hfragment : '#' ∈ seed.site.reference.toList :=
    Site.of_supports (P := fun site => '#' ∈ site.reference.toList) hseed hsupports
  have hstands := (Site.inherited_document seed.site.origin).operation ⟨hfragment, rfl⟩ hmem
  exact ⟨hstands.1, hstands.2.trans (hhome.trans horigin.symm)⟩

/-- A site all of whose references the whitelisted operations of a schema lead to. -/
structure Follows (registry : Registry) (schema : Schema) (site : Site) : Prop where
  fragment : '#' ∈ site.reference.toList
  reaches : ∀ text ∈ site.node.refs, registry.Reaches schema (site.resolve text)

namespace Follows

variable {schema : Schema} {site inner : Site}

theorem inside (h : registry.Follows schema site) (hinside : inner.Inside site) :
    registry.Follows schema inner where
  fragment := hinside.fragment h.fragment
  reaches := by
    intro text htext
    have hreaches := h.reaches text (hinside.refs text htext)
    show registry.Reaches schema (Reference.resolve inner.origin text)
    rw [hinside.origin h.fragment]
    exact hreaches

/-- From a node that is no class the operations lead to all that the node refers to. -/
theorem target {text : String} {node : Document} (h : registry.Reaches schema (site.resolve text))
    (hclass : registry.class? (site.resolve text) = none)
    (hnode : registry.node? (site.resolve text) = some node) :
    registry.Follows schema ⟨node, site.resolve text⟩ where
  fragment := Reference.mem_resolve site.origin text
  reaches := by
    intro inner hinner
    obtain ⟨start, hstart, hpath⟩ := h
    exact ⟨start, hstart, hpath.tail (.below hclass hnode hinner)⟩

end Follows

/-- Every call in the search for a type goes on to such a site. -/
theorem Follows.calls {types : List TypeRule} {schema : Schema} {walk next : Walk}
    (h : registry.Follows schema walk.site) (hcall : TypeCalls types registry walk next) :
    registry.Follows schema next.site := by
  cases hcall with
  | @follow followed site target hplanned _ =>
    obtain ⟨text, htarget, heq, hclass, hnode⟩ := hplanned.follow
    obtain ⟨node, reference⟩ := target
    subst heq
    exact .target (h.reaches text (Site.mem_refs_of_target? htarget)) hclass hnode
  | combine hplanned hinner =>
    obtain ⟨rule, _, hplan⟩ := hplanned
    exact h.inside (TypeRule.inside_of_combine hplan hinner)

theorem Follows.reached {types : List TypeRule} {schema : Schema} {walk next : Walk}
    (h : registry.Follows schema walk.site)
    (hpath : Relation.ReflTransGen (TypeCalls types registry) walk next) :
    registry.Follows schema next.site := by
  induction hpath with
  | refl => exact h
  | tail _ hcall ih => exact ih.calls hcall

end Registry

/-! ## Classes that a search meets -/

namespace Walk

variable {types : List TypeRule} {registry : Registry} {walk next : Walk} {reference : String}

/-- The search for a type comes to a site that refers to a class. -/
def MeetsByText (types : List TypeRule) (registry : Registry) (walk : Walk) (reference : String) :
    Prop :=
  ∃ met, Relation.ReflTransGen (TypeCalls types registry) walk met ∧
    ∃ text, met.site.target? = some text ∧ met.site.resolve text = reference

/-- The search for a type comes to a site that is itself a class. -/
def MeetsInline (types : List TypeRule) (registry : Registry) (walk : Walk) (reference : String) :
    Prop :=
  ∃ met, Relation.ReflTransGen (TypeCalls types registry) walk met ∧
    met.site.target? = none ∧ met.site.reference = reference

theorem MeetsByText.head (hcall : TypeCalls types registry walk next)
    (h : next.MeetsByText types registry reference) : walk.MeetsByText types registry reference := by
  obtain ⟨met, hpath, hmet⟩ := h
  exact ⟨met, .head hcall hpath, hmet⟩

theorem MeetsInline.head (hcall : TypeCalls types registry walk next)
    (h : next.MeetsInline types registry reference) : walk.MeetsInline types registry reference := by
  obtain ⟨met, hpath, hmet⟩ := h
  exact ⟨met, .head hcall hpath, hmet⟩

/-- The search for a type meets every class in it. -/
theorem meets_of_typeFound {followed : List String} {site : Site} {result : Except Error DataType}
    (h : TypeFound types registry followed site result) {type : DataType} (htype : result = .ok type)
    {name : String} (hholds : type.Holds reference name) :
    MeetsByText types registry ⟨followed, site⟩ reference ∨
      MeetsInline types registry ⟨followed, site⟩ reference := by
  -- on the derivation: a class is named where a search ends, and all of them are called for
  induction h generalizing type with
  | unsupported => cases htype; cases hholds
  | failed => cases htype
  | @known followed site known hplanned =>
    cases htype
    obtain ⟨rule, hrule, hplan⟩ := hplanned
    have hsupports : rule.supports registry site := by simpa using List.find?_some hrule
    rcases TypeRule.reference_of_known hsupports hplan hholds with htext | hinline
    · exact Or.inl ⟨_, .refl, htext⟩
    · exact Or.inr ⟨_, .refl, hinline⟩
  | again => cases htype; cases hholds
  | follow hplanned hnew _ ih =>
    have hcall := TypeCalls.follow hplanned hnew
    exact (ih htype hholds).imp (.head hcall) (.head hcall)
  | @combine followed site sites build results hplanned _ ih =>
    obtain ⟨found, hfound, rfl⟩ := Traversal.map_eq_ok.1 htype
    have hcombine := hplanned
    obtain ⟨rule, _, hplan⟩ := hplanned
    obtain ⟨innerType, hmem, hinner⟩ := TypeRule.holds_of_combine hplan hholds
    obtain ⟨inner, hsite, hresult⟩ := Traversal.exists_of_mem_mapM hfound hmem
    have hcall : TypeCalls types registry ⟨followed, site⟩ ⟨followed, inner⟩ := .combine hcombine hsite
    exact (ih inner hsite hresult hinner).imp (.head hcall) (.head hcall)

end Walk

namespace Registry

variable {load : Loader} {rules : Rules} {registry assembled : Registry}

/-- The site of a text that an operation refers with. -/
def referenceSite (operation : Operation) (text : String) : Site :=
  ⟨.map [("$ref", .string text)], operation.reference⟩

theorem refs_referenceSite (operation : Operation) (text : String) :
    (referenceSite operation text).node.refs = [text] := rfl

theorem follows_referenceSite {schema : Schema} {operation : Operation}
    (hfragment : '#' ∈ operation.reference.toList)
    (horigin : Reference.document operation.reference = schema.origin)
    (hoperation : operation ∈ schema.operations) (hpath : operation.path ∈ registry.whitelist)
    {text : String} (htext : text ∈ operation.node.refs) :
    registry.Follows schema (referenceSite operation text) where
  fragment := hfragment
  reaches := by
    intro inner hinner
    rw [refs_referenceSite, List.mem_singleton] at hinner
    subst hinner
    have henters : registry.Enters schema ((referenceSite operation inner).resolve inner) := by
      refine ⟨operation, hoperation, hpath, inner, htext, ?_⟩
      rw [← horigin]
      rfl
    exact ⟨_, henters, .refl⟩

/-- In a registry that was assembled from origins, take a text that a whitelisted operation refers with.
Pruning keeps every class in the type of that reference, except where the search for the type met the class
by position only, and nowhere by a text. -/
theorem kept_of_typeOf {origins paths : List String} {rootName : String}
    (h : ((ofOrigins origins rootName).setWhitelist paths).assemble load rules = .ok assembled)
    {schema : Schema} (hschema : schema ∈ assembled.schemas) {operation : Operation}
    (hoperation : operation ∈ schema.operations) (hpath : operation.path ∈ assembled.whitelist)
    {text : String} (htext : text ∈ operation.node.refs) {type : DataType}
    (htype : rules.typeOf assembled (referenceSite operation text) = .ok type) {reference : String}
    (hreference : reference ∈ type.classReferences) :
    assembled.prune.hasClass reference ∨
      Walk.MeetsInline rules.types assembled ⟨[], referenceSite operation text⟩ reference ∧
        ¬ Walk.MeetsByText rules.types assembled ⟨[], referenceSite operation text⟩ reference := by
  obtain ⟨⟨reference, name⟩, hobject, rfl⟩ := List.mem_map.1 hreference
  have hholds := DataType.mem_objects_iff.1 hobject
  by_cases htexts : Walk.MeetsByText rules.types assembled ⟨[], referenceSite operation text⟩ reference
  · -- the operations lead to what the text means, so it is marked
    obtain ⟨hfragment, horigin⟩ := origin_of_mem_operations h hschema hoperation
    have hfollows := follows_referenceSite hfragment horigin hoperation hpath htext
    obtain ⟨met, hreached, inner, htarget, rfl⟩ := htexts
    have hreaches := (hfollows.reached hreached).reaches inner (Site.mem_refs_of_target? htarget)
    obtain ⟨c, hclass, _⟩ := names_of_typeAt htype hholds
    have hhas : assembled.hasClass (met.site.resolve inner) := Option.isSome_iff_exists.2 ⟨c, hclass⟩
    have hkept := mem_keptClasses_iff.2 ⟨hhas, schema, hschema, hreaches⟩
    exact Or.inl ((hasClass_prune_iff (List.ne_nil_of_mem hpath)).2 ⟨hhas, hkept⟩)
  · have hfound : TypeFound rules.types assembled [] (referenceSite operation text) (.ok type) :=
      (typeFound_iff (Or.inl rfl)).2 htype
    exact Or.inr ⟨(Walk.meets_of_typeFound hfound rfl hholds).resolve_left htexts, htexts⟩

/-! ## An inline class of another class -/

/-- Where the operations refer to one node only, and nothing is below it, nothing else is kept. -/
theorem eq_of_mem_keptClasses {target reference : String}
    (hentry : ∀ schema ∈ registry.schemas, ∀ start ∈ registry.entryPoints schema, start = target)
    (hend : registry.successors target = []) (h : reference ∈ registry.keptClasses) :
    reference = target := by
  obtain ⟨_, schema, hschema, start, hstart, hpath⟩ := mem_keptClasses_iff.1 h
  have heq := hentry schema hschema start (mem_entryPoints_iff.2 hstart)
  subst heq
  cases hpath.cases_head with
  | inl hsame => exact hsame.symm
  | inr hstep =>
    obtain ⟨next, hleads, _⟩ := hstep
    have hnext := mem_successors_iff.2 hleads
    rw [hend] at hnext
    cases hnext

/-- A whitelisted operation refers to some classes, and a search of some depth finds that. -/
def RefersWithin (rules : Rules) (depth : Nat) (references : List String) (registry : Registry) : Prop :=
  ∃ schema ∈ registry.schemas, ∃ operation ∈ schema.operations,
    operation.path ∈ registry.whitelist ∧ ∃ text ∈ operation.node.refs,
      (typeWithin rules.types registry depth [] (referenceSite operation text)).toOption.map
        DataType.classReferences = some references

instance (rules : Rules) (depth : Nat) (references : List String) (registry : Registry) :
    Decidable (registry.RefersWithin rules depth references) :=
  inferInstanceAs (Decidable (∃ schema ∈ registry.schemas, ∃ operation ∈ schema.operations,
    operation.path ∈ registry.whitelist ∧ ∃ text ∈ operation.node.refs,
      (typeWithin rules.types registry depth [] (referenceSite operation text)).toOption.map
        DataType.classReferences = some references))

/-- An assembled registry whose operations refer to some classes, and of which more can be computed. -/
theorem exists_assemble {origins paths : List String} {rootName : String} {depth : Nat}
    {references : List String} {P : Registry → Prop} [DecidablePred P]
    (h : (((ofOrigins origins rootName).setWhitelist paths).assembleWithin depth load
      rules).toOption.any fun assembled =>
        assembled.RefersWithin rules depth references ∧ P assembled) :
    ∃ assembled : Registry,
      ((ofOrigins origins rootName).setWhitelist paths).assemble load rules = .ok assembled ∧
        P assembled ∧
        ∃ schema ∈ assembled.schemas, ∃ operation ∈ schema.operations,
          operation.path ∈ assembled.whitelist ∧ ∃ text ∈ operation.node.refs, ∃ type,
            rules.typeOf assembled (referenceSite operation text) = .ok type ∧
              type.classReferences = references := by
  cases hwithin : ((ofOrigins origins rootName).setWhitelist paths).assembleWithin depth load rules with
  | error error => rw [hwithin] at h; cases h
  | ok assembled =>
    rw [hwithin] at h
    obtain ⟨⟨schema, hschema, operation, hoperation, hpath, text, htext, htype⟩, hP⟩ :=
      of_decide_eq_true h
    refine ⟨assembled, assemble_of_assembleWithin hwithin, hP, schema, hschema, operation, hoperation,
      hpath, text, htext, ?_⟩
    cases hresult : typeWithin rules.types assembled depth [] (referenceSite operation text) with
    | error error => rw [hresult] at htype; cases htype
    | ok type =>
      rw [hresult] at htype
      exact ⟨type, typeAt_of_typeWithin hresult, Option.some.inj htype⟩

namespace Owners

/-- Owners have pets, and what a pet is stands inline. One operation refers to owners, and one to the pets
of an owner. -/
def document : Document :=
  .map [
    ("openapi", .string "3.0.0"),
    ("paths", .map [
      ("/owners", .map [("get", .map [("$ref", .string "#/definitions/Owner")])]),
      ("/pets", .map [("get", .map [("$ref", .string "#/definitions/Owner/properties/pets")])])]),
    ("definitions", .map [
      ("Owner", .map [
        ("properties", .map [
          ("pets", .map [
            ("type", .string "array"),
            ("items", .map [
              ("properties", .map [("name", .map [("type", .string "string")])])])])])])])]

/-- The document is the only one. -/
def loader : Loader := fun _ => .ok document

/-- The registry with a whitelist, before anything is read. -/
def start (paths : List String) : Registry := (ofOrigins ["d"] "Api").setWhitelist paths

end Owners

open Owners in
/-- The operation for owners refers to a class, and pruning to it keeps that class. -/
theorem kept_of_typeOf_owners :
    ∃ assembled : Registry,
      (start ["/owners"]).assemble loader (Rules.standard Text.transliterate "DateTime" {}) = .ok assembled ∧
        assembled.prune.hasClass "d#/definitions/Owner" := by
  have hcomputed : ((start ["/owners"]).assembleWithin 3 loader
      (Rules.standard Text.transliterate "DateTime" {})).toOption.any fun assembled =>
        assembled.RefersWithin (Rules.standard Text.transliterate "DateTime" {}) 3 ["d#/definitions/Owner"] ∧
          ∀ schema ∈ assembled.schemas, ∀ operation ∈ schema.operations,
            operation.path ∈ assembled.whitelist → ∀ text ∈ operation.node.refs,
              (referenceSite operation text).resolve text = "d#/definitions/Owner" := by
    decide +kernel
  obtain ⟨assembled, hassembled, hresolve, schema, hschema, operation, hoperation, hpath, text, htext,
    type, htype, hreferences⟩ := exists_assemble hcomputed
  have hmem : "d#/definitions/Owner" ∈ type.classReferences := by
    rw [hreferences]
    exact List.mem_singleton_self _
  have hmet : Walk.MeetsByText (Rules.standard Text.transliterate "DateTime" {}).types assembled
      ⟨[], referenceSite operation text⟩ "d#/definitions/Owner" :=
    ⟨_, .refl, text, rfl, hresolve schema hschema operation hoperation hpath text htext⟩
  have hkept := kept_of_typeOf hassembled hschema hoperation hpath htext htype hmem
  exact ⟨assembled, hassembled, hkept.resolve_right fun hinline => hinline.2 hmet⟩

open Owners in
/-- The operation for pets refers to a list of a class, and pruning to it drops that class: no text leads
to it. -/
theorem not_kept_of_typeOf :
    ∃ assembled : Registry,
      (start ["/pets"]).assemble loader (Rules.standard Text.transliterate "DateTime" {}) = .ok assembled ∧
        ∃ schema ∈ assembled.schemas, ∃ operation ∈ schema.operations,
          operation.path ∈ assembled.whitelist ∧ ∃ text ∈ operation.node.refs, ∃ type,
            (Rules.standard Text.transliterate "DateTime" {}).typeOf assembled
                (referenceSite operation text) = .ok type ∧
              ∃ reference ∈ type.classReferences, ¬ assembled.prune.hasClass reference := by
  have hcomputed : ((start ["/pets"]).assembleWithin 3 loader
      (Rules.standard Text.transliterate "DateTime" {})).toOption.any fun assembled =>
        assembled.RefersWithin (Rules.standard Text.transliterate "DateTime" {}) 3
            ["d#/definitions/Owner/properties/pets/items"] ∧
          (∀ schema ∈ assembled.schemas, ∀ start ∈ assembled.entryPoints schema,
            start = "d#/definitions/Owner/properties/pets") ∧
          assembled.successors "d#/definitions/Owner/properties/pets" = [] := by
    decide +kernel
  obtain ⟨assembled, hassembled, ⟨hentry, hend⟩, schema, hschema, operation, hoperation, hpath, text,
    htext, type, htype, hreferences⟩ := exists_assemble hcomputed
  refine ⟨assembled, hassembled, schema, hschema, operation, hoperation, hpath, text, htext, type,
    htype, "d#/definitions/Owner/properties/pets/items", ?_, ?_⟩
  · rw [hreferences]
    exact List.mem_singleton_self _
  · intro hleft
    have hkept := ((hasClass_prune_iff (List.ne_nil_of_mem hpath)).1 hleft).2
    have heq := eq_of_mem_keptClasses hentry hend hkept
    revert heq
    decide

end Registry

end ApiModel
