import ApiModel.Config
import ApiModel.Proofs.DataType.Termination
import ApiModel.Proofs.Json.Reader
import ApiModel.Proofs.Property.Unfolding
import ApiModel.Proofs.Registry.Assembly
import ApiModel.Text.Transliteration

/-!
# Why a build fails

A build that ends in an error ends in one of a document that cannot be loaded, or, once all documents have
been read, in one of a reference: to no node, or along `allOf` back to where it came from
(`Error.Unresolved`). The internal errors are not among these. Every class is found again where it was
recorded, and a scalar rule is asked only for nodes that it supports.

One way is left, which no document is to blame for. An origin may have a fragment of its own. The document
is then loaded by the part before it, and what is found there is looked for under that part, which is the
origin of no schema unless it is listed too (`Config.fails_of_build`).
-/

namespace ApiModel

/-- An error that a reference in a document is to blame for. -/
inductive Error.Unresolved (registry : Registry) : Error → Prop where
  /-- A `$ref` leads to no class and to no node. -/
  | target {text reference : String} :
    registry.class? (Reference.resolve (Reference.document reference) text) = none →
      registry.node? (Reference.resolve (Reference.document reference) text) = none →
        Unresolved registry (.unresolvableReference text reference)
  /-- A reference in `allOf` leads to no node. -/
  | base {text reference : String} :
    registry.node? (Reference.resolve (Reference.document reference) text) = none →
      Unresolved registry (.unresolvableAllOf text reference)
  /-- A reference in `allOf` leads to a node that is a base of itself. -/
  | cycle {node : Document} {text reference : String} :
    registry.node? (Reference.resolve (Reference.document reference) text) = some node →
      Relation.TransGen (Site.IsBase registry)
        ⟨node, Reference.resolve (Reference.document reference) text⟩
        ⟨node, Reference.resolve (Reference.document reference) text⟩ →
          Unresolved registry (.cyclicAllOf text reference)

/-- What is found in a document has no schema to go to. -/
def Error.Unhoused (registry : Registry) (document : String) (error : Error) : Prop :=
  document ∉ registry.origins ∧
    ∃ reference, error = .noSchema reference ∧ Reference.document reference = document

variable {registry : Registry} {error : Error}

/-! ## Types -/

/-- A rule that supports a node fails only at a reference to nothing. -/
theorem TypeRule.unresolved_of_plan {rule : TypeRule} {site : Site}
    (hsupports : rule.supports registry site) (h : rule.plan registry site = .error error) :
    error.Unresolved registry := by
  cases rule with
  | reference =>
    simp only [plan, planReference] at h
    split at h
    · cases h
    · next hclass =>
      split at h
      · cases h
      · next hnode => cases h; exact .target hclass hnode
  | scalar =>
    -- the rule supports nodes with a scalar kind only
    obtain ⟨kind, hkind⟩ := Option.isSome_iff_exists.1 hsupports
    simp only [plan, hkind] at h
    cases h
  | object | dateTime | multiple | array | map => cases h

/-- A type that is not found is not found for a reference to nothing. -/
theorem unresolved_of_typeFound {rules : List TypeRule} {followed : List String} {site : Site}
    {result : Except Error DataType} (h : TypeFound rules registry followed site result)
    (hresult : result = .error error) : error.Unresolved registry := by
  induction h with
  | unsupported | known | again => cases hresult
  | failed hplanned =>
    cases hresult
    obtain ⟨rule, hrule, hplan⟩ := hplanned
    exact rule.unresolved_of_plan (by simpa using List.find?_some hrule) hplan
  | follow _ _ _ ih => exact ih hresult
  | combine _ _ ih =>
    obtain ⟨inner, hinner, hfail⟩ :=
      Traversal.exists_of_mapM_eq_error (Traversal.map_eq_error.1 hresult)
    exact ih inner hinner hfail

theorem Rules.unresolved_of_typeOf {rules : Rules} {site : Site}
    (h : rules.typeOf registry site = .error error) : error.Unresolved registry := by
  have hsettled : Walk.Settled registry ⟨[], site⟩ := Or.inl rfl
  exact unresolved_of_typeFound (typeFound_typeAt hsettled) h

/-! ## Properties -/

namespace Rules

variable {spell : Text.Spelling} {wrapper : String} {format : DateTimeFormat}

/-- A member of `allOf` fails by its own reference, or as the walk does that goes on from there. -/
theorem unresolved_of_inherit {followed : List String} {site member : Site}
    (hsettled : Walk.Settled registry ⟨followed, site⟩)
    (habove : Walk.Above registry ⟨followed, site⟩) (hmember : member ∈ site.items "allOf")
    (hnext : ∀ next, Walk.Moves registry ⟨followed, site⟩ next → next.Above registry →
      propertiesAt (standard spell wrapper format).properties registry next.followed next.site =
        .error error → error.Unresolved registry)
    (h : (standard spell wrapper format).inherit registry followed site member = .error error) :
    error.Unresolved registry := by
  have hinside : member.Inside site := Site.inside_items (by decide) hmember
  cases htarget : member.target? with
  | none =>
    have hfind : site.base? registry member = some member := Site.base?_of_not_target? htarget
    rw [inherit_of_not_target? htarget] at h
    exact hnext _ (.inside hinside) (habove.base (Site.mem_bases hmember hfind)) h
  | some text =>
    have htext := hinside.refs _ (Site.mem_refs_of_target? htarget)
    cases hnode : registry.node? (site.resolve text) with
    | none =>
      simp only [inherit, PropertyPart.ofMember, htarget, PropertyPart.properties, inheritedFrom,
        hnode] at h
      cases h
      exact .base hnode
    | some node =>
      have hfind : site.base? registry member = some ⟨node, site.resolve text⟩ := by
        rw [Site.base?_of_target? htarget, hnode]
        rfl
      have hbase := Site.mem_bases hmember hfind
      by_cases hmem : site.resolve text ∈ followed
      · -- the base is being followed already, so the node is a base of it at some depth
        have hgo := hsettled.follow? htext
        simp only [if_pos hmem] at hgo
        simp only [inherit, PropertyPart.ofMember, htarget, PropertyPart.properties, inheritedFrom,
          hnode, hgo] at h
        cases h
        have hback := habove _ hmem _ hnode
        exact .cycle hnode (.head' hbase hback)
      · rw [inherit_of_target? hsettled hmember htarget hnode hmem] at h
        exact hnext _ (.follow htext hnode hmem) ((habove.base hbase).follow hnode) h

/-- Properties that are not found are not found for a base that leads to nothing or to itself. -/
theorem unresolved_of_propertiesAt {walk : Walk} (hsettled : walk.Settled registry)
    (habove : walk.Above registry)
    (h : propertiesAt (standard spell wrapper format).properties registry walk.followed walk.site =
      .error error) : error.Unresolved registry := by
  have hacc := Walk.acc_moves registry walk
  induction hacc with
  | intro walk _ ih =>
    rw [propertiesAt_standard] at h
    obtain ⟨member, hmember, hfail⟩ :=
      Traversal.exists_of_mapM_eq_error (Traversal.map_eq_error.1 h)
    exact unresolved_of_inherit hsettled habove hmember
      (fun next hmove habove h => ih next hmove (hsettled.moves hmove) habove h) hfail

theorem unresolved_of_propertiesOf {site : Site}
    (h : (standard spell wrapper format).propertiesOf registry site = .error error) :
    error.Unresolved registry := by
  have hnone : Walk.Above registry ⟨[], site⟩ := by
    intro reference hmem
    cases hmem
  have hsettled : Walk.Settled registry ⟨[], site⟩ := Or.inl rfl
  exact unresolved_of_propertiesAt hsettled hnone h

end Rules

/-! ## Members -/

section

variable {spell : Text.Spelling} {wrapper : String} {format : DateTimeFormat}

theorem Class.unresolved_of_resolve {c : Class}
    (h : c.resolve (.standard spell wrapper format) registry = .error error) :
    error.Unresolved registry := by
  rcases Traversal.bind_eq_error.1 h with h | ⟨_, _, h⟩
  · rcases Traversal.bind_eq_error.1 h with h | ⟨_, _, h⟩
    · exact Rules.unresolved_of_propertiesOf h
    · obtain ⟨property, _, h⟩ := Traversal.exists_of_mapM_eq_error h
      rcases Traversal.bind_eq_error.1 h with h | ⟨_, _, h⟩
      · exact Rules.unresolved_of_typeOf h
      · cases h
  · rcases Traversal.bind_eq_error.1 h with h | ⟨_, _, h⟩
    · obtain ⟨slot, _, h⟩ := Traversal.exists_of_mapM_eq_error h
      rcases Traversal.bind_eq_error.1 h with h | ⟨_, _, h⟩
      · exact Rules.unresolved_of_typeOf h
      · cases h
    · cases h

/-- In a placed registry every class that is to be resolved is there, and so is its schema. -/
theorem Registry.Placed.unresolved_of_resolveClasses (hplaced : registry.Placed)
    (h : registry.resolveClasses (.standard spell wrapper format) = .error error) :
    error.Unresolved registry := by
  rw [hplaced.resolveClasses] at h
  obtain ⟨schema, _, h⟩ := Traversal.exists_of_mapM_eq_error (Traversal.map_eq_error.1 h)
  rcases Traversal.bind_eq_error.1 h with h | ⟨_, _, h⟩
  · obtain ⟨c, _, h⟩ := Traversal.exists_of_mapM_eq_error h
    exact Class.unresolved_of_resolve h
  · cases h

end

/-! ## Documents -/

/-- The errors of documents that cannot be loaded are those of reading and of parsing. -/
theorem kind_of_loadDocument {documentFormat : DocumentFormat} {read? : String → Option String}
    {origin : String} (h : loadDocument documentFormat read? origin = .error error) :
    error.kind = .io ∨ error.kind = .parse := by
  rcases Traversal.bind_eq_error.1 h with h | ⟨path, _, h⟩
  · simp only [filePathOf] at h
    split at h
    · cases h
    · split at h
      · cases h
        exact Or.inr rfl
      · split at h
        · cases h
        · cases h
          exact Or.inr rfl
  · split at h
    · cases h
      exact Or.inl rfl
    · unfold DocumentFormat.decode at h
      split at h
      · cases h
        exact Or.inr rfl
      · split at h
        · cases h
        · cases h
          exact Or.inr rfl

namespace Registry

variable {load : Loader} {rules : Rules} {origin : String}

theorem origins_of_blank_eq {a b : Registry} (h : a.blank = b.blank) : a.origins = b.origins := by
  have horigins : ∀ registry : Registry, registry.blank.origins = registry.origins := by
    intro registry
    unfold origins blank
    rw [List.map_map]
    rfl
  rw [← horigins a, h, horigins b]

/-- A search fails only if the document that it begins in has no schema. -/
theorem unhoused_of_discover {seed : Seed} (hfragment : '#' ∈ seed.site.reference.toList)
    (h : (rules.discover registry seed).failure = some error) :
    error.Unhoused registry seed.site.origin := by
  have hS := Seed.inherited_of_site rules.spell (Site.inherited_document seed.site.origin)
  refine (discover_keeps (P := fun after => after.blank = registry.blank)
    (Q := Error.Unhoused registry seed.site.origin)
    (fun rule before inner hsupports hbefore hinner => ⟨fun error herror => ?_, fun _ _ hentered =>
      ⟨(blank_of_entered hentered).trans hbefore, hS.entered hinner hentered⟩⟩)
    rfl (Or.inl ⟨hfragment, rfl⟩)).2 error h
  obtain ⟨rfl, hnone⟩ := ClassRule.noSchema_of_enter herror
  obtain ⟨_, horigin⟩ := Site.of_supports
    (P := fun site => '#' ∈ site.reference.toList ∧ site.origin = seed.site.origin) hinner hsupports
  refine ⟨fun hmem => ?_, _, rfl, horigin⟩
  rw [← origins_of_blank_eq hbefore] at hmem
  obtain ⟨schema, hschema, heq⟩ := List.mem_map.1 hmem
  exact Keyed.get?_eq_none_iff.1 hnone schema hschema (heq.trans horigin.symm)

theorem readDocument_eq_error {root : Document} (hload : load origin = .ok root)
    (hfailure : (rules.discover registry
      { name := ((registry.schema? origin).map Schema.rootName).getD ""
        site := ⟨root, Reference.root origin⟩ }).failure = some error) :
    readDocument load rules registry origin = .error error := by
  refine Traversal.bind_eq_error.2 (Or.inr ⟨root, hload, ?_⟩)
  dsimp only
  rw [hfailure]
  rfl

/-- A document is not read if it cannot be loaded, or if what is found in it has no schema. -/
theorem fails_of_readDocument (h : readDocument load rules registry origin = .error error) :
    load origin = .error error ∨ error.Unhoused registry (Reference.document origin) := by
  rcases Traversal.bind_eq_error.1 h with h | ⟨root, _, h⟩
  · exact Or.inl h
  · dsimp only at h
    split at h
    · next hfailure =>
      cases h
      have hunhoused := unhoused_of_discover (Reference.mem_root origin) hfailure
      rw [← Reference.document_root origin]
      exact Or.inr hunhoused
    · cases h

theorem origins_readDocument {read : Registry}
    (h : readDocument load rules registry origin = .ok read) : read.origins = registry.origins := by
  rw [origins_eq_labels, labels_readDocument h, ← origins_eq_labels]

/-- Documents are not read if one of them cannot be loaded, or if what is found in it has no schema. -/
theorem fails_of_readDocuments (h : registry.readDocuments load rules = .error error) :
    ∃ origin ∈ registry.origins, load origin = .error error ∨
      error.Unhoused registry (Reference.document origin) := by
  obtain ⟨before, origin, horigin, hbefore, h⟩ := Traversal.exists_of_foldlM_eq_error
    (P := fun before => before.origins = registry.origins)
    (fun _ _ _ _ hbefore hstep => (origins_readDocument hstep).trans hbefore) rfl h
  refine ⟨origin, horigin, (fails_of_readDocument h).imp_right fun hunhoused => ?_⟩
  rw [Error.Unhoused, ← hbefore]
  exact hunhoused

end Registry

/-! ## Configurations -/

/-- Why the build of a configuration fails. -/
inductive Config.Fails (config : Config) (spell : Text.Spelling) (read? : String → Option String)
    (registry : Registry) : Error → Prop where
  /-- A document cannot be loaded. -/
  | load {origin : String} {error : Error} : origin ∈ config.documents →
    loadDocument config.format read? origin = .error error → error.kind = .io ∨ error.kind = .parse →
      Fails config spell read? registry error
  /-- All documents have been read, and a reference in them does not lead on. -/
  | unresolved {read : Registry} {error : Error} :
    registry.readDocuments (loadDocument config.format read?) (config.rules spell) = .ok read →
      error.Unresolved read → Fails config spell read? registry error
  /-- An origin has a fragment of its own, and the document before it is not listed. -/
  | fragment {origin reference : String} : origin ∈ config.documents → '#' ∈ origin.toList →
    Reference.document origin ∉ config.documents →
      Reference.document reference = Reference.document origin →
        Fails config spell read? registry (.noSchema reference)

namespace Config

/-- A valid configuration has a registry. Building it fails only if a document cannot be loaded, if a
reference in the documents does not lead on, or if an origin has a fragment of its own. -/
theorem fails_of_build {config : Config} (hvalid : config.validate = .ok ()) (spell : Text.Spelling)
    (read? : String → Option String) :
    ∃ registry, config.registry = .ok registry ∧ ∀ error,
      config.build spell read? registry = .error error → config.Fails spell read? registry error := by
  have hregistry : config.registry = .ok
      ((Registry.ofOrigins config.documents config.rootName).setWhitelist config.whitelist) := by
    rw [registry, hvalid]
    rfl
  refine ⟨_, hregistry, fun error h => ?_⟩
  rcases Traversal.bind_eq_error.1 h with h | ⟨_, _, h⟩
  · rcases Traversal.bind_eq_error.1 h with h | ⟨read, hread, h⟩
    · obtain ⟨origin, horigin, h⟩ := Registry.fails_of_readDocuments h
      have hlisted := Registry.mem_origins_ofOrigins.1 horigin
      rcases h with h | ⟨hunlisted, reference, rfl, hdocument⟩
      · exact .load hlisted h (kind_of_loadDocument h)
      · have hown : Reference.document origin ∉ config.documents :=
          mt Registry.mem_origins_ofOrigins.2 hunlisted
        refine .fragment hlisted ?_ hown hdocument
        -- an origin without a fragment is the document that its root stands in
        by_contra hplain
        rw [← Reference.document_root, (Reference.isAt_root hplain).document] at hown
        exact hown hlisted
    · have hplaced := (Registry.found_of_readDocuments hread).placed
      rcases Traversal.bind_eq_error.1 h with h | ⟨_, _, h⟩
      · exact .unresolved hread (hplaced.unresolved_of_resolveClasses h)
      · cases h
  · cases h

/-- A configuration with one document. -/
def pets : Config where
  documents := ["pets.json"]

/-- Without a fragment in the origin no internal error comes up, whatever the document is. -/
theorem fails_of_build_pets : pets.validate = .ok () ∧ ∀ spell read?, ∃ registry,
    pets.registry = .ok registry ∧ ∀ error, pets.build spell read? registry = .error error →
      (∀ reference, error ≠ .noSchema reference) ∧ ∀ origin, error ≠ .lostSchema origin := by
  have hvalid : pets.validate = .ok () := by rfl
  refine ⟨hvalid, fun spell read? => ?_⟩
  obtain ⟨registry, hregistry, hfails⟩ := fails_of_build hvalid spell read?
  refine ⟨registry, hregistry, fun error herror => ?_⟩
  cases hfails error herror with
  | load _ _ hkind =>
    constructor
    · rintro reference rfl
      simp [Error.kind] at hkind
    · rintro origin rfl
      simp [Error.kind] at hkind
  | unresolved _ hunresolved =>
    cases hunresolved with
    | target | base | cycle => exact ⟨fun _ => nofun, fun _ => nofun⟩
  | fragment hlisted hfragment =>
    rw [List.mem_singleton.1 hlisted] at hfragment
    exact absurd hfragment (by decide)

/-- A configuration that names its document by an origin with an empty fragment. -/
def anchored : Config where
  documents := ["api.json#"]

/-- A document without operations and classes. -/
def emptyDocument : Document := .map [("openapi", .string "3.0.0"), ("paths", .map [])]

/-- The text of the document. -/
def emptyText : String := "\x7b\"openapi\":\"3.0.0\",\"paths\":\x7b\x7d\x7d"

theorem parse?_emptyText : Json.parse? emptyText = some emptyDocument := by
  have hpaths : Json.Reads (Json.members? 126 "\"paths\":\x7b\x7d\x7d".toList)
      [(String.ofList "paths".toList, .map [])] [] :=
    Json.reads_lastMember rfl rfl rfl (Json.reads_emptyObject rfl rfl) rfl
  have hversion : Json.Reads (Json.value? 126 "\"3.0.0\",\"paths\":\x7b\x7d\x7d".toList)
      (.string (String.ofList "3.0.0".toList)) ",\"paths\":\x7b\x7d\x7d".toList :=
    Json.reads_string rfl rfl
  have hmembers : Json.Reads
      (Json.members? 126 "\"openapi\":\"3.0.0\",\"paths\":\x7b\x7d\x7d".toList)
      [(String.ofList "openapi".toList, .string (String.ofList "3.0.0".toList)),
        (String.ofList "paths".toList, .map [])] [] :=
    Json.reads_member rfl rfl rfl hversion rfl hpaths
  exact Json.parse?_of_reads (Json.reads_object rfl rfl hmembers) rfl

theorem load_anchored :
    loadDocument anchored.format (fun _ => some emptyText) "api.json#" = .ok emptyDocument := by
  have hpath : filePathOf "api.json#" = .ok "api.json" := by rfl
  have hformat : DocumentFormat.auto.textFormat "api.json" = .json := by decide +kernel
  rw [loadDocument, hpath]
  show DocumentFormat.auto.decode "api.json" emptyText = _
  rw [DocumentFormat.decode, hformat, DocumentFormat.parse?, parse?_emptyText]
  rfl

/-- The document is loaded, and what it declares has no schema. -/
theorem noSchema_of_anchored : anchored.validate = .ok () ∧ ∃ registry,
    anchored.registry = .ok registry ∧
      loadDocument anchored.format (fun _ => some emptyText) "api.json#" = .ok emptyDocument ∧
        anchored.build Text.transliterate (fun _ => some emptyText) registry =
          .error (.noSchema "api.json##") := by
  refine ⟨rfl, _, rfl, load_anchored, ?_⟩
  have hread : Registry.readDocument (loadDocument anchored.format fun _ => some emptyText)
      (anchored.rules Text.transliterate) (Registry.ofOrigins ["api.json#"] "Api") "api.json#" =
        .error (.noSchema "api.json##") :=
    Registry.readDocument_eq_error load_anchored (by decide +kernel)
  have hreads : Registry.readDocuments (loadDocument anchored.format fun _ => some emptyText)
      (anchored.rules Text.transliterate) (Registry.ofOrigins ["api.json#"] "Api") =
        .error (.noSchema "api.json##") := by
    show List.foldlM _ _ ["api.json#"] = _
    rw [List.foldlM_cons]
    exact Traversal.bind_eq_error.2 (Or.inl hread)
  exact Traversal.bind_eq_error.2 (Or.inl (Traversal.bind_eq_error.2 (Or.inl hreads)))

end Config

end ApiModel
