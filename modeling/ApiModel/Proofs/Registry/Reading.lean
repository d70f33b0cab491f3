import ApiModel.Proofs.Class.Discovery
import ApiModel.Proofs.Class.Rule
import ApiModel.Proofs.Traversal
import ApiModel.Registry.Build

/-!
# What reading documents leaves

After the documents have been read, every class and every operation is one that was found at a seed of
the document whose schema it stands in, the classes stand where their references say, and each schema
holds the root that was loaded for it. For classes and operations this takes a predicate on seeds that
holds of the roots and is handed on from every seed to those found in it (`Seed.Inherited`).
-/

namespace ApiModel

/-- All that a schema holds was found at seeds of its document. -/
structure Schema.Found (spell : Text.Spelling) (S : Seed → Prop) (schema : Schema) : Prop where
  classes : ∀ c ∈ schema.classes, ∃ seed, S seed ∧ seed.site.origin = schema.origin ∧
    ClassRule.objectSchema.supports seed.site.node ∧
      c = classOf (Identifier.ofClass spell seed.name) seed.site
  operations : ∀ operation ∈ schema.operations, ∃ seed, S seed ∧
    seed.site.origin = schema.origin ∧ ClassRule.documentRoot.supports seed.site.node ∧
      operation ∈ operationsOf seed.site

/-- A placed registry whose schemas hold nothing but what was found at seeds. -/
structure Registry.Found (spell : Text.Spelling) (S : Seed → Prop) (registry : Registry) : Prop where
  placed : registry.Placed
  found : ∀ schema ∈ registry.schemas, schema.Found spell S

variable {spell : Text.Spelling}

/-- A schema without its classes and operations. -/
def Schema.blank (schema : Schema) : Schema := { schema with classes := [], operations := [] }

theorem Schema.blank_addClass (c : Class) (schema : Schema) :
    (schema.addClass c).blank = schema.blank := by
  unfold addClass
  split <;> rfl

theorem Schema.Found.addClass {S : Seed → Prop} {schema : Schema} (h : schema.Found spell S) {seed : Seed}
    (hseed : S seed) (horigin : seed.site.origin = schema.origin)
    (hsupports : ClassRule.objectSchema.supports seed.site.node) :
    (schema.addClass (classOf (Identifier.ofClass spell seed.name) seed.site)).Found spell S := by
  unfold Schema.addClass
  split
  · exact h
  · refine ⟨fun c hc => ?_, h.operations⟩
    rcases List.mem_append.1 hc with hc | hc
    · exact h.classes c hc
    · exact ⟨seed, hseed, horigin, hsupports, List.mem_singleton.1 hc⟩

/-- What is handed on from seed to seed holds of all seeds that a rule gives. -/
theorem Seed.Inherited.entered {S : Seed → Prop} (hS : Seed.Inherited spell S) {rule : ClassRule}
    {registry after : Registry} {seed : Seed} {seeds : List Seed} (hseed : S seed)
    (h : ClassRule.Entered spell registry seed rule after seeds) : ∀ inner ∈ seeds, S inner := by
  cases h with
  | noPaths | operations => exact hS.schemas seed hseed
  | known => exact fun inner hinner => nomatch hinner
  | added => exact hS.nested seed hseed

/-- A registry without classes and operations. -/
def Registry.blank (registry : Registry) : Registry :=
  { registry with schemas := registry.schemas.map Schema.blank }

namespace Registry

/-! ## One search -/

theorem blank_modifySchema {registry : Registry} {origin : String} {f : Schema → Schema}
    (hf : ∀ schema, (f schema).blank = schema.blank) :
    (registry.modifySchema origin f).blank = registry.blank := by
  unfold blank modifySchema
  rw [Keyed.map_modify hf]

theorem blank_of_entered {rule : ClassRule} {registry after : Registry} {seed : Seed}
    {seeds : List Seed} (h : ClassRule.Entered spell registry seed rule after seeds) :
    after.blank = registry.blank := by
  cases h with
  | noPaths | known => rfl
  | operations => exact blank_modifySchema fun _ => rfl
  | added => exact blank_modifySchema (Schema.blank_addClass _)

/-- A search adds classes and operations and changes nothing else. -/
theorem blank_discover (spell : Text.Spelling) (rules : List ClassRule) (registry : Registry) (seed : Seed) :
    (discover spell rules registry seed).registry.blank = registry.blank :=
  discover_preserves (P := fun after => after.blank = registry.blank) (S := fun _ => True)
    (fun _ _ _ _ _ _ h _ hentered => ⟨(blank_of_entered hentered).trans h, fun _ _ => trivial⟩)
    rfl trivial

namespace Found

variable {S : Seed → Prop} {registry : Registry}

/-- A registry stays found when its schemas are changed one by one, each into one that is placed and
found too. -/
theorem modifySchema (h : registry.Found spell S) {origin : String} {f : Schema → Schema}
    (hf : ∀ schema, schema.origin = origin → schema.Housed → schema.Found spell S →
      (f schema).origin = schema.origin ∧ (f schema).Housed ∧ (f schema).Found spell S) :
    (registry.modifySchema origin f).Found spell S := by
  constructor
  · refine h.placed.modifySchema fun schema hschema horigin => ?_
    obtain ⟨hsame, hhoused, _⟩ :=
      hf schema horigin (h.placed.housed schema hschema) (h.found schema hschema)
    exact ⟨hsame, hhoused⟩
  · intro schema hschema
    rw [h.placed.distinct.modifySchema_eq] at hschema
    obtain ⟨before, hbefore, rfl⟩ := List.mem_map.1 hschema
    have hfound := h.found before hbefore
    split
    · next horigin => exact (hf before horigin (h.placed.housed before hbefore) hfound).2.2
    · exact hfound

theorem entered (h : registry.Found spell S) {rule : ClassRule} {after : Registry} {seed : Seed}
    {seeds : List Seed} (hseed : S seed) (hsupports : rule.supports seed.site.node)
    (hentered : ClassRule.Entered spell registry seed rule after seeds) : after.Found spell S := by
  -- a step leaves the registry or changes the schema of the seed's document
  cases hentered with
  | noPaths | known => exact h
  | operations =>
    refine h.modifySchema fun schema horigin hhoused hfound =>
      ⟨rfl, ⟨hhoused.nodup, hhoused.home⟩, ⟨hfound.classes, fun operation hmem => ?_⟩⟩
    rcases List.mem_append.1 hmem with hmem | hmem
    · exact hfound.operations operation hmem
    · exact ⟨seed, hseed, horigin.symm, hsupports, hmem⟩
  | added =>
    refine h.modifySchema fun schema horigin hhoused hfound => ⟨?_, ?_, ?_⟩
    · show (schema.addClass _).blank.origin = schema.blank.origin
      rw [Schema.blank_addClass]
    · exact hhoused.addClass horigin.symm
    · exact hfound.addClass hseed horigin.symm hsupports

theorem discover (h : registry.Found spell S) (hS : Seed.Inherited spell S) (rules : List ClassRule)
    {seed : Seed} (hseed : S seed) :
    (ApiModel.discover spell rules registry seed).registry.Found spell S := by
  refine discover_preserves (fun rule before after seed seeds hsupports h hseed hentered => ?_)
    h hseed
  exact ⟨h.entered hseed hsupports hentered, hS.entered hseed hentered⟩

end Found

/-! ## One document -/

variable {load : Loader} {rules : Rules} {registry read : Registry}

/-- The seed that the search of a document begins at. -/
def rootSeed (registry : Registry) (origin : String) (root : Document) : Seed where
  name := ((registry.schema? origin).map Schema.rootName).getD ""
  site := ⟨root, Reference.root origin⟩

/-- What is read of one document: its root, and what a search from there finds that does not fail. -/
theorem search_of_readDocument {origin : String}
    (h : readDocument load rules registry origin = .ok read) :
    ∃ root, load origin = .ok root ∧
      (rules.discover registry (registry.rootSeed origin root)).failure = none ∧
        read = (rules.discover registry (registry.rootSeed origin root)).registry.modifySchema origin
          fun schema => { schema with parsed := some root } := by
  obtain ⟨root, hload, h⟩ := Traversal.bind_eq_ok.1 h
  dsimp only at h
  split at h
  · cases h
  · next hfailure =>
    cases h
    exact ⟨root, hload, hfailure, rfl⟩

theorem readDocument_eq_ok {origin : String}
    (h : readDocument load rules registry origin = .ok read) :
    ∃ root name reached, load origin = .ok root ∧
      rules.discover registry { name, site := ⟨root, Reference.root origin⟩ } = reached ∧
        reached.failure = none ∧ read = reached.registry.modifySchema origin fun schema =>
          { schema with parsed := some root } := by
  obtain ⟨root, hload, hfailure, hread⟩ := search_of_readDocument h
  exact ⟨root, _, _, hload, rfl, hfailure, hread⟩

/-- The origins of the schemas and the names of their roots. -/
def labels (registry : Registry) : List (String × String) :=
  registry.schemas.map fun schema => (schema.origin, schema.rootName)

theorem origins_eq_labels (registry : Registry) : registry.origins = registry.labels.map Prod.fst := by
  unfold origins labels
  rw [List.map_map]
  rfl

/-- The name that a search begins with depends on the labels alone. -/
theorem rootSeed_congr {a b : Registry} (h : a.labels = b.labels) (origin : String)
    (root : Document) : a.rootSeed origin root = b.rootSeed origin root := by
  have hname : ∀ registry : Registry, (registry.schema? origin).map Schema.rootName =
      (Keyed.get? Prod.fst origin registry.labels).map Prod.snd := by
    intro registry
    have hget : Keyed.get? Prod.fst origin registry.labels =
        (registry.schema? origin).map fun schema => (schema.origin, schema.rootName) :=
      Keyed.get?_map (fun _ => rfl) origin registry.schemas
    rw [hget, Option.map_map]
    rfl
  unfold rootSeed
  rw [hname, hname, h]

/-- Reading a document leaves all that is neither found in documents nor a document. -/
theorem map_readDocument {β : Type} {g : Schema → β} (hblank : ∀ schema, g schema.blank = g schema)
    (hparsed : ∀ (schema : Schema) root, g { schema with parsed := some root } = g schema)
    {origin : String} (h : readDocument load rules registry origin = .ok read) :
    read.schemas.map g = registry.schemas.map g := by
  obtain ⟨root, _, _, rfl⟩ := search_of_readDocument h
  have hmap : ∀ registry : Registry, registry.blank.schemas.map g = registry.schemas.map g := by
    intro registry
    unfold blank
    rw [List.map_map]
    exact List.map_congr_left fun schema _ => hblank schema
  have hdiscover := blank_discover rules.spell rules.classes registry (registry.rootSeed origin root)
  unfold modifySchema
  dsimp only
  rw [Keyed.map_modify fun schema => hparsed schema root, ← hmap, Rules.discover, hdiscover, hmap]

theorem labels_readDocument {origin : String}
    (h : readDocument load rules registry origin = .ok read) : read.labels = registry.labels :=
  map_readDocument (fun _ => rfl) (fun _ _ => rfl) h

/-- What is found in a document was found at seeds that its root hands something on to. -/
theorem Found.readDocument_of_seed {S : Seed → Prop} (h : registry.Found rules.spell S)
    (hS : Seed.Inherited rules.spell S) {origin : String}
    (hroot : ∀ root, load origin = .ok root → S (registry.rootSeed origin root))
    (hread : Registry.readDocument load rules registry origin = .ok read) :
    read.Found rules.spell S := by
  obtain ⟨root, hload, _, rfl⟩ := search_of_readDocument hread
  refine (h.discover hS rules.classes (hroot root hload)).modifySchema ?_
  exact fun schema _ hhoused hfound =>
    ⟨rfl, ⟨hhoused.nodup, hhoused.home⟩, ⟨hfound.classes, hfound.operations⟩⟩

/-- A predicate holds of the seeds that the search of a document begins at. -/
def RootSeeds (load : Loader) (S : Seed → Prop) (origin : String) : Prop :=
  ∀ root name, load origin = .ok root → S { name, site := ⟨root, Reference.root origin⟩ }

theorem Found.readDocument {S : Seed → Prop} (h : registry.Found rules.spell S)
    (hS : Seed.Inherited rules.spell S) {origin : String} (hroot : RootSeeds load S origin)
    (hread : Registry.readDocument load rules registry origin = .ok read) :
    read.Found rules.spell S :=
  h.readDocument_of_seed hS (fun root hload => hroot root _ hload) hread

/-! ## All documents -/

theorem Found.readDocuments_of_seeds {S : Seed → Prop} (h : registry.Found rules.spell S)
    (hS : Seed.Inherited rules.spell S)
    (hroot : ∀ origin ∈ registry.origins, ∀ root, load origin = .ok root →
      S (registry.rootSeed origin root))
    (hread : registry.readDocuments load rules = .ok read) : read.Found rules.spell S := by
  refine (Traversal.foldlM_preserves
    (P := fun after => after.Found rules.spell S ∧ after.labels = registry.labels)
    (fun before origin after horigin hbefore hstep => ?_) ⟨h, rfl⟩ hread).1
  obtain ⟨hfound, hlabels⟩ := hbefore
  refine ⟨hfound.readDocument_of_seed hS (fun root hload => ?_) hstep,
    (labels_readDocument hstep).trans hlabels⟩
  rw [rootSeed_congr hlabels]
  exact hroot origin horigin root hload

theorem Found.readDocuments {S : Seed → Prop} (h : registry.Found rules.spell S)
    (hS : Seed.Inherited rules.spell S) (hroot : ∀ origin ∈ registry.origins, RootSeeds load S origin)
    (hread : registry.readDocuments load rules = .ok read) : read.Found rules.spell S :=
  h.readDocuments_of_seeds hS (fun origin horigin root hload => hroot origin horigin root _ hload) hread

/-- Whatever the seeds are, a registry is placed after all documents have been read. -/
theorem Found.readDocuments_true (h : registry.Found rules.spell fun _ => True)
    (hread : registry.readDocuments load rules = .ok read) : read.Found rules.spell fun _ => True :=
  h.readDocuments Seed.inherited_true (fun _ _ _ _ _ => trivial) hread

end Registry

end ApiModel
