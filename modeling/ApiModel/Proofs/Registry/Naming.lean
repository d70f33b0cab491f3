import ApiModel.Proofs.Reference.Paths
import ApiModel.Proofs.Registry.Coverage
import ApiModel.Proofs.Registry.Whitelist
import ApiModel.Text.Transliteration

/-!
# What classes are named after

The search for classes goes from the root of a document by steps (`Step`), and each step adds its keys to the
reference and makes a new name from the one before. So the name of a class depends on the name of the root
and on the steps to it, and the steps can be read off its reference (`Step.path_injective`).

Nothing but the spelling of texts decides a name besides. In particular no name is compared with those that are
given already: steps that are spelled alike make classes of one name in one schema (`names_of_build`,
`shared_name_of_kennel`).
-/

namespace ApiModel

/-- A step of the search for classes, from the root of a document to the node of a class. -/
inductive Step where
  | component (key : String)
  | definition (key : String)
  | property (key : String)
  /-- To the items of a property. -/
  | items
  /-- To an inline member of `allOf`. -/
  | member (index : Nat)
  | pattern (text : String)
  | additional
  deriving DecidableEq

namespace Step

/-- The keys of a step. -/
def keys : Step → List String
  | component key => ["components", "schemas", key]
  | definition key => ["definitions", key]
  | property key => ["properties", key]
  | items => ["items"]
  | member index => ["allOf", toString index]
  | pattern text => ["patternProperties", text]
  | additional => ["additionalProperties"]

/-- The name that a step makes from the one before. -/
def name (spell : Text.Spelling) (before : String) : Step → String
  | component key | definition key => key
  | property key => Identifier.ofClass spell before ++ Text.classify key
  | items => before ++ "Item"
  | member _ => before
  | pattern text => Identifier.ofClass spell before ++ extensionSuffix spell text
  | additional => Identifier.ofClass spell before ++ extensionSuffix spell additionalPattern

/-- The keys of all steps. -/
def path (steps : List Step) : List String := steps.flatMap keys

/-- The name that steps make from the name of a root. -/
def nameAfter (spell : Text.Spelling) (rootName : String) (steps : List Step) : String :=
  steps.foldl (name spell) rootName

/-- The first step is read off its keys, whatever comes behind them. -/
theorem keys_append_inj {step other : Step} {rest others : List String}
    (h : step.keys ++ rest = other.keys ++ others) : step = other ∧ rest = others := by
  cases step with
  | member index =>
    cases other with
    | member position =>
      simp only [keys, List.cons_append, List.nil_append, List.cons.injEq, true_and] at h
      obtain ⟨hindex, rfl⟩ := h
      exact ⟨congrArg member (Pointer.toString_injective hindex), rfl⟩
    | _ => simp [keys] at h
  | _ =>
    -- the first key tells the kind of the step
    cases other <;> simp_all [keys]

/-- The steps are read off their keys. -/
theorem path_injective : Function.Injective path := by
  intro steps others h
  induction steps generalizing others with
  | nil =>
    cases others with
    | nil => rfl
    | cons other others => cases other <;> cases h
  | cons step steps ih =>
    cases others with
    | nil => cases step <;> cases h
    | cons other others =>
      obtain ⟨rfl, hrest⟩ := keys_append_inj h
      rw [ih hrest]

end Step

/-! ## Seeds on the way -/

/-- A seed has the reference of some steps from one of the roots, and the name that they spell. -/
def Seed.Traced (spell : Text.Spelling) (origins : List String) (rootName : String) (seed : Seed) :
    Prop :=
  ∃ origin ∈ origins, ∃ steps,
    seed.site.reference = Reference.child (Reference.root origin) (Step.path steps) ∧
      seed.name = Step.nameAfter spell rootName steps

variable {spell : Text.Spelling} {origins : List String} {rootName : String}

namespace Seed.Traced

variable {seed inner : Seed}

/-- One step on. -/
theorem step (h : seed.Traced spell origins rootName) (step : Step) {node : Document}
    (hsite : inner.site = seed.site.under step.keys node) (hname : inner.name = step.name spell seed.name) :
    inner.Traced spell origins rootName := by
  obtain ⟨origin, horigin, steps, hreference, hspelled⟩ := h
  refine ⟨origin, horigin, steps ++ [step], ?_, ?_⟩
  · rw [Step.path, List.flatMap_append, List.flatMap_singleton, Reference.child_append, hsite]
    show Reference.child seed.site.reference step.keys = _
    rw [hreference]
    rfl
  · rw [hname, hspelled, Step.nameAfter, Step.nameAfter, List.foldl_append]
    rfl

theorem schemaSeed (h : seed.Traced spell origins rootName) (hinner : inner ∈ schemaSeeds seed.site) :
    inner.Traced spell origins rootName := by
  obtain ⟨⟨key, site⟩, hentry, rfl⟩ := List.mem_map.1 hinner
  rcases List.mem_append.1 hentry with hentry | hentry
  · obtain ⟨components, hcomponents, hentry⟩ := List.mem_flatMap.1 hentry
    obtain ⟨_, _, rfl⟩ := Option.map_eq_some_iff.1 (Option.mem_toList.1 hcomponents)
    obtain ⟨_, node, _, _, hsite⟩ := Site.exists_of_mem_entries hentry
    exact h.step (.component key) hsite rfl
  · obtain ⟨_, node, _, _, hsite⟩ := Site.exists_of_mem_entries hentry
    exact h.step (.definition key) hsite rfl

theorem propertySeed (h : seed.Traced spell origins rootName)
    (hinner : inner ∈ propertySeeds (Identifier.ofClass spell seed.name) seed.site) :
    inner.Traced spell origins rootName := by
  obtain ⟨⟨key, property⟩, hentry, hinner⟩ := List.mem_flatMap.1 hinner
  obtain ⟨_, node, _, _, hsite⟩ := Site.exists_of_mem_entries hentry
  have hproperty : Seed.Traced spell origins rootName
      ⟨Identifier.ofClass spell seed.name ++ Text.classify key, property⟩ :=
    h.step (.property key) hsite rfl
  rcases List.mem_cons.1 hinner with rfl | hinner
  · exact hproperty
  · obtain ⟨items, hitems, rfl⟩ := List.mem_map.1 hinner
    obtain ⟨_, _, rfl⟩ := Option.map_eq_some_iff.1 (Option.mem_toList.1 hitems)
    exact hproperty.step .items rfl rfl

theorem extensionSeed (h : seed.Traced spell origins rootName)
    (hinner : inner ∈ extensionSeeds spell (Identifier.ofClass spell seed.name) seed.site) :
    inner.Traced spell origins rootName := by
  obtain ⟨⟨pattern, site⟩, hslot, rfl⟩ := List.mem_map.1 hinner
  rcases List.mem_append.1 hslot with hslot | hslot
  · obtain ⟨_, node, _, _, hsite⟩ := Site.exists_of_mem_entries hslot
    exact h.step (.pattern pattern) hsite rfl
  · obtain ⟨node, _, heq⟩ := List.mem_map.1 hslot
    cases heq
    exact h.step .additional rfl rfl

theorem nestedSeed (h : seed.Traced spell origins rootName)
    (hinner : inner ∈ nestedSeeds spell (Identifier.ofClass spell seed.name) seed.site) :
    inner.Traced spell origins rootName := by
  -- inline `allOf` members are walked through, so this is an induction on the size of the node
  induction hsize : sizeOf seed.site.node using Nat.strongRecOn generalizing seed with
  | ind size ih =>
    subst hsize
    rcases mem_nestedSeeds_iff.1 hinner with hinner | ⟨member, hmember, _, hinner⟩ | hinner
    · exact h.propertySeed hinner
    · have hlt := Site.sizeOf_items_lt hmember
      obtain ⟨_, index, node, _, _, rfl⟩ := Site.exists_of_mem_items hmember
      have hstep : Seed.Traced spell origins rootName
          ⟨seed.name, seed.site.under ["allOf", toString index] node⟩ :=
        h.step (.member index) rfl rfl
      exact ih _ hlt hstep hinner rfl
    · exact h.extensionSeed hinner

end Seed.Traced

theorem Seed.inherited_traced : Seed.Inherited spell (Seed.Traced spell origins rootName) where
  schemas _ h _ hinner := h.schemaSeed hinner
  nested _ h _ hinner := h.nestedSeed hinner

/-! ## Names -/

namespace Registry

variable {paths : List String} {load : Loader} {rules : Rules} {read built : Registry}

/-- The search of a document begins with the name of the root. -/
theorem rootSeed_ofOrigins {origin : String} (horigin : origin ∈ origins) (root : Document) :
    ((ofOrigins origins rootName).setWhitelist paths).rootSeed origin root =
      { name := rootName, site := ⟨root, Reference.root origin⟩ } := by
  have hlisted : origin ∈ (ofOrigins origins rootName).origins := mem_origins_ofOrigins.2 horigin
  obtain ⟨listed, hmem, horigin⟩ := List.mem_map.1 hlisted
  cases hschema : ((ofOrigins origins rootName).setWhitelist paths).schema? origin with
  | none => exact absurd horigin (Keyed.get?_eq_none_iff.1 hschema listed hmem)
  | some schema =>
    obtain ⟨_, _, rfl⟩ := mem_ofOrigins (mem_of_schema? hschema).1
    rw [rootSeed, hschema]
    rfl

theorem found_traced
    (hread : ((ofOrigins origins rootName).setWhitelist paths).readDocuments load rules = .ok read) :
    read.Found rules.spell (Seed.Traced rules.spell origins rootName) := by
  refine (found_ofOrigins rules.spell _ origins rootName paths).readDocuments_of_seeds Seed.inherited_traced
    (fun origin horigin root _ => ?_) hread
  have hlisted : origin ∈ origins := mem_origins_ofOrigins.1 horigin
  rw [rootSeed_ofOrigins hlisted]
  exact ⟨origin, hlisted, [], rfl, rfl⟩

/-- The classes of a build are among those that were found, with their references and names. -/
theorem exists_read_of_class
    (hbuilt : ((ofOrigins origins rootName).setWhitelist paths).build load rules = .ok built) :
    built.Placed ∧ ∃ read,
      ((ofOrigins origins rootName).setWhitelist paths).readDocuments load rules = .ok read ∧
        ∀ schema ∈ built.schemas, ∀ c ∈ schema.classes, ∃ d,
          read.class? c.reference = some d ∧ d.declared = c.declared := by
  rw [build_eq] at hbuilt
  obtain ⟨assembled, hassembled, rfl⟩ := Traversal.map_eq_ok.1 hbuilt
  obtain ⟨read, resolved, hread, hresolved, rfl⟩ := assemble_eq_ok hassembled
  have hplaced := (found_of_readDocuments hread).placed
  have hlinked := (hplaced.placed_of_resolveClasses hresolved).placed_linkUnions
  refine ⟨hlinked.prune, read, hread, fun schema hschema c hc => ?_⟩
  have hclass := hlinked.prune.class?_eq_some_iff.2 ⟨schema, hschema, hc, rfl⟩
  have hsame := hplaced.alongside hresolved c.reference
  rw [(hlinked.class?_prune_iff.1 hclass).1, Option.map_some, eq_comm, Option.map_eq_some_iff] at hsame
  exact hsame

/-- In every schema of a build the classes have references of their own. The reference of a class is that
of the steps to it from a root, no other steps from there have it, and the class is named after them. -/
theorem names_of_build
    (hbuilt : ((ofOrigins origins rootName).setWhitelist paths).build load rules = .ok built) :
    ∀ schema ∈ built.schemas, (schema.classes.map Class.reference).Nodup ∧
      ∀ c ∈ schema.classes, ∃ origin ∈ origins, Reference.document origin = schema.origin ∧
        ∃ steps, c.reference = Reference.child (Reference.root origin) (Step.path steps) ∧
          (∀ others, c.reference = Reference.child (Reference.root origin) (Step.path others) →
            others = steps) ∧
          c.name = Identifier.ofClass rules.spell (Step.nameAfter rules.spell rootName steps) := by
  obtain ⟨hplaced, read, hread, hfrom⟩ := exists_read_of_class hbuilt
  intro schema hschema
  have hhoused := hplaced.housed schema hschema
  refine ⟨hhoused.nodup, fun c hc => ?_⟩
  obtain ⟨d, hd, hdeclared⟩ := hfrom schema hschema c hc
  obtain ⟨before, hbefore, hmem, href⟩ := mem_of_class? hd
  obtain ⟨seed, ⟨origin, horigin, steps, hreference, hspelled⟩, _, _, rfl⟩ :=
    ((found_traced hread).found before hbefore).classes d hmem
  have hpath : c.reference = Reference.child (Reference.root origin) (Step.path steps) :=
    href.symm.trans hreference
  have hname : c.name = Identifier.ofClass rules.spell seed.name := (congrArg Prod.fst hdeclared).symm
  refine ⟨origin, horigin, ?_, steps, hpath, fun others hothers => ?_, ?_⟩
  · rw [← hhoused.home c hc, hpath, Reference.document_child (Reference.mem_root origin),
      Reference.document_root]
  · exact Step.path_injective (Reference.child_injective _ (hothers.symm.trans hpath))
  · rw [hname, hspelled]

/-! ## A kennel -/

namespace Kennel

/-- A dog with an owner, and owners of dogs besides. -/
def dogs : Document :=
  .map [
    ("openapi", .string "3.0.0"),
    ("definitions", .map [
      ("Dog", .map [("properties", .map [("owner", .map [("properties", .map [])])])]),
      ("DogOwner", .map [("properties", .map [])])])]

/-- Serves the dogs under any name. -/
def loader : Loader := fun _ => .ok dogs

/-- The registry before the dogs are read. -/
def start : Registry := (ofOrigins ["kennel"] "Api").setWhitelist []

/-- What can be computed of the kennel: the references and names of its classes. -/
theorem exists_kennel :
    ∃ built, start.build loader (Rules.standard Text.transliterate "DateTime" {}) = .ok built ∧
      ∃ schema ∈ built.schemas, (schema.classes.map fun c => (c.reference, c.name)) =
        [("kennel#/definitions/Dog", "Dog"), ("kennel#/definitions/Dog/properties/owner", "DogOwner"),
          ("kennel#/definitions/DogOwner", "DogOwner")] := by
  have hends :
      (start.buildWithin 3 loader (Rules.standard Text.transliterate "DateTime" {})).toOption.any fun built =>
        built.schemas.any fun schema => (schema.classes.map fun c => (c.reference, c.name)) =
          [("kennel#/definitions/Dog", "Dog"), ("kennel#/definitions/Dog/properties/owner", "DogOwner"),
            ("kennel#/definitions/DogOwner", "DogOwner")] := by
    decide +kernel
  obtain ⟨built, hbuilt, hschemas⟩ := exists_build_of_any hends
  obtain ⟨schema, hschema, hnames⟩ := List.any_eq_true.1 hschemas
  exact ⟨built, hbuilt, schema, hschema, of_decide_eq_true hnames⟩

end Kennel

open Kennel in
/-- The owner of a dog is named after the dog and the property that it stands under. -/
theorem names_of_build_kennel :
    ∃ built, start.build loader (Rules.standard Text.transliterate "DateTime" {}) = .ok built ∧
      ∃ schema ∈ built.schemas, ∃ c ∈ schema.classes,
        c.reference = "kennel#/definitions/Dog/properties/owner" ∧
          c.name = Identifier.ofClass Text.transliterate
            (Identifier.ofClass Text.transliterate "Dog" ++ Text.classify "owner") := by
  obtain ⟨built, hbuilt, schema, hschema, hclasses⟩ := exists_kennel
  have howner : ("kennel#/definitions/Dog/properties/owner", "DogOwner") ∈
      schema.classes.map fun c => (c.reference, c.name) := by
    rw [hclasses]
    decide
  obtain ⟨c, hc, hboth⟩ := List.mem_map.1 howner
  have href : c.reference = "kennel#/definitions/Dog/properties/owner" := congrArg Prod.fst hboth
  obtain ⟨-, hnames⟩ := names_of_build hbuilt schema hschema
  obtain ⟨origin, horigin, -, steps, -, hunique, hname⟩ := hnames c hc
  rw [List.mem_singleton.1 horigin] at hunique
  have hsteps : [.definition "Dog", .property "owner"] = steps := by
    apply hunique
    rw [href]
    decide +kernel
  subst hsteps
  exact ⟨built, hbuilt, schema, hschema, c, hc, href, hname⟩

open Kennel in
/-- Two classes of one schema have one name: the owner that stands inside the dog, and the schema that is
called like it. -/
theorem shared_name_of_kennel :
    ∃ built, start.build loader (Rules.standard Text.transliterate "DateTime" {}) = .ok built ∧
      ∃ schema ∈ built.schemas, (schema.classes.map Class.reference).Nodup ∧
        ¬ (schema.classes.map Class.name).Nodup := by
  obtain ⟨built, hbuilt, schema, hschema, hclasses⟩ := exists_kennel
  have hreferences := congrArg (List.map Prod.fst) hclasses
  have hnames := congrArg (List.map Prod.snd) hclasses
  rw [List.map_map] at hreferences hnames
  refine ⟨built, hbuilt, schema, hschema, ?_, ?_⟩
  · show (schema.classes.map (Prod.fst ∘ fun c => (c.reference, c.name))).Nodup
    rw [hreferences]
    decide
  · show ¬ (schema.classes.map (Prod.snd ∘ fun c => (c.reference, c.name))).Nodup
    rw [hnames]
    decide

end Registry

end ApiModel
