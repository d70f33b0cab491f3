import ApiModel.Proofs.Reference
import ApiModel.Proofs.Registry.Reading

/-!
# Documents are read by themselves

Where no origin has a `#` in it, what is found in a document stands in the schema of that document, and
whether it is new is seen in that schema alone. So each document can be read in a registry that holds
its schema and no other (`Schema.read`), and reading all of them is one traversal of the schemas
(`Placed.readDocuments`).
-/

namespace ApiModel

/-- What a rule does to the one schema that it changes, and the seeds it gives. -/
def ClassRule.enterOwn (spell : Text.Spelling) (schema : Schema) (seed : Seed) :
    ClassRule → Schema × List Seed
  | documentRoot =>
    if (seed.site.node.entriesAt? "paths").isNone then (schema, schemaSeeds seed.site)
    else ((operationsOf seed.site).foldl Schema.addOperation schema, schemaSeeds seed.site)
  | objectSchema =>
    if schema.hasClass seed.site.reference then (schema, [])
    else
      let c := classOf (Identifier.ofClass spell seed.name) seed.site
      (schema.addClass c, nestedSeeds spell c.name seed.site)

/-- A registry with one of its schemas between the others. -/
def Registry.around (registry : Registry) (done todo : List Schema) (schema : Schema) : Registry :=
  { registry with schemas := done ++ schema :: todo }

/-- A registry with one schema. -/
def Registry.alone (schema : Schema) : Registry := around {} [] [] schema

/-- A schema with its document read, all other schemas left out. -/
def Schema.read (load : Loader) (rules : Rules) (schema : Schema) : Except Error Schema :=
  (Registry.readDocument load rules (.alone schema) schema.origin).map fun registry =>
    registry.schemas.headD schema

namespace Registry

/-- Schemas that hold the classes of other documents. -/
def Elsewhere (origin : String) (schemas : List Schema) : Prop :=
  ∀ schema ∈ schemas, schema.origin ≠ origin ∧ schema.Housed

theorem elsewhere_nil (origin : String) : Elsewhere origin [] :=
  fun _ hmem => absurd hmem List.not_mem_nil

/-- In a placed registry the other schemas are elsewhere. -/
theorem Placed.elsewhere {registry : Registry} {done todo : List Schema} {schema : Schema}
    (h : (registry.around done todo schema).Placed) :
    Elsewhere schema.origin done ∧ Elsewhere schema.origin todo := by
  have hnodup : (done.map Schema.origin ++ schema.origin :: todo.map Schema.origin).Nodup := by
    have horigins := h.nodup
    rw [around, List.map_append, List.map_cons] at horigins
    exact horigins
  obtain ⟨_, hlast, hdisjoint⟩ := List.nodup_append.1 hnodup
  constructor
  · intro other hother
    refine ⟨hdisjoint _ (List.mem_map_of_mem hother) _ List.mem_cons_self, ?_⟩
    exact h.housed other (List.mem_append_left _ hother)
  · intro other hother
    have hmem := List.mem_cons_of_mem schema hother
    refine ⟨fun heq => (List.nodup_cons.1 hlast).1 ?_, ?_⟩
    · exact heq ▸ List.mem_map_of_mem hother
    · exact h.housed other (List.mem_append_right _ hmem)

section

variable {spell : Text.Spelling} {registry : Registry} {done todo : List Schema} {schema : Schema}
  {origin : String}
  (hdone : Elsewhere origin done) (horigin : schema.origin = origin)
include hdone horigin

theorem schema?_around : (registry.around done todo schema).schema? origin = some schema :=
  Keyed.get?_append_cons (fun other hother => (hdone other hother).1) horigin

theorem modifySchema_around (f : Schema → Schema) :
    (registry.around done todo schema).modifySchema origin f =
      registry.around done todo (f schema) := by
  unfold modifySchema around
  dsimp only
  rw [Keyed.modify_append_cons (fun other hother => (hdone other hother).1) horigin]

theorem hasClass_around (htodo : Elsewhere origin todo) {reference : String}
    (hdocument : Reference.document reference = origin) :
    (registry.around done todo schema).hasClass reference = schema.hasClass reference := by
  -- a class stands in the schema of the document that its reference begins with
  have hnot : ∀ other ∈ done ++ todo, ∀ c ∈ other.classes, c.reference ≠ reference := by
    intro other hother c hc href
    have helse := (List.mem_append.1 hother).elim (hdone other) (htodo other)
    exact helse.1 (by rw [← helse.2.home c hc, href, hdocument])
  rw [Bool.eq_iff_iff, hasClass_iff, Schema.hasClass_iff]
  constructor
  · rintro ⟨other, hother, c, hc, href⟩
    rcases List.mem_append.1 hother with hother | hother
    · exact absurd href (hnot other (List.mem_append_left _ hother) c hc)
    · rcases List.mem_cons.1 hother with rfl | hother
      · exact ⟨c, hc, href⟩
      · exact absurd href (hnot other (List.mem_append_right _ hother) c hc)
  · rintro ⟨c, hc, href⟩
    exact ⟨schema, List.mem_append_right _ List.mem_cons_self, c, hc, href⟩

/-- A rule changes the schema of its document, as that schema alone tells it to. -/
theorem enter_around (htodo : Elsewhere origin todo) {seed : Seed}
    (hseed : Reference.document seed.site.reference = origin) (rule : ClassRule) :
    rule.enter spell (registry.around done todo schema) seed =
      .ok (registry.around done todo (rule.enterOwn spell schema seed).1,
        (rule.enterOwn spell schema seed).2) := by
  have hschema : (registry.around done todo schema).schemaOf? seed.site.reference =
      some schema := by
    rw [schemaOf?, hseed]
    exact schema?_around hdone horigin
  cases rule with
  | documentRoot =>
    simp only [ClassRule.enter, ClassRule.enterRoot, ClassRule.enterOwn, hschema, horigin]
    split
    · rfl
    · rw [modifySchema_around hdone horigin]
  | objectSchema =>
    simp only [ClassRule.enter, ClassRule.enterSchema, ClassRule.enterOwn, hschema, horigin,
      hasClass_around hdone horigin htodo hseed]
    split
    · rfl
    · rw [modifySchema_around hdone horigin]

end

theorem origin_enterOwn (spell : Text.Spelling) (rule : ClassRule) (schema : Schema) (seed : Seed) :
    (rule.enterOwn spell schema seed).1.origin = schema.origin := by
  cases rule with
  | documentRoot =>
    simp only [ClassRule.enterOwn]
    split
    · rfl
    · rw [ClassRule.foldl_addOperation]
  | objectSchema =>
    simp only [ClassRule.enterOwn]
    split
    · rfl
    · show (schema.addClass _).blank.origin = schema.blank.origin
      rw [Schema.blank_addClass]

theorem seeds_enterOwn {spell : Text.Spelling} {S : Seed → Prop} (hS : Seed.Inherited spell S)
    {seed : Seed} (hseed : S seed) (rule : ClassRule) (schema : Schema) :
    ∀ inner ∈ (rule.enterOwn spell schema seed).2, S inner := by
  cases rule with
  | documentRoot =>
    simp only [ClassRule.enterOwn]
    split <;> exact hS.schemas seed hseed
  | objectSchema =>
    simp only [ClassRule.enterOwn]
    split
    · exact fun inner hinner => absurd hinner List.not_mem_nil
    · exact hS.nested seed hseed

/-! ## One document -/

/-- Sites of one document. -/
def sitesAt (origin : String) (site : Site) : Prop :=
  ∃ pointer, Reference.IsAt origin pointer site.reference

theorem inherited_sitesAt (origin : String) : Site.Inherited (sitesAt origin) where
  value := fun ⟨_, hat⟩ _ => ⟨_, hat.child _⟩
  item := by
    rintro site item key ⟨_, hat⟩ hitem
    obtain ⟨index, _, rfl⟩ := List.mem_mapIdx.1 hitem
    exact ⟨_, hat.child _⟩
  entry := by
    rintro site entry key ⟨_, hat⟩ hentry
    obtain ⟨pair, _, rfl⟩ := List.mem_map.1 hentry
    exact ⟨_, hat.child _⟩

variable {spell : Text.Spelling} {registry : Registry} {load : Loader} {rules : Rules}

/-- Searches in a registry and in one schema of it come equally far. -/
theorem discover_around {done todo : List Schema} {schema : Schema}
    (hdone : Elsewhere schema.origin done) (htodo : Elsewhere schema.origin todo) {seed : Seed}
    (hseed : sitesAt schema.origin seed.site) (rules : List ClassRule) :
    Discovery.Related
      (fun big small => ∃ own, own.origin = schema.origin ∧
        big = registry.around done todo own ∧ small = alone own)
      (discover spell rules (registry.around done todo schema) seed)
      (discover spell rules (alone schema) seed) := by
  have hinherited := Seed.inherited_of_site spell (inherited_sitesAt schema.origin)
  refine discover_related
    (S := fun seed => sitesAt schema.origin seed.site ∨ seed.site.node = .map [])
    (fun rule big small seed hsupports hrelated hseed => ?_) ⟨schema, rfl, rfl, rfl⟩ (Or.inl hseed)
  obtain ⟨own, horigin, rfl, rfl⟩ := hrelated
  obtain ⟨pointer, hat⟩ := Site.of_supports hseed hsupports
  have hbig : rule.enter spell (registry.around done todo own) seed = _ :=
    enter_around hdone horigin htodo hat.document rule
  -- a schema alone is a schema between no others
  have hsmall : rule.enter spell (alone own) seed = _ :=
    enter_around (elsewhere_nil schema.origin) horigin (elsewhere_nil schema.origin)
      hat.document rule
  refine Or.inr ⟨_, _, _, hbig, hsmall, ⟨_, ?_, rfl, rfl⟩, ?_⟩
  · rw [origin_enterOwn, horigin]
  · exact seeds_enterOwn hinherited hseed rule own

/-- Reading a document is a search from its root, after which the root is kept. -/
theorem readDocument_eq {schema : Schema} {origin : String} {root : Document}
    (hload : load origin = .ok root) (hschema : registry.schema? origin = some schema)
    {reached : Discovery}
    (hreached : discover rules.spell rules.classes registry
      ⟨schema.rootName, root, Reference.root origin⟩ = reached) :
    Registry.readDocument load rules registry origin =
      reached.failure.elim
        (.ok (reached.registry.modifySchema origin fun schema => { schema with parsed := some root }))
        .error := by
  unfold Registry.readDocument
  rw [hload, hschema]
  dsimp only [bind, Except.bind, Option.map_some, Option.getD_some, Rules.discover]
  rw [hreached]
  cases reached.failure with
  | none => rfl
  | some error => rfl

/-- Reading one document changes its schema, as reading it by itself does. -/
theorem Placed.readDocument {done todo : List Schema} {schema : Schema}
    (h : (registry.around done todo schema).Placed) (hplain : '#' ∉ schema.origin.toList) :
    Registry.readDocument load rules (registry.around done todo schema) schema.origin =
      (schema.read load rules).map (registry.around done todo) := by
  obtain ⟨hdone, htodo⟩ := h.elsewhere
  have hschema : (registry.around done todo schema).schema? schema.origin = some schema :=
    schema?_around hdone rfl
  have halone : (alone schema).schema? schema.origin = some schema :=
    schema?_around (elsewhere_nil schema.origin) rfl
  unfold Schema.read
  cases hload : load schema.origin with
  | error error =>
    unfold Registry.readDocument
    rw [hload]
    rfl
  | ok root =>
    let seed : Seed := ⟨schema.rootName, root, Reference.root schema.origin⟩
    have hroot : sitesAt schema.origin seed.site := ⟨[], Reference.isAt_root hplain⟩
    obtain ⟨⟨own, horigin, hbig, hsmall⟩, hfailure⟩ :=
      discover_around hdone htodo hroot rules.classes
    have halone' : ∀ f, (alone own).modifySchema schema.origin f = alone (f own) :=
      modifySchema_around (elsewhere_nil schema.origin) horigin
    rw [readDocument_eq hload hschema rfl, readDocument_eq hload halone rfl, hfailure, hbig, hsmall,
      halone', modifySchema_around hdone horigin]
    cases (discover rules.spell rules.classes (alone schema) seed).failure with
    | none => rfl
    | some error => rfl

/-- A schema that has been read holds the root that was loaded for it. -/
theorem parsed_of_read {schema own : Schema} (h : schema.read load rules = .ok own) :
    own.origin = schema.origin ∧
      ∃ root, load schema.origin = .ok root ∧ own.parsed = some root := by
  obtain ⟨after, hafter, rfl⟩ := Traversal.map_eq_ok.1 h
  obtain ⟨root, name, _, hload, rfl, _, rfl⟩ := readDocument_eq_ok hafter
  have hblank := blank_discover rules.spell rules.classes (alone schema)
    { name, site := ⟨root, Reference.root schema.origin⟩ }
  -- the search leaves one schema, of the same origin
  have hschemas := congrArg Registry.schemas hblank
  obtain ⟨searched, hsearched, hsame⟩ := List.map_eq_singleton_iff.1 hschemas
  have horigin : searched.origin = schema.origin := by
    show searched.blank.origin = schema.blank.origin
    rw [hsame]
  unfold Rules.discover modifySchema
  rw [hsearched, Keyed.modify, if_pos horigin]
  exact ⟨horigin, root, hload, rfl⟩

/-! ## All documents -/

/-- Reading all documents reads each of them by itself. -/
theorem Found.readDocuments_eq (h : registry.Found rules.spell fun _ => True)
    (hplain : ∀ schema ∈ registry.schemas, '#' ∉ schema.origin.toList) :
    registry.readDocuments load rules =
      (registry.schemas.mapM (Schema.read load rules)).map fun schemas =>
        { registry with schemas } := by
  have hstep : ∀ done schema todo, schema ∈ registry.schemas →
      Found rules.spell (fun _ => True) (registry.around done todo schema) →
      Registry.readDocument load rules (registry.around done todo schema) schema.origin =
        (schema.read load rules).map (registry.around done todo) :=
    fun done schema todo hmem hfound => hfound.placed.readDocument (hplain schema hmem)
  -- the loop over the origins changes one schema after another
  refine Traversal.foldlM_eq_mapM (fun schemas => { registry with schemas })
    (Found rules.spell fun _ => True) registry.schemas [] hstep ?_ h
  intro done schema todo own hmem hfound hread
  refine hfound.readDocument Seed.inherited_true (fun _ _ _ => trivial)
    ((hstep done schema todo hmem hfound).trans ?_)
  rw [hread]
  rfl

end Registry

end ApiModel
