import ApiModel.Proofs.Storage.Filing

/-!
# Passes over filed registries

Every pass does to a filed registry by key what it does to the registry by value, and an error finds both
at the same point (`Storage.Outcome.Matches`). Pass 2 is the one that could misfile a class: it takes a
copy of whatever class a reference finds, on any shelf, and writes it back under the reference on the
shelf at hand. The copy has the reference that it was found by, and members change nothing of that.
-/

namespace ApiModel

/-! ## Finding classes -/

/-- The outcome in storage of a search. -/
def Discovery.filed (reached : Discovery) : Storage.Outcome where
  storage := reached.registry.filed
  failure := reached.failure

namespace Storage

theorem Outcome.each_filed {α : Type} {step : Storage → α → Outcome}
    {step' : Registry → α → Discovery} {xs : List α}
    (hstep : ∀ x ∈ xs, ∀ registry : Registry, step registry.filed x = (step' registry x).filed)
    (registry : Registry) : each step registry.filed xs = (Discovery.each step' registry xs).filed := by
  induction xs generalizing registry with
  | nil => rfl
  | cons x xs ih =>
    rw [each, Discovery.each, hstep x List.mem_cons_self, andThen]
    dsimp only [Discovery.filed]
    cases hfail : (step' registry x).failure with
    | none => exact ih (fun y hy => hstep y (List.mem_cons_of_mem _ hy)) _
    | some error => simp [hfail]

end Storage

namespace Registry

variable (registry : Registry) (spell : Text.Spelling)

theorem filed_enter (rule : ClassRule) (seed : Seed) :
    registry.filed.enter spell seed rule =
      (rule.enter spell registry seed).map fun entered => (entered.1.filed, entered.2) := by
  cases rule with
  | documentRoot =>
    simp only [Storage.enter, Storage.enterRoot, ClassRule.enter, ClassRule.enterRoot,
      shelfOf?_filed]
    split
    · rfl
    · cases hschema : registry.schemaOf? seed.site.reference with
      | none => rfl
      | some schema =>
        have horigin := (mem_of_schema? hschema).2
        have hkept : ∀ schema : Schema,
            ((operationsOf seed.site).foldl Schema.addOperation schema).origin = schema.origin := by
          intro schema
          rw [ClassRule.foldl_addOperation]
        have hrecord : (registry.modifySchema schema.origin fun schema =>
              (operationsOf seed.site).foldl Schema.addOperation schema).filed =
            registry.filed.changeShelf (Reference.document seed.site.reference) fun shelf =>
              (operationsOf seed.site).foldl Shelf.addOperation shelf := by
          rw [horigin]
          exact registry.filed_modifySchema hkept fun schema => schema.filed_foldl_addOperation _
        rw [Option.map_some]
        dsimp only [Except.map]
        rw [hrecord]
  | objectSchema =>
    simp only [Storage.enter, Storage.enterSchema, ClassRule.enter, ClassRule.enterSchema,
      hasClass_filed, shelfOf?_filed]
    split
    · rfl
    · cases hschema : registry.schemaOf? seed.site.reference with
      | none => rfl
      | some schema =>
        have horigin := (mem_of_schema? hschema).2
        have hadd (c : Class) : (registry.modifySchema schema.origin (·.addClass c)).filed =
            registry.filed.changeShelf (Reference.document seed.site.reference) (·.addClass c) := by
          rw [horigin]
          exact registry.filed_modifySchema (Schema.growth_addClass c).origin
            fun schema => schema.filed_addClass c
        rw [Option.map_some]
        dsimp only [Except.map]
        rw [hadd]

/-- A search by key is the search by value. -/
theorem filed_discover (rules : List ClassRule) (seed : Seed) :
    registry.filed.discover spell rules seed = (ApiModel.discover spell rules registry seed).filed := by
  -- by induction on the size of the node, for all registries at once
  induction hsize : sizeOf seed.site.node using Nat.strongRecOn generalizing registry seed with
  | ind size ih =>
    subst hsize
    rw [Storage.discover, ApiModel.discover]
    refine Storage.Outcome.each_filed (fun rule _ registry => ?_) registry
    have henter := registry.filed_enter spell rule seed
    split
    · next herror =>
      rw [herror] at henter
      split
      · next hother => rw [hother] at henter; cases henter; rfl
      · next hother => rw [hother] at henter; cases henter
    · next hentered =>
      rw [hentered] at henter
      split
      · next hother => rw [hother] at henter; cases henter
      · next hother =>
        rw [hother] at henter
        cases henter
        refine Storage.Outcome.each_filed (fun inner _ registry => ?_) _
        exact ih _ (sizeOf_enter_lt hother inner.2) registry inner.1 rfl

theorem filed_discoverBy (rule : ClassRule) (rules : List ClassRule) (seed : Seed) :
    Storage.discoverBy spell rule rules registry.filed seed =
      (rule.discover spell rules registry seed).filed := by
  rw [Storage.discoverBy, filed_enter, ClassRule.discover]
  cases rule.enter spell registry seed with
  | error error => rfl
  | ok entered =>
    exact Storage.Outcome.each_filed
      (fun inner _ registry => registry.filed_discover spell rules inner) entered.1

end Registry

/-! ## Passes that may fail -/

namespace Storage.Outcome

/-- An outcome in storage is that of a pass over a registry: both succeed or both fail with one error, and
what stands in storage is a filed registry with the property `P`, also after an error. -/
inductive Matches (P : Registry → Prop) : Outcome → Except Error Registry → Prop where
  | done {registry : Registry} : P registry → Matches P { storage := registry.filed } (.ok registry)
  | failed {registry : Registry} {error : Error} : P registry →
    Matches P { storage := registry.filed, failure := some error } (.error error)

variable {P Q : Registry → Prop}

theorem Matches.andThen {outcome : Outcome} {result : Except Error Registry}
    {next : Storage → Outcome} {f : Registry → Except Error Registry} (h : Matches P outcome result)
    (himp : ∀ registry, P registry → Q registry)
    (hnext : ∀ registry, P registry → Matches Q (next registry.filed) (f registry)) :
    Matches Q (outcome.andThen next) (result >>= f) := by
  cases h with
  | done hregistry => exact hnext _ hregistry
  | failed hregistry => exact .failed (himp _ hregistry)

/-- Whatever comes of a pass, it leaves a filed registry. -/
theorem Matches.storage_eq {outcome : Outcome} {result : Except Error Registry}
    (h : Matches P outcome result) : ∃ left : Registry, P left ∧ outcome.storage = left.filed := by
  cases h with
  | done hleft => exact ⟨_, hleft, rfl⟩
  | failed hleft => exact ⟨_, hleft, rfl⟩

/-- What holds at every step holds for the loop. -/
theorem matches_each {α : Type} {step : Storage → α → Outcome}
    {f : Registry → α → Except Error Registry} {xs : List α}
    (hstep : ∀ x registry, P registry → Matches P (step registry.filed x) (f registry x))
    {registry : Registry} (h : P registry) :
    Matches P (each step registry.filed xs) (xs.foldlM f registry) := by
  induction xs generalizing registry with
  | nil => exact .done h
  | cons x xs ih =>
    rw [each, List.foldlM_cons]
    exact (hstep x registry h).andThen (fun _ h => h) fun registry h => ih h

end Storage.Outcome

namespace Registry.Grown

open Storage.Outcome (Matches matches_each)

variable {start registry : Registry} (h : Grown start registry) (load : Loader) (rules : Rules)
include h

theorem matches_readDocument (origin : String) :
    Matches (Grown start) (registry.filed.readDocument load rules origin)
      (registry.readDocument load rules origin) := by
  rw [Storage.readDocument, Registry.readDocument]
  cases load origin with
  | error error => exact .failed h
  | ok root =>
    have hname : ((registry.filed.shelf? origin).map Shelf.rootName).getD "" =
        ((registry.schema? origin).map Schema.rootName).getD "" := by
      rw [shelf?_filed, Option.map_map]
      rfl
    dsimp only [bind, Except.bind]
    rw [hname, filed_discover]
    generalize Seed.mk (((registry.schema? origin).map Schema.rootName).getD "")
      ⟨root, Reference.root origin⟩ = seed
    have hgrown := h.discover rules.spell rules.classes seed
    unfold Rules.discover
    generalize ApiModel.discover rules.spell rules.classes registry seed = reached at hgrown
    obtain ⟨after, failure⟩ := reached
    cases failure with
    | some error => exact .failed hgrown
    | none =>
      have hparsed : (after.modifySchema origin fun schema => { schema with parsed := some root }).filed =
          after.filed.changeShelf origin fun shelf => { shelf with parsed := some root } :=
        after.filed_modifySchema (fun _ => rfl) fun _ => rfl
      have hdone := Matches.done (hgrown.setParsed origin root)
      rw [hparsed] at hdone
      exact hdone

theorem matches_readDocuments :
    Matches (Grown start) (registry.filed.readDocuments load rules)
      (registry.readDocuments load rules) := by
  rw [Storage.readDocuments, origins_filed, Registry.readDocuments]
  exact matches_each (fun origin _ h => h.matches_readDocument load rules origin) h

theorem matches_resolveClass (origin reference : String) :
    Matches (Grown start) (registry.filed.resolveClass rules origin reference)
      (registry.resolveClass rules origin reference) := by
  rw [Storage.resolveClass, Registry.resolveClass, class?_filed, registry_filed, shelf?_filed]
  cases hclass : registry.class? reference with
  | none => exact .done h
  | some c =>
    dsimp only
    cases hresolve : c.resolve rules registry with
    | error error => exact .failed h
    | ok resolved =>
      cases registry.schema? origin with
      | none => exact .failed h
      | some schema =>
        -- the copy still has the reference that it was found by
        obtain ⟨owner, _, hmem⟩ := mem_of_class? hclass
        have href : resolved.reference = reference :=
          (Class.reference_of_resolve hresolve).trans hmem.2
        have hwritten : (registry.modifySchema origin fun schema =>
              (schema.recordRelations resolved).modifyClass reference fun _ => resolved).filed =
            registry.filed.changeShelf origin fun shelf =>
              (shelf.recordRelations resolved).changeClass reference fun _ => resolved :=
          registry.filed_modifySchema (fun _ => rfl) fun schema =>
            (schema.recordRelations resolved).filed_modifyClass fun _ _ => href
        have hdone := Matches.done (h.writeBack origin href)
        rw [hwritten] at hdone
        exact hdone

theorem matches_resolveSchema (origin : String) :
    Matches (Grown start) (registry.filed.resolveShelf rules origin)
      (registry.resolveSchema rules origin) := by
  rw [Storage.resolveShelf, references_filed, Registry.resolveSchema]
  exact matches_each (fun reference _ h => h.matches_resolveClass rules origin reference) h

theorem matches_resolveClasses :
    Matches (Grown start) (registry.filed.resolveClasses rules) (registry.resolveClasses rules) := by
  rw [Storage.resolveClasses, origins_filed, Registry.resolveClasses]
  exact matches_each (fun origin _ h => h.matches_resolveSchema rules origin) h

end Registry.Grown

/-! ## Linking unions and pruning -/

theorem Registry.unionLinks_filed (registry : Registry) :
    registry.filed.unionLinks = registry.unionLinks := by
  unfold Storage.unionLinks unionLinks filed
  rw [Slots.values_fileBy, List.flatMap_map]
  simp only [Schema.filed, Slots.values_fileBy, List.map_id]

namespace Registry.Distinct

variable {registry : Registry} (h : registry.Distinct)
include h

/-- A union that is named as a child takes no parent, so it may as well be asked to. -/
theorem link_eq_modifyClass (union child : String) :
    registry.link union child = registry.modifyClass child (·.setUnionParent union) := by
  rw [h.link_eq, h.modifyClass_eq]
  rfl

theorem filed_linkUnions : registry.linkUnions.filed = registry.filed.hydrate := by
  rw [Storage.hydrate, unionLinks_filed, Registry.linkUnions]
  generalize registry.unionLinks = links
  induction links generalizing registry with
  | nil => rfl
  | cons link rest ih =>
    rw [List.foldl_cons, List.foldl_cons, ih (h.link link.1 link.2)]
    dsimp only
    rw [h.link_eq_modifyClass, filed_modifyClass _ fun c => c.reference_setUnionParent link.1]

theorem marked_filed {schema : Schema} (hschema : schema ∈ registry.schemas) :
    registry.filed.marked schema.origin = registry.marked schema := by
  have hfound : registry.schema? schema.origin = some schema :=
    Keyed.get?_eq_some_of_mem h.origins hschema
  rw [Storage.marked, shelf?_filed, hfound, registry_filed, Option.map_some, Option.map_some,
    Schema.schema_filed, Option.getD_some]

/-- Noting what each schema needs, one after the other. -/
theorem filed_noteNeeded (needed : Schema → List String) :
    (registry.schemas.map fun schema => (schema.origin, needed schema)).foldl
        (fun storage (origin, needed) =>
          storage.changeShelf origin fun shelf => { shelf with needed })
        registry.filed =
      Registry.filed { registry with
        schemas := registry.schemas.map fun schema => { schema with needed := needed schema } } := by
  have hsteps : ∀ (schemas : List Schema) (registry : Registry),
      (schemas.map fun schema => (schema.origin, needed schema)).foldl
          (fun storage (origin, needed) =>
            storage.changeShelf origin fun shelf => { shelf with needed })
          registry.filed =
        Registry.filed { registry with
          schemas := schemas.foldl
            (fun schemas schema => Keyed.modify Schema.origin schema.origin
              (fun other => { other with needed := needed schema }) schemas)
            registry.schemas } := by
    intro schemas
    induction schemas with
    | nil => exact fun _ => rfl
    | cons schema rest ih =>
      intro registry
      have hnote : (registry.modifySchema schema.origin fun other =>
            { other with needed := needed schema }).filed =
          registry.filed.changeShelf schema.origin fun shelf =>
            { shelf with needed := needed schema } :=
        registry.filed_modifySchema (fun _ => rfl) fun _ => rfl
      rw [List.map_cons, List.foldl_cons, List.foldl_cons]
      dsimp only
      rw [← hnote, ih]
      rfl
  have hall := Keyed.foldl_modify
    (f := fun schema other : Schema => { other with needed := needed schema }) (fun _ _ => rfl)
    h.origins
  rw [hsteps, ← hall]

/-- Sweeping shelf by shelf and key by key prunes. -/
theorem filed_prune : registry.prune.filed = registry.filed.prune := by
  by_cases hwhitelist : registry.whitelist = []
  · rw [Storage.prune, whitelist_filed, if_pos hwhitelist, Registry.prune, if_pos hwhitelist]
  · have hmarks : (registry.filed.shelves.values.map fun shelf =>
          (shelf.origin, registry.filed.marked shelf.origin)) =
        registry.schemas.map fun schema => (schema.origin, registry.marked schema) := by
      rw [filed, Slots.values_fileBy, List.map_map]
      refine List.map_congr_left fun schema hschema => ?_
      exact congrArg (schema.origin, ·) (h.marked_filed hschema)
    have hkept : (registry.schemas.map fun schema =>
        (schema.origin, registry.marked schema)).flatMap Prod.snd = registry.keptClasses :=
      List.flatMap_map ..
    rw [Storage.prune, whitelist_filed, if_neg hwhitelist]
    dsimp only
    rw [hmarks, hkept, h.filed_noteNeeded]
    -- each shelf that was noted is swept where it stands
    have hswept : ((registry.schemas.map fun schema =>
            { schema with needed := registry.marked schema }).map fun schema : Schema =>
              (schema.origin, schema.filed)).map (fun slot =>
                (slot.1, slot.2.sweep registry.keptClasses)) =
          registry.prune.schemas.map fun schema => (schema.origin, schema.filed) := by
      rw [schemas_prune hwhitelist, List.map_map, List.map_map, List.map_map]
      refine List.map_congr_left fun schema _ => ?_
      show (schema.origin, Shelf.sweep _ (Schema.filed _)) = _
      rw [← Schema.filed_sweep, Schema.sweep_eq]
      rfl
    have hsame : registry.prune.whitelist = registry.whitelist := by
      rw [Registry.prune, if_neg hwhitelist]
    show Storage.mk (registry.prune.schemas.map _) registry.prune.whitelist = Storage.mk _ _
    rw [hsame, ← hswept]
    rfl

end Registry.Distinct

/-! ## The whole build -/

/-- A build in storage is the build of the registry. Whether it fails or not, keys stand once in what it
leaves, and the classes that a schema had before are in their order. -/
theorem Registry.Distinct.matches_build {registry : Registry} (h : registry.Distinct) (load : Loader)
    (rules : Rules) :
    Storage.Outcome.Matches
      (fun left => left.Distinct ∧
        ∀ origin, Aligned (registry.references origin) (left.references origin))
      (registry.filed.build load rules) (registry.build load rules) := by
  have hpass : ∀ left, Grown registry left → left.Distinct ∧
      ∀ origin, Aligned (registry.references origin) (left.references origin) := fun left hleft =>
    ⟨hleft.distinct, fun origin =>
      .of_initial (hleft.places origin) (hleft.distinct.nodup_references origin)⟩
  rw [Storage.build, Registry.build]
  refine (h.grown.matches_readDocuments load rules).andThen hpass fun read hread => ?_
  refine (hread.matches_resolveClasses rules).andThen hpass fun resolved hresolved => ?_
  have hlinked := hresolved.linkUnions
  rw [← hresolved.distinct.filed_linkUnions, ← hlinked.distinct.filed_prune]
  refine .done ⟨hlinked.distinct.prune, fun origin => ?_⟩
  exact ⟨_, hlinked.distinct.nodup_references origin, (hlinked.places origin).sublist,
    references_prune_sublist _ origin⟩

end ApiModel
