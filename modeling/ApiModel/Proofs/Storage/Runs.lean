import ApiModel.Proofs.Storage.Passes

/-!
# Everything stands under its own key

Whatever is done to an empty registry, one thing after another and failing or not, storage that keeps keys
of its own beside the values never comes to a point where a schema stands under anything but its origin, or
a class under anything but its reference (`run_filed`). So it does not matter that the registry knows
no other keys than those: both are the same at every point. And apart from another schema in the place of
one, nothing that is done changes the order of two classes that are there before and after it.
-/

namespace ApiModel

/-- Every shelf stands under its origin and every class under its reference, and no key stands twice. -/
structure Storage.Filed (storage : Storage) : Prop where
  origins : storage.origins.Nodup
  origin : ∀ slot ∈ storage.shelves, slot.2.origin = slot.1
  references : ∀ slot ∈ storage.shelves, slot.2.references.Nodup
  reference : ∀ slot ∈ storage.shelves, ∀ entry ∈ slot.2.classes, entry.2.reference = entry.1

/-- Two classes on the shelf of an origin that stay there stand in the same order as before. -/
def Storage.KeepsOrder (before after : Storage) (origin : String) : Prop :=
  ∀ a b, [a, b].Sublist (before.references origin) → a ∈ after.references origin →
    b ∈ after.references origin → [a, b].Sublist (after.references origin)

/-! ## Filed storage -/

namespace Registry

variable {registry : Registry}

theorem Distinct.filed (h : registry.Distinct) : registry.filed.Filed where
  origins := by
    rw [origins_filed]
    exact h.origins
  origin := by
    intro slot hslot
    obtain ⟨schema, _, rfl⟩ := List.mem_map.1 hslot
    rfl
  references := by
    intro slot hslot
    obtain ⟨schema, hschema, rfl⟩ := List.mem_map.1 hslot
    rw [Schema.references_filed]
    exact h.references schema hschema
  reference := by
    intro slot hslot entry hentry
    obtain ⟨schema, _, rfl⟩ := List.mem_map.1 hslot
    obtain ⟨c, _, rfl⟩ := List.mem_map.1 hentry
    rfl

theorem keepsOrder_filed {after : Registry} {origin : String}
    (h : Aligned (registry.references origin) (after.references origin)) :
    registry.filed.KeepsOrder after.filed origin := by
  intro a b hab ha hb
  rw [references_filed] at *
  exact h.pair hab ha hb

end Registry

/-! ## One change -/

theorem Class.reference_apply (c : Class) (edit : ClassEdit) : (c.apply edit).reference = c.reference := by
  cases edit with
  | setUnionParent parent => exact c.reference_setUnionParent parent
  | rename name => rfl

namespace Schema

variable (schema : Schema) (edit : SchemaEdit)

theorem origin_apply : (schema.apply edit).origin = schema.origin := by
  cases edit with
  | addClass c => exact (growth_addClass c).origin schema
  | removeClass reference => rfl
  | changeClass reference edit => rfl
  | recordRelations c => rfl
  | addOperation operation => rfl
  | setParsed root => rfl
  | setNeeded needed => rfl

theorem filed_apply : (schema.apply edit).filed = schema.filed.apply edit := by
  cases edit with
  | addClass c => exact schema.filed_addClass c
  | removeClass reference => exact schema.filed_removeClass reference
  | changeClass reference edit =>
    exact schema.filed_modifyClass fun c href => (c.reference_apply edit).trans href
  | recordRelations c => exact schema.filed_recordRelations c
  | addOperation operation => exact schema.filed_addOperation operation
  | setParsed root => rfl
  | setNeeded needed => rfl

theorem nodup_and_aligned_apply (h : schema.references.Nodup) :
    (schema.apply edit).references.Nodup ∧
      Aligned schema.references (schema.apply edit).references := by
  have hsame : ∀ other : Schema, other.references = schema.references →
      other.references.Nodup ∧ Aligned schema.references other.references := by
    intro other heq
    rw [heq]
    exact ⟨h, .of_initial List.prefix_rfl h⟩
  cases edit with
  | addClass c =>
    have hnodup := (growth_addClass c).nodup schema h
    exact ⟨hnodup, .of_initial ((growth_addClass c).places schema) hnodup⟩
  | removeClass reference =>
    have hpart : (schema.removeClass reference).references.Sublist schema.references :=
      (Keyed.erase_sublist reference schema.classes).map Class.reference
    exact ⟨h.sublist hpart, .of_sublist h hpart⟩
  | changeClass reference edit =>
    exact hsame _ (schema.references_modifyClass fun c href => (c.reference_apply edit).trans href)
  | recordRelations c => exact hsame _ rfl
  | addOperation operation => exact hsame _ rfl
  | setParsed root => exact hsame _ rfl
  | setNeeded needed => exact hsame _ rfl

theorem foldl_apply (edits : List SchemaEdit) (h : schema.references.Nodup) :
    (edits.foldl apply schema).origin = schema.origin ∧
      (edits.foldl apply schema).references.Nodup ∧
      (edits.foldl apply schema).filed = edits.foldl Shelf.apply schema.filed := by
  induction edits generalizing schema with
  | nil => exact ⟨rfl, h, rfl⟩
  | cons edit rest ih =>
    obtain ⟨horigin, hnodup, hfiled⟩ := ih (schema.apply edit) (schema.nodup_and_aligned_apply edit h).1
    rw [List.foldl_cons, List.foldl_cons, ← schema.filed_apply]
    exact ⟨horigin.trans (schema.origin_apply edit), hnodup, hfiled⟩

end Schema

namespace Registry

variable {registry : Registry}

/-- A new registry has no classes. -/
theorem references_ofOrigins (origins : List String) (rootName origin : String) :
    (ofOrigins origins rootName).references origin = [] := by
  unfold references
  cases hschema : (ofOrigins origins rootName).schema? origin with
  | none => rfl
  | some schema =>
    obtain ⟨_, _, rfl⟩ := mem_ofOrigins (mem_of_schema? hschema).1
    rfl

/-- Another schema in the place of one leaves those of other origins. -/
theorem references_addSchema {schema : Schema} {origin : String} (hne : schema.origin ≠ origin) :
    (registry.addSchema schema).references origin = registry.references origin := by
  unfold references schema? addSchema
  rw [Keyed.get?_put_of_ne hne]

namespace Distinct

variable (h : registry.Distinct)
include h

theorem addSchema {schema : Schema} (hschema : schema.references.Nodup) :
    (registry.addSchema schema).Distinct where
  origins := Keyed.nodup_put h.origins
  references := by
    intro other hother
    rcases Keyed.mem_put hother with rfl | hother
    · exact hschema
    · exact h.references other hother

end Distinct

end Registry

/-! ## One change of a registry -/

/-- What a change of a registry does: keys stand once after it too, storage comes to the same, and no class
passes another unless the whole schema is replaced. -/
structure Edit.Keeps (registry : Registry) (edit : Edit) : Prop where
  distinct : (registry.apply edit).Distinct
  filed : (registry.apply edit).filed = registry.filed.apply edit
  aligned : ∀ origin, edit.replaces origin = false →
    Aligned (registry.references origin) ((registry.apply edit).references origin)

namespace Edit

variable {registry : Registry}

theorem Keeps.of_grown {edit : Edit} (hgrown : registry.Grown (registry.apply edit))
    (hfiled : (registry.apply edit).filed = registry.filed.apply edit) : edit.Keeps registry where
  distinct := hgrown.distinct
  filed := hfiled
  aligned := fun origin _ =>
    .of_initial (hgrown.places origin) (hgrown.distinct.nodup_references origin)

variable (h : registry.Distinct)
include h

theorem keeps_addSchema (origin rootName : String) (edits : List SchemaEdit) :
    (addSchema origin rootName edits).Keeps registry := by
  obtain ⟨horigin, hnodup, hfiled⟩ :=
    Schema.foldl_apply ({ origin, rootName } : Schema) edits List.nodup_nil
  refine ⟨h.addSchema hnodup, ?_, fun other hother => ?_⟩
  · show (registry.addSchema _).filed = registry.filed.addShelf _
    rw [Registry.filed_addSchema, hfiled]
    rfl
  · have hne : origin ≠ other := by simpa [replaces] using hother
    show Aligned _ ((registry.addSchema _).references other)
    rw [Registry.references_addSchema fun heq => hne (horigin.symm.trans heq)]
    exact .of_initial List.prefix_rfl (h.nodup_references other)

theorem keeps_editSchema (origin : String) (edit : SchemaEdit) :
    (editSchema origin edit).Keeps registry := by
  refine ⟨?_, ?_, fun other _ => ?_⟩
  · exact h.modifySchema (fun schema => schema.origin_apply edit)
      fun schema hschema => (schema.nodup_and_aligned_apply edit hschema).1
  · exact registry.filed_modifySchema (fun schema => schema.origin_apply edit)
      fun schema => schema.filed_apply edit
  · show Aligned _ ((registry.modifySchema origin (·.apply edit)).references other)
    rw [Registry.references_modifySchema fun schema => schema.origin_apply edit]
    have hnodup := h.nodup_references other
    split
    · unfold Registry.references at hnodup ⊢
      cases hschema : registry.schema? other with
      | none => exact .of_initial List.prefix_rfl List.nodup_nil
      | some schema =>
        rw [hschema] at hnodup
        exact (schema.nodup_and_aligned_apply edit hnodup).2
    · exact .of_initial List.prefix_rfl hnodup

theorem keeps_build (load : Loader) (rules : Rules) : (build load rules).Keeps registry := by
  have hbuild := h.matches_build load rules
  generalize hstorage : registry.filed.build load rules = outcome at hbuild
  generalize hregistry : registry.build load rules = result at hbuild
  cases hbuild with
  | @done built hbuilt =>
    have hafter : registry.apply (.build load rules) = built := by
      rw [Registry.apply, hregistry]
    have hfiled : registry.filed.apply (.build load rules) = built.filed := by
      rw [Storage.apply, hstorage]
      rfl
    exact ⟨hafter ▸ hbuilt.1, hafter ▸ hfiled.symm, fun origin _ => hafter ▸ hbuilt.2 origin⟩
  | failed _ =>
    -- what the build did before it failed is done to a copy
    have hafter : registry.apply (.build load rules) = registry := by
      rw [Registry.apply, hregistry]
    have hfiled : registry.filed.apply (.build load rules) = registry.filed := by
      rw [Storage.apply, hstorage]
      rfl
    refine .of_grown (hafter.symm ▸ h.grown) ?_
    rw [hafter, hfiled]

/-- Every change keeps what has to be kept. -/
theorem keeps (edit : Edit) : edit.Keeps registry := by
  cases edit with
  | ofOrigins origins rootName =>
    refine ⟨(Registry.placed_ofOrigins origins rootName).distinct,
      Registry.filed_ofOrigins origins rootName, fun origin _ => ?_⟩
    show Aligned _ ((Registry.ofOrigins origins rootName).references origin)
    rw [Registry.references_ofOrigins]
    exact .of_sublist (h.nodup_references origin) (List.nil_sublist _)
  | addSchema origin rootName edits => exact keeps_addSchema h origin rootName edits
  | editSchema origin edit => exact keeps_editSchema h origin edit
  | changeClass reference edit =>
    have hedit : ∀ c : Class, (c.apply edit).reference = c.reference := fun c => c.reference_apply edit
    exact .of_grown (h.grown.modifyClass reference hedit) (registry.filed_modifyClass hedit)
  | setWhitelist paths =>
    have hgrown : registry.Grown (registry.setWhitelist paths) :=
      ⟨⟨h.origins, h.references⟩, fun _ => List.prefix_rfl⟩
    exact .of_grown hgrown (registry.filed_setWhitelist paths)
  | discover spell rules seed =>
    refine .of_grown (h.grown.discover spell rules seed) ?_
    exact congrArg Storage.Outcome.storage (registry.filed_discover spell rules seed).symm
  | discoverBy spell rule rules seed =>
    refine .of_grown (h.grown.discoverBy spell rule rules seed) ?_
    exact congrArg Storage.Outcome.storage (registry.filed_discoverBy spell rule rules seed).symm
  | hydrate =>
    have hlinks : registry.apply .hydrate = registry.linkUnions := congrArg Prod.fst h.hydrate_eq
    refine .of_grown (hlinks ▸ h.grown.linkUnions) ?_
    rw [hlinks]
    exact h.filed_linkUnions
  | prune =>
    refine ⟨h.prune, h.filed_prune, fun origin _ => ?_⟩
    exact .of_sublist (h.nodup_references origin) (registry.references_prune_sublist origin)
  | build load rules => exact keeps_build h load rules

end Edit

/-! ## A whole run -/

/-- After every run, keys stand once in the registry, and storage has come to the same. -/
theorem Registry.distinct_and_filed_run (edits : List Edit) :
    (Registry.run edits).Distinct ∧ (Registry.run edits).filed = Storage.run edits := by
  have hrun : ∀ registry : Registry, registry.Distinct →
      (edits.foldl Registry.apply registry).Distinct ∧
        (edits.foldl Registry.apply registry).filed = edits.foldl Storage.apply registry.filed := by
    induction edits with
    | nil => exact fun registry h => ⟨h, rfl⟩
    | cons edit rest ih =>
      intro registry h
      have hstep := Edit.keeps h edit
      rw [List.foldl_cons, List.foldl_cons, ← hstep.filed]
      exact ih _ hstep.distinct
  exact hrun {} ⟨List.nodup_nil, fun _ hschema => nomatch hschema⟩

/-- In a run of any changes, failing ones among them, storage with keys of its own and the registry are
the same at every point, and find the same schemas and classes. Every schema stands under its origin and
every class under its reference, so a class that is found has the reference that it was looked for by. No
change but that of a whole schema for another makes two classes of a schema trade places. All this is also
so of what a build leaves in storage when it fails on its way. -/
theorem run_filed (edits : List Edit) :
    (Storage.run edits).registry = Registry.run edits ∧ (Storage.run edits).Filed ∧
      (∀ origin, ((Storage.run edits).shelf? origin).map Shelf.schema =
        (Registry.run edits).schema? origin) ∧
      (∀ reference, (Storage.run edits).class? reference = (Registry.run edits).class? reference) ∧
      (∀ reference c, (Storage.run edits).class? reference = some c → c.reference = reference) ∧
      (∀ edit origin, edit.replaces origin = false →
        (Storage.run edits).KeepsOrder ((Storage.run edits).apply edit) origin) ∧
      ∀ load rules, ((Storage.run edits).build load rules).storage.Filed ∧
        ∀ origin, (Storage.run edits).KeepsOrder ((Storage.run edits).build load rules).storage
          origin := by
  obtain ⟨hdistinct, hrun⟩ := Registry.distinct_and_filed_run edits
  rw [← hrun]
  generalize Registry.run edits = registry at hdistinct
  refine ⟨registry.registry_filed, hdistinct.filed, ?_, registry.class?_filed, ?_, ?_, ?_⟩
  · intro origin
    rw [registry.shelf?_filed, Option.map_map]
    simp only [Function.comp_def, Schema.schema_filed, Option.map_id']
  · intro reference c hclass
    rw [registry.class?_filed] at hclass
    obtain ⟨_, _, hmem⟩ := Registry.mem_of_class? hclass
    exact hmem.2
  · intro edit origin hreplaces
    have hstep := Edit.keeps hdistinct edit
    rw [← hstep.filed]
    exact Registry.keepsOrder_filed (hstep.aligned origin hreplaces)
  · intro load rules
    obtain ⟨left, ⟨hleft, haligned⟩, hstorage⟩ := (hdistinct.matches_build load rules).storage_eq
    rw [hstorage]
    exact ⟨hleft.filed, fun origin => Registry.keepsOrder_filed (haligned origin)⟩

/-- A class stands under its reference on the shelf it was put on, whatever document that reference names. -/
example :
    (Storage.run
      [.ofOrigins ["a", "b"] "Api",
        .editSchema "b" (.addClass { reference := "c#/C", name := "C", node := .null }),
        .changeClass "c#/C" (.rename "D")]).shelves.map
      (fun slot => (slot.1, slot.2.classes.map fun entry => (entry.1, entry.2.name))) =
    [("a", []), ("b", [("c#/C", "D")])] := by
  decide

end ApiModel
