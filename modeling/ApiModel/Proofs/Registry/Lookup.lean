import ApiModel.Proofs.Document
import ApiModel.Registry

/-!
# Looking things up in a registry

What a registry finds stands in one of its schemas: the schema of an origin, the owner of a class,
the class itself and the node that a reference points at.
-/

namespace ApiModel

namespace Schema

theorem mem_of_class? {schema : Schema} {reference : String} {c : Class}
    (h : schema.class? reference = some c) : c ∈ schema.classes ∧ c.reference = reference :=
  ⟨Keyed.mem_of_get? h, Keyed.key_of_get? h⟩

theorem hasClass_iff {schema : Schema} {reference : String} :
    schema.hasClass reference ↔ ∃ c ∈ schema.classes, c.reference = reference := by
  unfold hasClass
  constructor
  · intro h
    obtain ⟨c, hc⟩ := Option.isSome_iff_exists.1 h
    exact ⟨c, mem_of_class? hc⟩
  · rintro ⟨c, hc, href⟩
    cases hget : schema.class? reference with
    | none => exact absurd href (Keyed.get?_eq_none_iff.1 hget c hc)
    | some _ => rfl

theorem mem_of_relations? {schema : Schema} {reference : String} {known : List String}
    (h : schema.relations? reference = some known) : (reference, known) ∈ schema.relations := by
  obtain ⟨entry, hget, rfl⟩ := Option.map_eq_some_iff.1 h
  have hkey : entry.1 = reference := Keyed.key_of_get? hget
  subst hkey
  exact Keyed.mem_of_get? hget

/-- A change that keeps the reference of a class keeps all references. -/
theorem references_modifyClass (schema : Schema) {reference : String} {f : Class → Class}
    (hf : ∀ c, c.reference = reference → (f c).reference = reference) :
    (schema.modifyClass reference f).references = schema.references := by
  unfold references modifyClass
  dsimp only
  induction schema.classes with
  | nil => rfl
  | cons c rest ih =>
    by_cases href : c.reference = reference
    · simp only [Keyed.modify, href, if_true, List.map_cons, hf c href]
    · simp only [Keyed.modify, href, if_false, List.map_cons, ih]

theorem hasClass_modifyClass (schema : Schema) {reference : String} {f : Class → Class}
    (hf : ∀ c, c.reference = reference → (f c).reference = reference) (other : String) :
    (schema.modifyClass reference f).hasClass other = schema.hasClass other := by
  have hmem : ∀ schema : Schema, schema.hasClass other ↔ other ∈ schema.references :=
    fun schema => hasClass_iff.trans List.mem_map.symm
  rw [Bool.eq_iff_iff, hmem, hmem, references_modifyClass schema hf]

end Schema

namespace Registry

theorem mem_of_schema? {registry : Registry} {origin : String} {schema : Schema}
    (h : registry.schema? origin = some schema) :
    schema ∈ registry.schemas ∧ schema.origin = origin :=
  ⟨Keyed.mem_of_get? h, Keyed.key_of_get? h⟩

theorem origins_modifySchema (registry : Registry) (origin : String) {f : Schema → Schema}
    (hf : ∀ schema, (f schema).origin = schema.origin) :
    (registry.modifySchema origin f).origins = registry.origins := by
  unfold origins modifySchema
  rw [Keyed.map_modify hf]

theorem modifySchema_modifySchema (registry : Registry) (origin : String) {f : Schema → Schema}
    (hf : ∀ schema, (f schema).origin = schema.origin) (g : Schema → Schema) :
    (registry.modifySchema origin f).modifySchema origin g =
      registry.modifySchema origin (g ∘ f) := by
  unfold modifySchema
  dsimp only
  rw [Keyed.modify_modify hf]

/-- The origins are those of the schemas that are found. -/
theorem isSome_schema?_iff {registry : Registry} {origin : String} :
    (registry.schema? origin).isSome ↔ origin ∈ registry.origins := by
  constructor
  · intro h
    obtain ⟨schema, hschema⟩ := Option.isSome_iff_exists.1 h
    obtain ⟨hmem, rfl⟩ := mem_of_schema? hschema
    exact List.mem_map_of_mem hmem
  · intro h
    obtain ⟨schema, hmem, rfl⟩ := List.mem_map.1 h
    cases hschema : registry.schema? schema.origin with
    | none => exact absurd rfl (Keyed.get?_eq_none_iff.1 hschema schema hmem)
    | some found => rfl

/-- An owner is one of the schemas and holds a class with the reference. -/
theorem mem_of_owner? {registry : Registry} {reference : String} {schema : Schema}
    (h : registry.owner? reference = some schema) :
    schema ∈ registry.schemas ∧ schema.hasClass reference := by
  unfold owner? at h
  rcases Option.or_eq_some_iff.1 h with h | ⟨_, h⟩
  · obtain ⟨hschema, hclass⟩ := Option.filter_eq_some_iff.1 h
    exact ⟨(mem_of_schema? hschema).1, hclass⟩
  · exact ⟨List.mem_of_find?_eq_some h, by simpa using List.find?_some h⟩

theorem owner?_of_class? {registry : Registry} {reference : String} {c : Class}
    (h : registry.class? reference = some c) :
    ∃ schema, registry.owner? reference = some schema ∧ schema.class? reference = some c :=
  Option.bind_eq_some_iff.1 h

/-- A class that is found stands in a schema, under the reference it was looked for by. -/
theorem mem_of_class? {registry : Registry} {reference : String} {c : Class}
    (h : registry.class? reference = some c) :
    ∃ schema ∈ registry.schemas, c ∈ schema.classes ∧ c.reference = reference := by
  obtain ⟨schema, howner, hclass⟩ := owner?_of_class? h
  exact ⟨schema, (mem_of_owner? howner).1, Schema.mem_of_class? hclass⟩

/-- A registry finds a class exactly where one of its schemas has it. -/
theorem hasClass_iff {registry : Registry} {reference : String} :
    registry.hasClass reference ↔
      ∃ schema ∈ registry.schemas, ∃ c ∈ schema.classes, c.reference = reference := by
  unfold hasClass
  constructor
  · intro h
    obtain ⟨c, hc⟩ := Option.isSome_iff_exists.1 h
    obtain ⟨schema, hschema, hmem⟩ := mem_of_class? hc
    exact ⟨schema, hschema, c, hmem⟩
  · rintro ⟨schema, hschema, c, hc, href⟩
    have hhas : schema.hasClass reference := Schema.hasClass_iff.2 ⟨c, hc, href⟩
    -- the scan over all schemas ends at `schema` at the latest, so some owner is found
    cases howner : registry.owner? reference with
    | none =>
      have hscan := (Option.or_eq_none_iff.1 howner).2
      exact absurd hhas (by simpa using List.find?_eq_none.1 hscan schema hschema)
    | some owner =>
      rw [class?, howner, Option.bind_some]
      exact (mem_of_owner? howner).2

/-- A class of the schema that an origin leads to is a class of the registry. -/
theorem hasClass_of_schema? {registry : Registry} {origin reference : String} {schema : Schema}
    (hschema : registry.schema? origin = some schema) (hhas : schema.hasClass reference) :
    registry.hasClass reference := by
  obtain ⟨c, hc, href⟩ := Schema.hasClass_iff.1 hhas
  exact hasClass_iff.2 ⟨schema, (mem_of_schema? hschema).1, c, hc, href⟩

/-- The registry has a class of this reference and name. -/
def Names (registry : Registry) (reference name : String) : Prop :=
  ∃ c, registry.class? reference = some c ∧ c.name = name

/-- A node that is found stands in the document of its schema. -/
theorem root_of_node? {registry : Registry} {reference : String} {node : Document}
    (h : registry.node? reference = some node) :
    ∃ schema ∈ registry.schemas, schema.origin = Reference.document reference ∧
      ∃ root, schema.parsed = some root ∧
        Pointer.find? root ((Reference.fragment? reference).getD "") = some node := by
  obtain ⟨root, hroot, hfind⟩ := Option.bind_eq_some_iff.1 h
  obtain ⟨schema, hschema, hparsed⟩ := Option.bind_eq_some_iff.1 hroot
  obtain ⟨hmem, horigin⟩ := mem_of_schema? hschema
  exact ⟨schema, hmem, horigin, root, hparsed, hfind⟩

/-- Changing what is known of documents leaves their nodes where they are. -/
theorem node?_map (registry : Registry) {f : Schema → Schema}
    (hf : ∀ schema, (f schema).origin = schema.origin ∧ (f schema).parsed = schema.parsed)
    (reference : String) :
    Registry.node? { registry with schemas := registry.schemas.map f } reference =
      registry.node? reference := by
  unfold node? schemaOf? schema?
  rw [Keyed.get?_map fun schema => (hf schema).1, Option.bind_map]
  congr 2
  funext schema
  exact (hf schema).2

/-- Changing schemas but not their origins, nor which of them hold a reference, leaves its owner where it
is. -/
theorem owner?_map (registry : Registry) {f : Schema → Schema} (reference : String)
    (hf : ∀ schema, (f schema).origin = schema.origin ∧
      (f schema).hasClass reference = schema.hasClass reference) :
    Registry.owner? { registry with schemas := registry.schemas.map f } reference =
      (registry.owner? reference).map f := by
  have hhas : (fun schema : Schema => schema.hasClass reference) ∘ f =
      fun schema => schema.hasClass reference := funext fun schema => (hf schema).2
  -- both places where an owner is looked for
  have hown : (Registry.schemaOf? { registry with schemas := registry.schemas.map f } reference).filter
      (·.hasClass reference) = ((registry.schemaOf? reference).filter (·.hasClass reference)).map f := by
    rw [schemaOf?, schema?, Keyed.get?_map fun schema => (hf schema).1, Option.filter_map, hhas]
    rfl
  have hscan : (registry.schemas.map f).find? (·.hasClass reference) =
      (registry.schemas.find? (·.hasClass reference)).map f := by
    rw [List.find?_map, hhas]
  rw [owner?, owner?, hown, hscan, Option.map_or]

/-- Every reference under a node of a document is among the targets. -/
theorem mem_targets_of_node? {registry : Registry} {reference text : String} {node : Document}
    (h : registry.node? reference = some node) (htext : text ∈ node.refs) :
    Reference.resolve (Reference.document reference) text ∈ registry.targets := by
  obtain ⟨schema, hmem, horigin, root, hparsed, hfind⟩ := root_of_node? h
  have hmention : text ∈ root.mentions :=
    Pointer.mem_mentions_of_find? hfind (Document.mem_mentions_of_mem_refs htext)
  rw [targets, List.mem_flatMap]
  refine ⟨schema, hmem, List.mem_map.2 ⟨text, ?_, by rw [horigin]⟩⟩
  rw [hparsed]
  simpa using hmention

end Registry

end ApiModel
