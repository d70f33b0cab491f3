import ApiModel.Proofs.Registry.Distinct

/-!
# Where classes stand

A registry is placed if every schema stands under an origin of its own and every class stands, under a
reference of its own, in the schema of the document that its reference begins with. Then the scan over
all schemas finds nothing that the schema of the document does not hold, and a class is found exactly
where it stands.
-/

namespace ApiModel

/-- The classes of a schema have references of their own, all of them into its document. -/
structure Schema.Housed (schema : Schema) : Prop where
  nodup : (schema.classes.map Class.reference).Nodup
  home : ∀ c ∈ schema.classes, Reference.document c.reference = schema.origin

/-- The schemas have origins of their own and hold the classes of their documents. -/
structure Registry.Placed (registry : Registry) : Prop where
  nodup : (registry.schemas.map Schema.origin).Nodup
  housed : ∀ schema ∈ registry.schemas, schema.Housed

namespace Schema

theorem Housed.class?_eq_some_iff {schema : Schema} (h : schema.Housed) {reference : String}
    {c : Class} :
    schema.class? reference = some c ↔ c ∈ schema.classes ∧ c.reference = reference :=
  Keyed.get?_eq_some_iff h.nodup

theorem Housed.document_of_hasClass {schema : Schema} (h : schema.Housed) {reference : String}
    (hhas : schema.hasClass reference) : Reference.document reference = schema.origin := by
  obtain ⟨c, hc, rfl⟩ := hasClass_iff.1 hhas
  exact h.home c hc

/-- A new class of the document can be added. -/
theorem Housed.addClass {schema : Schema} (h : schema.Housed) {c : Class}
    (hc : Reference.document c.reference = schema.origin) : (schema.addClass c).Housed := by
  unfold Schema.addClass
  split
  · exact h
  · next hhas =>
    -- a class of the same reference would have kept the new one out
    refine ⟨?_, fun d hd => ?_⟩
    · rw [List.map_append, List.nodup_append_comm]
      refine List.nodup_cons.2 ⟨fun hmem => hhas ?_, h.nodup⟩
      obtain ⟨d, hd, href⟩ := List.mem_map.1 hmem
      exact hasClass_iff.2 ⟨d, hd, href⟩
    · rcases List.mem_append.1 hd with hd | hd
      · exact h.home d hd
      · rw [List.mem_singleton.1 hd]
        exact hc

end Schema

namespace Registry

/-- Changes every class of every schema. -/
def mapClasses (f : Class → Class) (registry : Registry) : Registry :=
  { registry with
    schemas := registry.schemas.map fun schema =>
      { schema with classes := schema.classes.map f } }

namespace Placed

variable {registry : Registry} (h : registry.Placed)
include h

theorem distinct : registry.Distinct :=
  ⟨h.nodup, fun schema hschema => (h.housed schema hschema).nodup⟩

theorem schema?_eq_some_iff {origin : String} {schema : Schema} :
    registry.schema? origin = some schema ↔
      schema ∈ registry.schemas ∧ schema.origin = origin :=
  Keyed.get?_eq_some_iff h.nodup

theorem schema?_origin {schema : Schema} (hmem : schema ∈ registry.schemas) :
    registry.schema? schema.origin = some schema :=
  h.distinct.schema?_origin hmem

/-- Only the schema of its document owns a class. -/
theorem owner? (reference : String) :
    registry.owner? reference = (registry.schemaOf? reference).filter (·.hasClass reference) := by
  unfold Registry.owner?
  cases hscan : registry.schemas.find? (·.hasClass reference) with
  | none => rw [Option.or_none]
  | some schema =>
    have hmem := List.mem_of_find?_eq_some hscan
    have hhas : schema.hasClass reference := by simpa using List.find?_some hscan
    have hdoc := (h.housed schema hmem).document_of_hasClass hhas
    have hown : registry.schemaOf? reference = some schema :=
      h.schema?_eq_some_iff.2 ⟨hmem, hdoc.symm⟩
    rw [hown, Option.filter_some, if_pos hhas, Option.some_or]

/-- A class is looked up in the schema of its document. -/
theorem class? (reference : String) :
    registry.class? reference =
      (registry.schemaOf? reference).bind (·.class? reference) := by
  unfold Registry.class?
  rw [h.owner? reference]
  cases registry.schemaOf? reference with
  | none => rfl
  | some schema =>
    rw [Option.filter_some, Option.bind_some]
    split
    · rfl
    · next hhas => exact (Option.not_isSome_iff_eq_none.1 hhas).symm

theorem class?_eq_some_iff {reference : String} {c : Class} :
    registry.class? reference = some c ↔
      ∃ schema ∈ registry.schemas, c ∈ schema.classes ∧ c.reference = reference := by
  constructor
  · exact mem_of_class?
  · rintro ⟨schema, hschema, hc, rfl⟩
    have hhoused := h.housed schema hschema
    have hown : registry.schemaOf? c.reference = some schema :=
      h.schema?_eq_some_iff.2 ⟨hschema, (hhoused.home c hc).symm⟩
    rw [h.class? c.reference, hown, Option.bind_some]
    exact hhoused.class?_eq_some_iff.2 ⟨hc, rfl⟩

/-- The relations of a class are those that its own schema records. -/
theorem relations?_of_mem {schema : Schema} (hschema : schema ∈ registry.schemas) {c : Class}
    (hc : c ∈ schema.classes) :
    registry.relations? c.reference = schema.relations? c.reference := by
  have hhas : schema.hasClass c.reference := Schema.hasClass_iff.2 ⟨c, hc, rfl⟩
  have hown : registry.schemaOf? c.reference = some schema :=
    h.schema?_eq_some_iff.2 ⟨hschema, ((h.housed schema hschema).home c hc).symm⟩
  rw [Registry.relations?, h.owner?, hown, Option.filter_some, if_pos hhas, Option.bind_some]

/-- A registry stays placed when its schemas are changed one by one, each into one that holds classes
of the same document. -/
theorem map {f : Schema → Schema}
    (hf : ∀ schema ∈ registry.schemas, (f schema).origin = schema.origin ∧ (f schema).Housed) :
    Placed { registry with schemas := registry.schemas.map f } := by
  refine ⟨?_, fun schema hschema => ?_⟩
  · have horigins : (registry.schemas.map f).map Schema.origin =
        registry.schemas.map Schema.origin := by
      rw [List.map_map]
      exact List.map_congr_left fun schema hmem => (hf schema hmem).1
    show ((registry.schemas.map f).map Schema.origin).Nodup
    rw [horigins]
    exact h.nodup
  · obtain ⟨before, hbefore, rfl⟩ := List.mem_map.1 hschema
    exact (hf before hbefore).2

theorem modifySchema {origin : String} {f : Schema → Schema}
    (hf : ∀ schema ∈ registry.schemas, schema.origin = origin →
      (f schema).origin = schema.origin ∧ (f schema).Housed) :
    (registry.modifySchema origin f).Placed := by
  rw [h.distinct.modifySchema_eq]
  apply h.map
  intro schema hschema
  split
  · next horigin => exact hf schema hschema horigin
  · exact ⟨rfl, h.housed schema hschema⟩

theorem mapClasses {f : Class → Class} (hf : ∀ c, (f c).reference = c.reference) :
    (registry.mapClasses f).Placed := by
  apply h.map
  intro schema hschema
  refine ⟨rfl, ?_, fun c hc => ?_⟩
  · have hreferences : (schema.classes.map f).map Class.reference =
        schema.classes.map Class.reference := by
      rw [List.map_map]
      exact List.map_congr_left fun c _ => hf c
    show ((schema.classes.map f).map Class.reference).Nodup
    rw [hreferences]
    exact (h.housed schema hschema).nodup
  · obtain ⟨before, hbefore, rfl⟩ := List.mem_map.1 hc
    rw [hf before]
    exact (h.housed schema hschema).home before hbefore

theorem class?_mapClasses {f : Class → Class} (hf : ∀ c, (f c).reference = c.reference)
    (reference : String) :
    (registry.mapClasses f).class? reference = (registry.class? reference).map f := by
  rw [(h.mapClasses hf).class?, h.class?]
  unfold Registry.schemaOf? Registry.schema? Registry.mapClasses
  rw [Keyed.get?_map fun _ => rfl]
  cases Keyed.get? Schema.origin (Reference.document reference) registry.schemas with
  | none => rfl
  | some schema => exact Keyed.get?_map hf reference schema.classes

/-- Keeping some of the classes keeps a registry placed. -/
theorem filterClasses (keep : Class → Bool) {f : Schema → Schema}
    (hf : ∀ schema, (f schema).origin = schema.origin ∧
      (f schema).classes = schema.classes.filter keep) :
    Placed { registry with schemas := registry.schemas.map f } := by
  apply h.map
  intro schema hschema
  obtain ⟨horigin, hclasses⟩ := hf schema
  refine ⟨horigin, ?_, fun c hc => ?_⟩
  · rw [hclasses]
    exact (h.housed schema hschema).nodup.sublist (List.filter_sublist.map _)
  · rw [hclasses] at hc
    rw [horigin]
    exact (h.housed schema hschema).home c (List.mem_filter.1 hc).1

end Placed

/-! ## A registry of empty schemas -/

/-- The origins put their schemas one after another. -/
theorem schemas_ofOrigins_eq_foldl (origins : List String) (rootName : String) :
    (ofOrigins origins rootName).schemas =
      origins.foldl (fun schemas origin => Keyed.put Schema.origin { origin, rootName } schemas)
        [] := by
  have hfold : ∀ registry : Registry,
      (origins.foldl (fun registry origin => registry.addSchema { origin, rootName })
        registry).schemas =
      origins.foldl (fun schemas origin => Keyed.put Schema.origin { origin, rootName } schemas)
        registry.schemas := by
    induction origins with
    | nil => exact fun registry => rfl
    | cons origin rest ih => exact fun registry => ih (registry.addSchema { origin, rootName })
  exact hfold {}

theorem nodup_origins_ofOrigins (origins : List String) (rootName : String) :
    ((ofOrigins origins rootName).schemas.map Schema.origin).Nodup := by
  rw [schemas_ofOrigins_eq_foldl]
  exact Keyed.nodup_foldl_put origins List.nodup_nil

/-- Each schema of a new registry stands for one of the origins and knows nothing yet. -/
theorem mem_ofOrigins {origins : List String} {rootName : String} {schema : Schema}
    (h : schema ∈ (ofOrigins origins rootName).schemas) :
    ∃ origin ∈ origins, schema = { origin, rootName } := by
  rw [schemas_ofOrigins_eq_foldl] at h
  exact (Keyed.mem_foldl_put origins [] h).resolve_left List.not_mem_nil

/-- Every origin has a schema, and there are no others. -/
theorem mem_origins_ofOrigins {origins : List String} {rootName : String} {origin : String} :
    origin ∈ (ofOrigins origins rootName).origins ↔ origin ∈ origins := by
  rw [Registry.origins, schemas_ofOrigins_eq_foldl, Keyed.map_foldl_put, Keyed.mem_foldl_addNew,
    List.map_id']
  simp

/-- Where no origin comes twice, each has its schema in its own place. -/
theorem schemas_ofOrigins {origins : List String} (hnodup : origins.Nodup) (rootName : String) :
    (ofOrigins origins rootName).schemas =
      origins.map fun origin => ({ origin, rootName } : Schema) := by
  have hkeys : (([] ++ origins.map fun origin => ({ origin, rootName } : Schema)).map
      Schema.origin).Nodup := by
    rw [List.nil_append, List.map_map]
    show (origins.map id).Nodup
    rw [List.map_id]
    exact hnodup
  rw [schemas_ofOrigins_eq_foldl, Keyed.foldl_put_eq_append origins hkeys, List.nil_append]

theorem placed_ofOrigins (origins : List String) (rootName : String) :
    (ofOrigins origins rootName).Placed := by
  refine ⟨nodup_origins_ofOrigins origins rootName, fun schema hschema => ?_⟩
  obtain ⟨origin, _, rfl⟩ := mem_ofOrigins hschema
  exact ⟨List.nodup_nil, fun _ hc => nomatch hc⟩

theorem Placed.setWhitelist {registry : Registry} (h : registry.Placed) (paths : List String) :
    (registry.setWhitelist paths).Placed :=
  ⟨h.nodup, h.housed⟩

end Registry

end ApiModel
