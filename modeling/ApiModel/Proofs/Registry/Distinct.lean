import ApiModel.Proofs.Registry.Lookup
import Mathlib.Data.List.Nodup

/-!
# Registries in which keys stand once

In a distinct registry no two schemas have one origin and no two classes of a schema have one reference.
Two schemas may still hold classes of one reference, and a class may stand in the schema of any document.
Of the classes of one reference only one is found, in the schema that is the home of the reference. A
change of the class under a reference is a change of that one and of no other (`Distinct.modifyClass_eq`).
-/

namespace ApiModel

/-- Schemas have origins of their own, and in each of them classes have references of their own. -/
structure Registry.Distinct (registry : Registry) : Prop where
  origins : (registry.schemas.map Schema.origin).Nodup
  references : ∀ schema ∈ registry.schemas, (schema.classes.map Class.reference).Nodup

/-- Changes the classes of a schema whose references lead to the schema. -/
def Schema.mapHome (home? : String → Option String) (f : Class → Class) (schema : Schema) : Schema :=
  { schema with
    classes := schema.classes.map fun c =>
      if home? c.reference = some schema.origin then f c else c }

namespace Registry

/-- The origin of the schema in which a reference finds a class. -/
def home? (registry : Registry) (reference : String) : Option String :=
  (registry.owner? reference).map Schema.origin

/-- Changes every class that its reference finds. -/
def mapFound (f : Class → Class) (registry : Registry) : Registry :=
  { registry with schemas := registry.schemas.map (Schema.mapHome registry.home? f) }

end Registry

/-! ## Changing what is found -/

section

variable {f : Class → Class} (hf : ∀ c, (f c).reference = c.reference)
include hf

theorem Schema.class?_mapHome {home? : String → Option String} {schema : Schema} {reference : String} :
    (schema.mapHome home? f).class? reference =
      (schema.class? reference).map fun c =>
        if home? c.reference = some schema.origin then f c else c := by
  refine Keyed.get?_map (fun c => ?_) reference schema.classes
  split
  · exact hf c
  · rfl

theorem Schema.hasClass_mapHome {home? : String → Option String} (schema : Schema)
    (reference : String) : (schema.mapHome home? f).hasClass reference = schema.hasClass reference := by
  unfold hasClass
  rw [class?_mapHome hf, Option.isSome_map]

namespace Registry

variable {registry : Registry}

/-- Classes that are changed stay where they are found. -/
theorem owner?_mapFound (reference : String) :
    (registry.mapFound f).owner? reference =
      (registry.owner? reference).map (Schema.mapHome registry.home? f) :=
  registry.owner?_map (f := Schema.mapHome registry.home? f) reference
    fun schema => ⟨rfl, schema.hasClass_mapHome hf reference⟩

theorem home?_mapFound : (registry.mapFound f).home? = registry.home? := by
  funext reference
  unfold home?
  rw [owner?_mapFound hf, Option.map_map]
  rfl

theorem class?_mapFound (reference : String) :
    (registry.mapFound f).class? reference = (registry.class? reference).map f := by
  unfold class?
  rw [owner?_mapFound hf]
  cases howner : registry.owner? reference with
  | none => rfl
  | some owner =>
    have hhome : registry.home? reference = some owner.origin := by
      rw [home?, howner]
      rfl
    rw [Option.map_some, Option.bind_some, Option.bind_some, Schema.class?_mapHome hf]
    cases hclass : owner.class? reference with
    | none => rfl
    | some c =>
      have href := (Schema.mem_of_class? hclass).2
      simp only [Option.map_some, href, hhome, if_true]

theorem mapFound_mapFound (g : Class → Class) :
    (registry.mapFound f).mapFound g = registry.mapFound fun c => g (f c) := by
  have hschema : ∀ schema : Schema,
      (schema.mapHome registry.home? f).mapHome registry.home? g =
        schema.mapHome registry.home? fun c => g (f c) := by
    intro schema
    unfold Schema.mapHome
    rw [List.map_map]
    congr 2
    funext c
    by_cases hhome : registry.home? c.reference = some schema.origin
    · simp only [Function.comp, hhome, if_true, hf]
    · simp only [Function.comp, hhome, if_false]
  have hhome : (registry.mapFound f).mapFound g =
      { registry with
        schemas := (registry.mapFound f).schemas.map (Schema.mapHome registry.home? g) } := by
    rw [← home?_mapFound hf]
    rfl
  rw [hhome]
  unfold mapFound
  rw [List.map_map]
  congr 2
  funext schema
  exact hschema schema

theorem Distinct.mapFound (h : registry.Distinct) : (registry.mapFound f).Distinct where
  origins := by
    have hsame : (registry.mapFound f).schemas.map Schema.origin =
        registry.schemas.map Schema.origin := by
      show (registry.schemas.map (Schema.mapHome registry.home? f)).map Schema.origin = _
      rw [List.map_map]
      rfl
    rw [hsame]
    exact h.origins
  references := by
    intro schema hschema
    obtain ⟨before, hbefore, rfl⟩ := List.mem_map.1 hschema
    have hsame : (before.mapHome registry.home? f).classes.map Class.reference =
        before.classes.map Class.reference := by
      unfold Schema.mapHome
      rw [List.map_map]
      refine List.map_congr_left fun c _ => ?_
      show (if _ then f c else c).reference = _
      split
      · exact hf c
      · rfl
    rw [hsame]
    exact h.references before hbefore

end Registry

end

namespace Registry

variable {registry : Registry}

/-- Where no class that is found is changed, nothing is. -/
theorem mapFound_eq_self {f : Class → Class}
    (hf : ∀ schema ∈ registry.schemas, ∀ c ∈ schema.classes,
      registry.home? c.reference = some schema.origin → f c = c) : registry.mapFound f = registry := by
  have hschema : ∀ schema ∈ registry.schemas, schema.mapHome registry.home? f = schema := by
    intro schema hmem
    have hclasses : (schema.classes.map fun c =>
        if registry.home? c.reference = some schema.origin then f c else c) = schema.classes := by
      refine (List.map_congr_left fun c hc => ?_).trans (List.map_id _)
      split
      · next hhome => exact hf schema hmem c hc hhome
      · rfl
    rw [Schema.mapHome, hclasses]
  have hschemas : registry.schemas.map (Schema.mapHome registry.home? f) = registry.schemas :=
    (List.map_congr_left hschema).trans (List.map_id _)
  rw [mapFound, hschemas]

theorem Distinct.modifySchema_eq (h : registry.Distinct) (origin : String) (f : Schema → Schema) :
    registry.modifySchema origin f =
      { registry with
        schemas := registry.schemas.map fun schema =>
          if schema.origin = origin then f schema else schema } := by
  rw [Registry.modifySchema, Keyed.modify_eq_map h.origins]

theorem Distinct.modifySchema (h : registry.Distinct) {origin : String} {f : Schema → Schema}
    (horigin : ∀ schema, (f schema).origin = schema.origin)
    (hnodup : ∀ schema : Schema, schema.references.Nodup → (f schema).references.Nodup) :
    (registry.modifySchema origin f).Distinct where
  origins := by
    have hsame := registry.origins_modifySchema origin horigin
    unfold Registry.origins at hsame
    rw [hsame]
    exact h.origins
  references := by
    intro schema hschema
    rw [h.modifySchema_eq] at hschema
    obtain ⟨before, hbefore, rfl⟩ := List.mem_map.1 hschema
    split
    · exact hnodup before (h.references before hbefore)
    · exact h.references before hbefore

namespace Distinct

variable (h : registry.Distinct)
include h

theorem schema?_origin {schema : Schema} (hmem : schema ∈ registry.schemas) :
    registry.schema? schema.origin = some schema :=
  Keyed.get?_eq_some_of_mem h.origins hmem

theorem eq_of_origin_eq {a b : Schema} (ha : a ∈ registry.schemas) (hb : b ∈ registry.schemas)
    (horigin : a.origin = b.origin) : a = b :=
  List.inj_on_of_nodup_map h.origins ha hb horigin

/-- A schema is the home of a reference exactly if it is its owner. -/
theorem home?_eq_some_iff {schema : Schema} (hschema : schema ∈ registry.schemas)
    {reference : String} :
    registry.home? reference = some schema.origin ↔ registry.owner? reference = some schema := by
  unfold home?
  constructor
  · intro hhome
    obtain ⟨owner, howner, horigin⟩ := Option.map_eq_some_iff.1 hhome
    rw [howner, h.eq_of_origin_eq (mem_of_owner? howner).1 hschema horigin]
  · intro howner
    rw [howner]
    rfl

/-- A class is found by its reference if its schema is the home of that. -/
theorem class?_of_home? {schema : Schema} (hschema : schema ∈ registry.schemas) {c : Class}
    (hc : c ∈ schema.classes) (hhome : registry.home? c.reference = some schema.origin) :
    registry.class? c.reference = some c := by
  rw [class?, (h.home?_eq_some_iff hschema).1 hhome, Option.bind_some]
  exact Keyed.get?_eq_some_of_mem (h.references schema hschema) hc

/-- A change of the class under a reference is one of the class that the reference finds. -/
theorem modifyClass_eq (reference : String) (f : Class → Class) :
    registry.modifyClass reference f =
      registry.mapFound fun c => if c.reference = reference then f c else c := by
  unfold modifyClass
  cases howner : registry.owner? reference with
  | none =>
    refine (mapFound_eq_self fun schema _ c _ hhome => if_neg fun href => ?_).symm
    rw [href, home?, howner] at hhome
    cases hhome
  | some owner =>
    have hhome : registry.home? reference = some owner.origin := by
      rw [home?, howner]
      rfl
    show registry.modifySchema owner.origin _ = _
    rw [h.modifySchema_eq, Registry.mapFound]
    congr 1
    refine List.map_congr_left fun schema hschema => ?_
    by_cases horigin : schema.origin = owner.origin
    · rw [if_pos horigin, Schema.modifyClass, Keyed.modify_eq_map (h.references schema hschema),
        Schema.mapHome]
      congr 1
      refine List.map_congr_left fun c _ => ?_
      by_cases href : c.reference = reference
      · simp only [href, hhome, horigin, if_true]
      · simp only [href, if_false, ite_self]
    · -- the other schemas are not the home of the reference
      have hclasses : (schema.classes.map fun c =>
          if registry.home? c.reference = some schema.origin then
            (if c.reference = reference then f c else c) else c) = schema.classes := by
        refine (List.map_congr_left fun c _ => ?_).trans (List.map_id _)
        by_cases href : c.reference = reference
        · rw [if_neg]
          · rfl
          · rw [href, hhome, Option.some.injEq]
            exact fun heq => horigin heq.symm
        · simp only [href, if_false, ite_self, id]
      rw [if_neg horigin, Schema.mapHome, hclasses]

end Distinct

end Registry

end ApiModel
