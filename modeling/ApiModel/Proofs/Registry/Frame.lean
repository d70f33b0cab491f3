import ApiModel.Proofs.Registry.Evaluation
import ApiModel.Text.Transliteration

/-!
# What giving members leaves alone

When all classes get their members, schemas keep the references of their classes in their order, and all
else of a schema but its relations. A class keeps all but its members if it is the one that its reference
finds, in whatever schema it stands. Where two schemas hold classes of one reference, the reference finds
only one of them, and the other one becomes a second copy of it (`Distinct.retold_of_resolveClasses`).
-/

namespace ApiModel

/-- What giving members makes of a class in a schema. -/
structure Class.Retold (registry : Registry) (schema : Schema) (before after : Class) : Prop where
  reference : after.reference = before.reference
  /-- All but the members is that of the class which the reference finds. -/
  found : ∃ c, registry.class? before.reference = some c ∧ after.outline = c.outline
  own : registry.owner? before.reference = some schema → after.outline = before.outline
  /-- No other schema has a class of the reference. -/
  lone : (∀ other ∈ registry.schemas, other.hasClass before.reference → other = schema) →
    after.outline = before.outline

/-- What giving members makes of a schema: it keeps all but its relations and what its classes lose. -/
structure Schema.Retold (registry : Registry) (before after : Schema) : Prop where
  same : after = { before with classes := after.classes, relations := after.relations }
  references : after.references = before.references
  classes : List.Forall₂ (Class.Retold registry before) before.classes after.classes

/-- The outline of a schema with what its references find in place of its classes. -/
def Schema.retelling (registry : Registry) (schema : Schema) : Schema :=
  { schema.outline with classes := schema.classes.map fun c => (registry.found c).outline }

namespace Registry

variable {rules : Rules} {registry resolved : Registry}

/-- A class of a schema finds one by its reference, and itself if the schema owns the reference. -/
theorem Distinct.class?_found (h : registry.Distinct) {schema : Schema}
    (hschema : schema ∈ registry.schemas) {c : Class} (hc : c ∈ schema.classes) :
    registry.class? c.reference = some (registry.found c) ∧
      (registry.owner? c.reference = some schema → registry.found c = c) := by
  have hhas : registry.hasClass c.reference := hasClass_iff.2 ⟨schema, hschema, c, hc, rfl⟩
  obtain ⟨d, hd⟩ := Option.isSome_iff_exists.1 hhas
  have hfound : registry.found c = d := by rw [found, hd, Option.getD_some]
  refine ⟨hfound ▸ hd, fun howner => ?_⟩
  have hself := h.class?_of_home? hschema hc ((h.home?_eq_some_iff hschema).2 howner)
  rw [found, hself, Option.getD_some]

/-- Only one schema can own the reference of a class that no other schema holds. -/
theorem owner?_of_lone {schema : Schema} (hschema : schema ∈ registry.schemas) {c : Class}
    (hc : c ∈ schema.classes)
    (hlone : ∀ other ∈ registry.schemas, other.hasClass c.reference → other = schema) :
    registry.owner? c.reference = some schema := by
  have hhas : registry.hasClass c.reference := hasClass_iff.2 ⟨schema, hschema, c, hc, rfl⟩
  obtain ⟨d, hd⟩ := Option.isSome_iff_exists.1 hhas
  obtain ⟨owner, howner, -⟩ := owner?_of_class? hd
  obtain ⟨hmem, hholds⟩ := mem_of_owner? howner
  rw [howner, hlone owner hmem hholds]

theorem Distinct.retold_of_resolveFound (h : registry.Distinct) {before after : Schema}
    (hbefore : before ∈ registry.schemas) (hstep : before.resolveFound rules registry = .ok after) :
    Schema.Retold registry before after ∧ after.outline = before.retelling registry := by
  obtain ⟨classes, hclasses, hstep⟩ := Traversal.bind_eq_ok.1 hstep
  cases hstep
  have houtlines : classes.map Class.outline =
      before.classes.map fun c => (registry.found c).outline :=
    Traversal.map_eq_of_mapM (fun _ _ hresolve => Class.outline_of_resolve hresolve) hclasses
  have hall : List.Forall₂ (Class.Retold registry before) before.classes classes := by
    refine Traversal.forall₂_of_mapM (fun c hc d hresolve => ?_) hclasses
    obtain ⟨hfound, hself⟩ := h.class?_found hbefore hc
    have houtline : d.outline = (registry.found c).outline := Class.outline_of_resolve hresolve
    have howned : registry.owner? c.reference = some before → d.outline = c.outline :=
      fun howner => houtline.trans (congrArg Class.outline (hself howner))
    obtain ⟨-, -, -, href⟩ := mem_of_class? hfound
    exact ⟨(congrArg Class.reference houtline).trans href, ⟨_, hfound, houtline⟩, howned,
      fun hlone => howned (owner?_of_lone hbefore hc hlone)⟩
  refine ⟨⟨?_, ?_, hall⟩, ?_⟩
  · rw [Schema.foldl_recordRelations]
  · exact Traversal.map_eq_of_forall₂ (fun _ _ hclass => hclass.reference) hall
  · rw [Schema.foldl_recordRelations]
    unfold Schema.outline Schema.retelling Schema.outline
    dsimp only
    rw [houtlines]

/-- A registry is told again as it was, exactly if every class has the outline of what its reference
finds. -/
theorem retelling_eq_outline_iff :
    { registry with schemas := registry.schemas.map (Schema.retelling registry) } = registry.outline ↔
      ∀ schema ∈ registry.schemas, ∀ c ∈ schema.classes, (registry.found c).outline = c.outline := by
  have hschema : ∀ schema : Schema, schema.retelling registry = schema.outline ↔
      ∀ c ∈ schema.classes, (registry.found c).outline = c.outline := by
    intro schema
    rw [← List.map_inj_left]
    exact ⟨fun heq => congrArg Schema.classes heq,
      fun heq => congrArg (fun classes : List Class => { schema.outline with classes }) heq⟩
  have hschemas : registry.schemas.map (Schema.retelling registry) = registry.schemas.map Schema.outline ↔
      ∀ schema ∈ registry.schemas, schema.retelling registry = schema.outline := List.map_inj_left
  constructor
  · intro heq schema hmem
    exact (hschema schema).1 (hschemas.1 (congrArg Registry.schemas heq) schema hmem)
  · intro hsame
    rw [hschemas.2 fun schema hmem => (hschema schema).2 (hsame schema hmem)]
    rfl

/-- Giving members leaves the whitelist, the schemas and the references of their classes as they are, in
their order. A class that is found by its reference loses nothing but its members; any other one makes way
for the one that is found. So all but members and relations stays, exactly if no class differs in more than
its members from the one that its reference finds. -/
theorem Distinct.retold_of_resolveClasses (h : registry.Distinct)
    (hresolved : registry.resolveClasses rules = .ok resolved) :
    resolved.whitelist = registry.whitelist ∧
      List.Forall₂ (Schema.Retold registry) registry.schemas resolved.schemas ∧
      (resolved.outline = registry.outline ↔
        ∀ schema ∈ registry.schemas, ∀ c ∈ schema.classes, (registry.found c).outline = c.outline) := by
  rw [h.resolveClasses] at hresolved
  obtain ⟨schemas, hschemas, rfl⟩ := Traversal.map_eq_ok.1 hresolved
  have hall := Traversal.forall₂_of_mapM
    (fun _ hbefore _ hstep => h.retold_of_resolveFound hbefore hstep) hschemas
  have houtlines : schemas.map Schema.outline = registry.schemas.map (Schema.retelling registry) :=
    Traversal.map_eq_of_forall₂ (fun _ _ hschema => hschema.2) hall
  refine ⟨rfl, hall.imp fun _ _ hschema => hschema.1, ?_⟩
  rw [← retelling_eq_outline_iff, ← houtlines]
  rfl

namespace Nursery

/-- Two documents that know a pet under one reference, by two names. The second one holds a class of a third
document too. -/
def start : Registry where
  schemas := [
    { origin := "a", rootName := "Api", parsed := some (.map []), classes := [
        { reference := "a#/Pet", name := "Pet", node := .map [] }] },
    { origin := "b", rootName := "Api", parsed := some (.map []), classes := [
        { reference := "a#/Pet", name := "Animal", node := .map [("type", .string "object")] },
        { reference := "c#/Toy", name := "Toy", node := .map [] }] }]

theorem distinct_start : start.Distinct := ⟨by decide, by decide⟩

/-- What can be computed of the nursery: the names of its classes. -/
theorem exists_resolved :
    ∃ resolved, start.resolveClasses (Rules.standard Text.transliterate "DateTime" {}) = .ok resolved ∧
      (resolved.schemas.map fun schema => schema.classes.map Class.name) =
        [["Pet"], ["Pet", "Toy"]] := by
  have hends :
      (start.schemas.mapM (Schema.resolveFoundWithin
        (Rules.standard Text.transliterate "DateTime" {}) start 3)).toOption.map
          (·.map fun schema => schema.classes.map Class.name) =
        some [["Pet"], ["Pet", "Toy"]] := by
    decide +kernel
  cases hwithin : start.schemas.mapM
      (Schema.resolveFoundWithin (Rules.standard Text.transliterate "DateTime" {}) start 3) with
  | error error => rw [hwithin] at hends; cases hends
  | ok schemas =>
    rw [hwithin] at hends
    exact ⟨_, distinct_start.resolveClasses_of_resolveWithin hwithin, Option.some.inj hends⟩

end Nursery

open Nursery in
/-- The toy stands in a schema of another document and keeps all but its members; the second pet becomes the
first one. -/
theorem retold_nursery :
    start.Distinct ∧ ∃ resolved,
      start.resolveClasses (Rules.standard Text.transliterate "DateTime" {}) = .ok resolved ∧
      ∃ b ∈ resolved.schemas, ∃ pet toy, b.classes = [pet, toy] ∧
        pet.outline = ⟨"a#/Pet", "Pet", .map [], [], [], [], .plain none⟩ ∧
        toy.outline = ⟨"c#/Toy", "Toy", .map [], [], [], [], .plain none⟩ := by
  obtain ⟨resolved, hresolved, -⟩ := exists_resolved
  obtain ⟨-, hschemas, -⟩ := distinct_start.retold_of_resolveClasses hresolved
  obtain ⟨a, rest, -, hrest, hall⟩ := List.forall₂_cons_left_iff.1 hschemas
  obtain ⟨b, none, hb, -, hlast⟩ := List.forall₂_cons_left_iff.1 hrest
  obtain ⟨pet, toys, hpet, htoys, hclasses⟩ := List.forall₂_cons_left_iff.1 hb.classes
  obtain ⟨toy, more, htoy, hmore, hmost⟩ := List.forall₂_cons_left_iff.1 htoys
  cases hmore
  obtain ⟨found, hfound, houtline⟩ := hpet.found
  refine ⟨distinct_start, resolved, hresolved, b, by simp [hall, hlast], pet, toy, ?_, ?_, ?_⟩
  · rw [hclasses, hmost]
  · rw [houtline, ← Option.some.inj hfound]
    rfl
  · rw [htoy.lone]
    · rfl
    · intro other hother hholds
      -- the first schema does not hold the toy
      rcases List.mem_cons.1 hother with rfl | hother
      · exact absurd hholds (by decide)
      · exact List.mem_singleton.1 hother

open Nursery in
/-- The second pet loses its name, though no more than its members may change. -/
theorem not_outline_of_resolveClasses :
    start.Distinct ∧ ∃ resolved,
      start.resolveClasses (Rules.standard Text.transliterate "DateTime" {}) = .ok resolved ∧
      (start.schemas.map fun schema => schema.classes.map Class.name) = [["Pet"], ["Animal", "Toy"]] ∧
      (resolved.schemas.map fun schema => schema.classes.map Class.name) = [["Pet"], ["Pet", "Toy"]] ∧
      resolved.outline ≠ start.outline := by
  obtain ⟨resolved, hresolved, hnames⟩ := exists_resolved
  have hbefore : (start.schemas.map fun schema => schema.classes.map Class.name) =
      [["Pet"], ["Animal", "Toy"]] := rfl
  refine ⟨distinct_start, resolved, hresolved, hbefore, hnames, fun heq => ?_⟩
  -- equal outlines have equal names
  have hlists := congrArg (fun registry : Registry => registry.schemas.map fun schema =>
    schema.classes.map Class.name) heq
  have hnamed : ∀ registry : Registry, (registry.outline.schemas.map fun schema =>
      schema.classes.map Class.name) = registry.schemas.map fun schema =>
        schema.classes.map Class.name := by
    intro registry
    show (registry.schemas.map Schema.outline).map _ = _
    rw [List.map_map]
    refine List.map_congr_left fun schema _ => ?_
    show (schema.classes.map Class.outline).map Class.name = _
    rw [List.map_map]
    rfl
  rw [hnamed, hnamed, hnames, hbefore] at hlists
  exact absurd hlists (by decide)

end Registry

end ApiModel
