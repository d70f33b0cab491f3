import ApiModel.Proofs.Registry.Likeness
import ApiModel.Proofs.Registry.Placement
import ApiModel.Registry.Build

/-!
# Giving all classes their members

While the classes get their members one after another, the registry changes. What is written is never
what is read: each class is looked up by its reference, and what is found gets the members that the registry
at the beginning gives it. So the loop over all schemas and classes is one traversal of the schemas
(`Distinct.resolveClasses`). In a placed registry a class finds itself, and all that changes are members and
recorded relations (`Placed.resolveClasses`, `Placed.outline_of_resolveClasses`).
-/

namespace ApiModel

/-! ## What stays -/

/-- A class without its members. -/
def Class.outline (c : Class) : Class := { c with properties := [], extensionTypes := [] }

/-- A schema without the members of its classes and the relations that follow from them. -/
def Schema.outline (schema : Schema) : Schema :=
  { schema with classes := schema.classes.map Class.outline, relations := [] }

/-- A registry without the members of its classes. -/
def Registry.outline (registry : Registry) : Registry :=
  { registry with schemas := registry.schemas.map Schema.outline }

theorem Schema.class?_outline (schema : Schema) (reference : String) :
    schema.outline.class? reference = (schema.class? reference).map Class.outline :=
  Keyed.get?_map (fun _ => rfl) reference schema.classes

theorem Schema.hasClass_outline (schema : Schema) (reference : String) :
    schema.outline.hasClass reference = schema.hasClass reference := by
  rw [hasClass, class?_outline, Option.isSome_map]
  rfl

namespace Registry

theorem owner?_outline (registry : Registry) (reference : String) :
    registry.outline.owner? reference = (registry.owner? reference).map Schema.outline :=
  registry.owner?_map (f := Schema.outline) reference
    fun schema => ⟨rfl, schema.hasClass_outline reference⟩

theorem class?_outline (registry : Registry) (reference : String) :
    registry.outline.class? reference = (registry.class? reference).map Class.outline := by
  rw [class?, class?, owner?_outline]
  cases registry.owner? reference with
  | none => rfl
  | some schema => exact schema.class?_outline reference

theorem node?_outline (registry : Registry) (reference : String) :
    registry.outline.node? reference = registry.node? reference :=
  registry.node?_map (f := Schema.outline) (fun _ => ⟨rfl, rfl⟩) reference

theorem targets_outline (registry : Registry) : registry.outline.targets = registry.targets := by
  unfold targets outline
  rw [List.flatMap_map]
  rfl

/-- Registries with one outline are alike in all that members are read from. -/
theorem alike_of_outline_eq {a b : Registry} (h : a.outline = b.outline) : a.Alike b where
  name reference := by
    have hclass := congrArg (Option.map Class.name) (congrArg (·.class? reference) h)
    simp only [class?_outline, Option.map_map] at hclass
    exact hclass
  node reference := by rw [← node?_outline a, h, node?_outline]
  target reference := by rw [← targets_outline a, h, targets_outline]

theorem placed_outline_iff {registry : Registry} : registry.outline.Placed ↔ registry.Placed := by
  have horigins : registry.outline.schemas.map Schema.origin =
      registry.schemas.map Schema.origin := by
    show (registry.schemas.map Schema.outline).map Schema.origin = _
    rw [List.map_map]
    rfl
  have hreferences : ∀ schema : Schema, schema.outline.classes.map Class.reference =
      schema.classes.map Class.reference := by
    intro schema
    show (schema.classes.map Class.outline).map Class.reference = _
    rw [List.map_map]
    rfl
  constructor
  · intro h
    refine ⟨horigins ▸ h.nodup, fun schema hschema => ?_⟩
    have hhoused := h.housed schema.outline (List.mem_map_of_mem hschema)
    exact ⟨hreferences schema ▸ hhoused.nodup,
      fun c hc => hhoused.home c.outline (List.mem_map_of_mem hc)⟩
  · intro h
    apply h.map
    intro schema hschema
    have hhoused := h.housed schema hschema
    refine ⟨rfl, (hreferences schema).symm ▸ hhoused.nodup, fun c hc => ?_⟩
    obtain ⟨before, hbefore, rfl⟩ := List.mem_map.1 hc
    exact hhoused.home before hbefore

theorem placed_of_outline_eq {a b : Registry} (h : a.outline = b.outline) (hb : b.Placed) :
    a.Placed := by
  rw [← placed_outline_iff, h, placed_outline_iff]
  exact hb

end Registry

/-! ## One class, one schema, all schemas -/

theorem Class.outline_of_resolve {c resolved : Class} {rules : Rules} {registry : Registry}
    (h : c.resolve rules registry = .ok resolved) : resolved.outline = c.outline := by
  obtain ⟨properties, _, h⟩ := Traversal.bind_eq_ok.1 h
  obtain ⟨extensionTypes, _, h⟩ := Traversal.bind_eq_ok.1 h
  cases h
  rfl

theorem Class.reference_of_resolve {c resolved : Class} {rules : Rules} {registry : Registry}
    (h : c.resolve rules registry = .ok resolved) : resolved.reference = c.reference := by
  show resolved.outline.reference = c.outline.reference
  rw [outline_of_resolve h]

theorem Class.map_outline_of_mapM_resolve {classes resolved : List Class} {rules : Rules}
    {registry : Registry} (h : classes.mapM (·.resolve rules registry) = .ok resolved) :
    resolved.map Class.outline = classes.map Class.outline :=
  Traversal.map_eq_of_mapM (fun _ _ hstep => outline_of_resolve hstep) h

/-- Recording relations changes nothing but relations. -/
theorem Schema.foldl_recordRelations (classes : List Class) (schema : Schema) :
    classes.foldl recordRelations schema =
      { schema with relations := (classes.foldl recordRelations schema).relations } := by
  induction classes generalizing schema with
  | nil => rfl
  | cons c rest ih =>
    rw [List.foldl_cons, ih]
    rfl

/-- Recording relations does not read the classes. -/
theorem Schema.foldl_recordRelations_classes (resolved classes : List Class) (schema : Schema) :
    resolved.foldl recordRelations { schema with classes } =
      { resolved.foldl recordRelations schema with classes } := by
  induction resolved generalizing schema with
  | nil => rfl
  | cons c rest ih => exact ih (schema.recordRelations c)

/-- The schema with the members of its classes, read from a registry, and with their relations. -/
def Schema.resolve (rules : Rules) (registry : Registry) (schema : Schema) :
    Except Error Schema := do
  let classes ← schema.classes.mapM (·.resolve rules registry)
  return { classes.foldl recordRelations schema with classes }

theorem Schema.outline_of_resolve {schema resolved : Schema} {rules : Rules}
    {registry : Registry} (h : schema.resolve rules registry = .ok resolved) :
    resolved.outline = schema.outline := by
  obtain ⟨classes, hclasses, h⟩ := Traversal.bind_eq_ok.1 h
  cases h
  unfold outline
  rw [foldl_recordRelations]
  simp only [Class.map_outline_of_mapM_resolve hclasses]

/-! ## Recorded relations -/

/-- The relations that are recorded for a class hold all that its members give. -/
def Schema.Records (schema : Schema) (c : Class) : Prop :=
  ∃ known, schema.relations? c.reference = some known ∧ ∀ reference ∈ c.relations, reference ∈ known

theorem Schema.relations?_recordRelations (schema : Schema) (c : Class) :
    (schema.recordRelations c).relations? c.reference =
      some (c.relations.foldl (fun set reference => Keyed.addNew reference set)
        ((schema.relations? c.reference).getD [])) := by
  unfold recordRelations relations?
  dsimp only
  rw [Keyed.get?_put_self Prod.fst (c.reference, _)]
  rfl

theorem Schema.relations?_recordRelations_of_ne {c : Class} {reference : String}
    (hne : c.reference ≠ reference) (schema : Schema) :
    (schema.recordRelations c).relations? reference = schema.relations? reference := by
  unfold recordRelations relations?
  dsimp only
  rw [Keyed.get?_put_of_ne (x := (c.reference, _)) hne]

theorem Schema.records_recordRelations (schema : Schema) (c : Class) :
    (schema.recordRelations c).Records c := by
  refine ⟨_, schema.relations?_recordRelations c, fun reference hmem => ?_⟩
  exact (Keyed.mem_foldl_addNew _ _).2 (Or.inr hmem)

/-- What is recorded for a class stays recorded. -/
theorem Schema.Records.recordRelations {schema : Schema} {c : Class} (h : schema.Records c)
    (other : Class) : (schema.recordRelations other).Records c := by
  obtain ⟨known, hknown, hmem⟩ := h
  by_cases href : other.reference = c.reference
  · have hall := schema.relations?_recordRelations other
    rw [href, hknown] at hall
    refine ⟨_, hall, fun reference hrelation => ?_⟩
    exact (Keyed.mem_foldl_addNew _ _).2 (Or.inl (hmem reference hrelation))
  · exact ⟨known, by rw [relations?_recordRelations_of_ne href, hknown], hmem⟩

theorem Schema.records_foldl_recordRelations {c : Class} {classes : List Class} {schema : Schema}
    (h : schema.Records c ∨ c ∈ classes) : (classes.foldl Schema.recordRelations schema).Records c := by
  induction classes generalizing schema with
  | nil => exact h.resolve_right List.not_mem_nil
  | cons other rest ih =>
    rw [List.foldl_cons]
    apply ih
    rcases h with h | h
    · exact Or.inl (h.recordRelations other)
    · rcases List.mem_cons.1 h with rfl | h
      · exact Or.inl (schema.records_recordRelations c)
      · exact Or.inr h

/-- A schema whose classes have got their members records all their relations. -/
theorem Schema.records_of_resolve {schema resolved : Schema} {rules : Rules} {registry : Registry}
    (h : schema.resolve rules registry = .ok resolved) {c : Class} (hc : c ∈ resolved.classes) :
    resolved.Records c := by
  obtain ⟨classes, _, h⟩ := Traversal.bind_eq_ok.1 h
  cases h
  have hrecords : (classes.foldl Schema.recordRelations schema).Records c :=
    records_foldl_recordRelations (Or.inr hc)
  exact hrecords

/-! ## What is read while members are written -/

/-- The schema with a class written over the one of its reference, and its relations recorded. -/
def Schema.write (resolved : Class) (schema : Schema) : Schema :=
  (schema.recordRelations resolved).modifyClass resolved.reference fun _ => resolved

namespace Schema

variable (resolved : Class) (schema : Schema)

theorem references_write : (schema.write resolved).references = schema.references :=
  (schema.recordRelations resolved).references_modifyClass fun _ _ => rfl

theorem hasClass_write (reference : String) :
    (schema.write resolved).hasClass reference = schema.hasClass reference :=
  (schema.recordRelations resolved).hasClass_modifyClass (fun _ _ => rfl) reference

theorem class?_write {schema : Schema} (hnodup : schema.references.Nodup) (reference : String) :
    (schema.write resolved).class? reference =
      (schema.class? reference).map fun c =>
        if c.reference = resolved.reference then resolved else c := by
  show Keyed.get? Class.reference reference
    (Keyed.modify Class.reference resolved.reference (fun _ => resolved) schema.classes) = _
  rw [Keyed.modify_eq_map hnodup]
  refine Keyed.get?_map (fun c => ?_) reference schema.classes
  split
  · next href => exact href.symm
  · rfl

end Schema

namespace Registry

/-- The class that the reference of a class finds. -/
def found (registry : Registry) (c : Class) : Class := (registry.class? c.reference).getD c

/-- Writes a class and its relations into the schema of an origin. -/
def writeBack (registry : Registry) (origin : String) (resolved : Class) : Registry :=
  registry.modifySchema origin (Schema.write resolved)

/-- Every reference finds in `now` what it finds in `registry`, members apart, and the documents of the two
are the same. -/
structure Remembers (now registry : Registry) : Prop where
  distinct : now.Distinct
  outline : ∀ reference,
    (now.class? reference).map Class.outline = (registry.class? reference).map Class.outline
  node : ∀ reference, now.node? reference = registry.node? reference
  targets : now.targets = registry.targets

variable {rules : Rules} {registry now : Registry}

theorem Distinct.remembers (h : registry.Distinct) : registry.Remembers registry :=
  ⟨h, fun _ => rfl, fun _ => rfl, rfl⟩

/-- A class that is written back takes the place of one of its reference. -/
theorem Distinct.writeBack_eq (h : now.Distinct) {schema : Schema} {done todo : List Schema}
    (hschemas : now.schemas = done ++ schema :: todo) {c : Class} {finished waiting : List Class}
    (hclasses : schema.classes = finished ++ c :: waiting) {resolved : Class}
    (href : resolved.reference = c.reference) :
    now.writeBack schema.origin resolved =
      { now with
        schemas := done ++ { schema.recordRelations resolved with
          classes := finished ++ resolved :: waiting } :: todo } := by
  have hmem : schema ∈ now.schemas := by
    rw [hschemas]
    exact List.mem_append_right _ List.mem_cons_self
  have hbefore : ∀ s ∈ done, s.origin ≠ schema.origin := by
    have horigins := h.origins
    rw [hschemas] at horigins
    exact fun s hs => Keyed.ne_of_mem_before horigins hs
  have hearlier : ∀ d ∈ finished, d.reference ≠ c.reference := by
    have hreferences := h.references schema hmem
    rw [hclasses] at hreferences
    exact fun d hd => Keyed.ne_of_mem_before hreferences hd
  -- the schema and the class are changed where they stand
  have hwrite : schema.write resolved =
      { schema.recordRelations resolved with classes := finished ++ resolved :: waiting } := by
    show { schema.recordRelations resolved with
      classes := Keyed.modify Class.reference resolved.reference (fun _ => resolved)
        schema.classes } = _
    rw [hclasses, href, Keyed.modify_append_cons hearlier rfl]
  rw [writeBack, Registry.modifySchema, hschemas, Keyed.modify_append_cons hbefore rfl, hwrite]

section WriteBack

variable (h : now.Distinct) (origin : String) (resolved : Class)
include h

theorem Distinct.writeBack_eq_map :
    now.writeBack origin resolved =
      { now with
        schemas := now.schemas.map fun schema =>
          if schema.origin = origin then schema.write resolved else schema } :=
  h.modifySchema_eq origin (Schema.write resolved)

theorem Distinct.owner?_writeBack (reference : String) :
    (now.writeBack origin resolved).owner? reference =
      (now.owner? reference).map fun schema =>
        if schema.origin = origin then schema.write resolved else schema := by
  rw [h.writeBack_eq_map]
  refine now.owner?_map reference fun schema => ?_
  split
  · exact ⟨rfl, schema.hasClass_write resolved reference⟩
  · exact ⟨rfl, rfl⟩

/-- A reference finds the class that is written, if it is that of the class and has its home in the schema
that is written into. -/
theorem Distinct.class?_writeBack (reference : String) :
    (now.writeBack origin resolved).class? reference =
      (now.class? reference).map fun c =>
        if now.home? reference = some origin ∧ c.reference = resolved.reference then resolved else c := by
  rw [class?, class?, home?, h.owner?_writeBack]
  cases howner : now.owner? reference with
  | none => rfl
  | some owner =>
    simp only [Option.map_some, Option.bind_some, Option.some.injEq]
    split
    · next horigin =>
      rw [Schema.class?_write resolved (h.references owner (mem_of_owner? howner).1)]
      simp only [horigin, true_and]
    · next horigin => simp only [horigin, false_and, if_false, Option.map_id']

theorem Distinct.node?_writeBack (reference : String) :
    (now.writeBack origin resolved).node? reference = now.node? reference := by
  rw [h.writeBack_eq_map]
  refine now.node?_map (fun schema => ?_) reference
  split
  · exact ⟨rfl, rfl⟩
  · exact ⟨rfl, rfl⟩

theorem Distinct.targets_writeBack : (now.writeBack origin resolved).targets = now.targets := by
  rw [h.writeBack_eq_map]
  unfold Registry.targets
  rw [List.flatMap_map]
  refine List.flatMap_congr fun schema _ => ?_
  split
  · rfl
  · rfl

theorem Distinct.distinct_writeBack : (now.writeBack origin resolved).Distinct :=
  h.modifySchema (fun _ => rfl) fun schema hnodup => (schema.references_write resolved).symm ▸ hnodup

end WriteBack

namespace Remembers

variable (h : now.Remembers registry)
include h

/-- What members are read from is remembered. -/
theorem alike : now.Alike registry where
  name reference := by
    have hname := congrArg (Option.map Class.name) (h.outline reference)
    rw [Option.map_map, Option.map_map] at hname
    exact hname
  node := h.node
  target reference := by rw [h.targets]

theorem outline_eq {c d : Class} (hclass : now.class? c.reference = some d) :
    d.outline = (registry.found c).outline := by
  have houtline := h.outline c.reference
  rw [hclass, Option.map_some, eq_comm, Option.map_eq_some_iff] at houtline
  obtain ⟨found, hfound, heq⟩ := houtline
  rw [Registry.found, hfound, Option.getD_some, heq]

/-- The members of a class are those that its outline gives it in the registry at the beginning. -/
theorem resolve_eq {c d : Class} (hclass : now.class? c.reference = some d) :
    d.resolve rules now = (registry.found c).resolve rules registry := by
  rw [h.alike.resolve]
  show d.outline.resolve rules registry = (registry.found c).outline.resolve rules registry
  rw [h.outline_eq hclass]

/-- A class that is written into any schema is remembered, if it has the outline of the class that is found
by its reference. -/
theorem writeBack {c resolved : Class} (hclass : now.class? resolved.reference = some c)
    (houtline : resolved.outline = c.outline) (origin : String) :
    (now.writeBack origin resolved).Remembers registry where
  distinct := h.distinct.distinct_writeBack origin resolved
  outline := by
    intro reference
    rw [← h.outline reference, h.distinct.class?_writeBack]
    cases hfound : now.class? reference with
    | none => rfl
    | some d =>
      rw [Option.map_some, Option.map_some, Option.map_some]
      split
      · next hwritten =>
        obtain ⟨-, -, -, href⟩ := mem_of_class? hfound
        rw [← hwritten.2, href, hfound] at hclass
        rw [houtline, Option.some.inj hclass]
      · rfl
  node := fun reference => (h.distinct.node?_writeBack origin resolved reference).trans (h.node reference)
  targets := (h.distinct.targets_writeBack origin resolved).trans h.targets

end Remembers

/-! ## All classes -/

/-- A class that is found gets its members, and it is written into the schema of the origin. -/
theorem resolveClass_of_class? {origin reference : String} {c : Class}
    (hclass : now.class? reference = some c) {schema : Schema}
    (hschema : now.schema? origin = some schema) :
    resolveClass rules origin now reference = (c.resolve rules now).map (now.writeBack origin) := by
  obtain ⟨-, -, -, href⟩ := mem_of_class? hclass
  unfold resolveClass
  rw [hclass]
  cases hresolve : c.resolve rules now with
  | error error =>
    simp only [hresolve]
    rfl
  | ok resolved =>
    simp only [hresolve, hschema]
    show Except.ok (modifySchema _ _ _) = Except.ok (modifySchema _ _ (Schema.write resolved))
    unfold Schema.write
    rw [Class.reference_of_resolve hresolve, href]

theorem Remembers.resolveClass (h : now.Remembers registry) {origin reference : String}
    {next : Registry} (hnext : resolveClass rules origin now reference = .ok next) :
    next.Remembers registry := by
  cases hclass : now.class? reference with
  | none =>
    unfold Registry.resolveClass at hnext
    rw [hclass] at hnext
    cases hnext
    exact h
  | some c =>
    cases hschema : now.schema? origin with
    | none =>
      unfold Registry.resolveClass at hnext
      rw [hclass] at hnext
      obtain ⟨_, _, hnext⟩ := Traversal.bind_eq_ok.1 hnext
      rw [hschema] at hnext
      cases hnext
    | some schema =>
      rw [resolveClass_of_class? hclass hschema] at hnext
      obtain ⟨resolved, hresolve, rfl⟩ := Traversal.map_eq_ok.1 hnext
      have href : resolved.reference = reference := by
        obtain ⟨-, -, -, href⟩ := mem_of_class? hclass
        rw [Class.reference_of_resolve hresolve, href]
      exact h.writeBack (href ▸ hclass) (Class.outline_of_resolve hresolve) origin

theorem Remembers.of_resolveSchema (h : now.Remembers registry) {origin : String} {next : Registry}
    (hnext : resolveSchema rules now origin = .ok next) : next.Remembers registry :=
  Traversal.foldlM_preserves (P := (Remembers · registry)) (fun _ _ _ _ h hstep => h.resolveClass hstep)
    h hnext

end Registry

/-- The schema with what its references find in place of its classes, with members that are read from a
registry, and with their relations. -/
def Schema.resolveFound (rules : Rules) (registry : Registry) (schema : Schema) :
    Except Error Schema := do
  let classes ← schema.classes.mapM fun c => (registry.found c).resolve rules registry
  return { classes.foldl recordRelations schema with classes }

namespace Registry

variable {rules : Rules} {registry : Registry}

/-- The classes of a schema that are still waiting get what their references find in the registry at the
beginning, however many others have theirs already. -/
theorem Remembers.foldlM_resolveClass {done todo : List Schema} (waiting : List Class) (schema : Schema)
    (finished : List Class) (hclasses : schema.classes = finished ++ waiting)
    (h : Remembers { registry with schemas := done ++ schema :: todo } registry) :
    (waiting.map Class.reference).foldlM (Registry.resolveClass rules schema.origin)
        { registry with schemas := done ++ schema :: todo } =
      (waiting.mapM fun c : Class => (registry.found c).resolve rules registry).map fun resolved =>
        { registry with
          schemas := done ++ { resolved.foldl Schema.recordRelations schema with
            classes := finished ++ resolved } :: todo } := by
  induction waiting generalizing schema finished with
  | nil =>
    show Except.ok { registry with schemas := done ++ schema :: todo } =
      Except.ok { registry with
        schemas := done ++ { schema with classes := finished ++ [] } :: todo }
    rw [← hclasses]
  | cons c waiting ih =>
    have hschema : schema ∈ done ++ schema :: todo := List.mem_append_right _ List.mem_cons_self
    have hc : c ∈ schema.classes := by
      rw [hclasses]
      exact List.mem_append_right _ List.mem_cons_self
    have hhas : Registry.hasClass { registry with schemas := done ++ schema :: todo } c.reference :=
      hasClass_iff.2 ⟨schema, hschema, c, hc, rfl⟩
    obtain ⟨d, hclass⟩ := Option.isSome_iff_exists.1 hhas
    rw [List.map_cons, List.foldlM_cons,
      resolveClass_of_class? hclass (h.distinct.schema?_origin hschema), h.resolve_eq hclass,
      List.mapM_cons]
    cases hresolve : (registry.found c).resolve rules registry with
    | error error => rfl
    | ok resolved =>
      have houtline : resolved.outline = d.outline :=
        (Class.outline_of_resolve hresolve).trans (h.outline_eq hclass).symm
      obtain ⟨-, -, -, hd⟩ := mem_of_class? hclass
      have href : resolved.reference = c.reference := (congrArg Class.reference houtline).trans hd
      have hwritten := h.distinct.writeBack_eq rfl hclasses href
      have hlater := h.writeBack (href.symm ▸ hclass) houtline schema.origin
      rw [hwritten] at hlater
      -- the induction goes on with the class among those that are finished
      have hnext := ih { schema.recordRelations resolved with
          classes := finished ++ resolved :: waiting } (finished ++ [resolved])
        (by rw [List.append_assoc]; rfl) hlater
      show List.foldlM _ (Registry.writeBack _ _ _) _ = _
      rw [hwritten, show schema.origin = { schema.recordRelations resolved with
          classes := finished ++ resolved :: waiting }.origin from rfl, hnext]
      show Except.map _ _ = Except.map _ (waiting.mapM _ >>= _)
      cases waiting.mapM fun c => (registry.found c).resolve rules registry with
      | error error => rfl
      | ok rest =>
        refine congrArg (fun s : Schema =>
          Except.ok { registry with schemas := done ++ s :: todo }) ?_
        dsimp only
        rw [Schema.foldl_recordRelations_classes, List.append_assoc]
        rfl

/-- Resolving one schema changes that schema alone. -/
theorem Remembers.resolveSchema {done todo : List Schema} {schema : Schema}
    (h : Remembers { registry with schemas := done ++ schema :: todo } registry) :
    Registry.resolveSchema rules { registry with schemas := done ++ schema :: todo }
        schema.origin =
      (schema.resolveFound rules registry).map fun resolved =>
        { registry with schemas := done ++ resolved :: todo } := by
  have hschema := h.distinct.schema?_origin (List.mem_append_right done List.mem_cons_self)
  unfold Registry.resolveSchema
  rw [hschema]
  show (schema.classes.map Class.reference).foldlM _ _ = _
  rw [foldlM_resolveClass schema.classes schema [] rfl h]
  show _ = Except.map _ (schema.classes.mapM _ >>= _)
  cases schema.classes.mapM fun c : Class => (registry.found c).resolve rules registry with
  | error error => rfl
  | ok resolved => rfl

/-- Every class makes way for what its reference finds, with the members that the registry at the beginning
gives it. -/
theorem Distinct.resolveClasses (h : registry.Distinct) :
    registry.resolveClasses rules =
      (registry.schemas.mapM (Schema.resolveFound rules registry)).map fun schemas =>
        { registry with schemas } := by
  refine Traversal.foldlM_eq_mapM (fun schemas => { registry with schemas })
    (fun now => now.Remembers registry) registry.schemas []
    (fun done schema todo _ hnow => hnow.resolveSchema) ?_ h.remembers
  intro done schema todo resolved _ hnow hresolve
  have hstep : Registry.resolveSchema rules { registry with schemas := done ++ schema :: todo }
      schema.origin = .ok { registry with schemas := done ++ resolved :: todo } := by
    rw [hnow.resolveSchema, hresolve]
    rfl
  exact hnow.of_resolveSchema hstep

/-- In a placed registry a class is what its reference finds. -/
theorem Placed.found_eq (h : registry.Placed) {schema : Schema} (hschema : schema ∈ registry.schemas)
    {c : Class} (hc : c ∈ schema.classes) : registry.found c = c := by
  rw [found, h.class?_eq_some_iff.2 ⟨schema, hschema, hc, rfl⟩, Option.getD_some]

/-- All classes get the members that the registry at the beginning gives them. -/
theorem Placed.resolveClasses (h : registry.Placed) :
    registry.resolveClasses rules =
      (registry.schemas.mapM (Schema.resolve rules registry)).map fun schemas =>
        { registry with schemas } := by
  have hschema : ∀ schema ∈ registry.schemas,
      schema.resolveFound rules registry = schema.resolve rules registry := by
    intro schema hschema
    unfold Schema.resolveFound Schema.resolve
    rw [Traversal.mapM_congr fun c hc => by rw [h.found_eq hschema hc]]
  rw [h.distinct.resolveClasses, Traversal.mapM_congr hschema]

theorem Placed.outline_of_resolveClasses (h : registry.Placed) {resolved : Registry}
    (hresolve : registry.resolveClasses rules = .ok resolved) :
    resolved.outline = registry.outline := by
  rw [h.resolveClasses] at hresolve
  obtain ⟨schemas, hschemas, rfl⟩ := Traversal.map_eq_ok.1 hresolve
  have houtline : schemas.map Schema.outline = registry.schemas.map Schema.outline :=
    Traversal.map_eq_of_mapM (fun _ _ hstep => Schema.outline_of_resolve hstep) hschemas
  simp only [outline, houtline]

end Registry

end ApiModel
