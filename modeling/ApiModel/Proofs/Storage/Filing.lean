import ApiModel.Proofs.Registry.Growth
import ApiModel.Storage.Edit

/-!
# Filing

A registry is filed by putting every schema under its origin and every class under its reference. What
storage does by key to a filed registry, the registry does by looking at the values, and leaves filed:
each operation has its equation here. The only thing asked of a change is that it keeps the origin of a
schema, or that it gives a class the reference that it is found under.
-/

namespace ApiModel

/-! ## Slots -/

/-- What is found first is found in the first element with anything to find. -/
theorem findSome?_eq_bind_find? {α β : Type} (f : α → Option β) (xs : List α) :
    xs.findSome? f = (xs.find? fun x => (f x).isSome).bind f := by
  induction xs with
  | nil => rfl
  | cons x xs ih =>
    rw [List.findSome?_cons, List.find?_cons, ih]
    cases hx : f x with
    | none => rfl
    | some y => exact hx.symm

namespace Slots

variable {α β : Type} {key : α → String} {g : α → β}

/-- What is made of each element, under the key of the element. -/
def fileBy (key : α → String) (g : α → β) (xs : List α) : Slots β := xs.map fun x => (key x, g x)

theorem keys_fileBy (xs : List α) : (fileBy key g xs).keys = xs.map key := by
  rw [keys, fileBy, List.map_map]
  rfl

theorem values_fileBy (xs : List α) : (fileBy key g xs).values = xs.map g := by
  rw [values, fileBy, List.map_map]
  rfl

theorem at?_fileBy (k : String) (xs : List α) :
    (fileBy key g xs).at? k = (Keyed.get? key k xs).map g := by
  have hkeys : ∀ x : α, (key x, g x).1 = key x := fun _ => rfl
  rw [at?, fileBy, Keyed.get?_map hkeys, Option.map_map]
  rfl

theorem store_fileBy (x : α) (xs : List α) :
    (fileBy key g xs).store (key x) (g x) = fileBy key g (Keyed.put key x xs) := by
  unfold store fileBy
  induction xs with
  | nil => rfl
  | cons y ys ih =>
    rw [List.map_cons, Keyed.put, Keyed.put, ih]
    split
    · rfl
    · rfl

theorem change_fileBy {k : String} {f : α → α} {f' : β → β}
    (hkey : ∀ x, key x = k → key (f x) = k) (hvalue : ∀ x, key x = k → g (f x) = f' (g x))
    (xs : List α) : (fileBy key g xs).change k f' = fileBy key g (Keyed.modify key k f xs) := by
  unfold change fileBy
  induction xs with
  | nil => rfl
  | cons x xs ih =>
    rw [List.map_cons, Keyed.modify, Keyed.modify, ih]
    by_cases hx : key x = k
    · simp only [hx, if_true, List.map_cons, hkey x hx, hvalue x hx]
    · simp only [hx, if_false, List.map_cons]

theorem remove_fileBy (k : String) (xs : List α) :
    (fileBy key g xs).remove k = fileBy key g (Keyed.erase key k xs) := by
  unfold remove fileBy
  induction xs with
  | nil => rfl
  | cons x xs ih =>
    rw [List.map_cons, Keyed.erase, Keyed.erase, ih]
    split
    · rfl
    · rfl

end Slots

/-- A schema with each class under its reference. -/
def Schema.filed (schema : Schema) : Shelf :=
  { schema with classes := Slots.fileBy Class.reference id schema.classes }

/-- A registry with each schema under its origin. -/
def Registry.filed (registry : Registry) : Storage where
  shelves := Slots.fileBy Schema.origin Schema.filed registry.schemas
  whitelist := registry.whitelist

/-! ## Schemas -/

namespace Schema

variable (schema : Schema)

theorem schema_filed : schema.filed.schema = schema := by
  rw [Shelf.schema, filed, Slots.values_fileBy, List.map_id]

theorem references_filed : schema.filed.references = schema.references :=
  Slots.keys_fileBy schema.classes

theorem class?_filed (reference : String) :
    schema.filed.class? reference = schema.class? reference := by
  rw [Shelf.class?, filed, Slots.at?_fileBy, Option.map_id]
  rfl

theorem hasClass_filed (reference : String) :
    schema.filed.hasClass reference = schema.hasClass reference := by
  rw [Shelf.hasClass, class?_filed]
  rfl

theorem filed_addClass (c : Class) : (schema.addClass c).filed = schema.filed.addClass c := by
  rw [Shelf.addClass, addClass, hasClass_filed]
  split
  · rfl
  · next hnew =>
    have hother : ∀ d ∈ schema.classes, d.reference ≠ c.reference := by
      intro d hd heq
      exact hnew (hasClass_iff.2 ⟨d, hd, heq⟩)
    have hstore : schema.filed.classes.store c.reference c =
        Slots.fileBy Class.reference id (schema.classes ++ [c]) := by
      rw [← Keyed.put_eq_append hother]
      exact Slots.store_fileBy c schema.classes
    rw [hstore]
    rfl

theorem filed_removeClass (reference : String) :
    (schema.removeClass reference).filed = schema.filed.removeClass reference := by
  have hremove : schema.filed.classes.remove reference =
      Slots.fileBy Class.reference id (Keyed.erase Class.reference reference schema.classes) :=
    Slots.remove_fileBy reference schema.classes
  rw [Shelf.removeClass, hremove]
  rfl

theorem filed_modifyClass {reference : String} {f : Class → Class}
    (hf : ∀ c, c.reference = reference → (f c).reference = reference) :
    (schema.modifyClass reference f).filed = schema.filed.changeClass reference f := by
  have hchange : schema.filed.classes.change reference f =
      Slots.fileBy Class.reference id (Keyed.modify Class.reference reference f schema.classes) :=
    Slots.change_fileBy hf (fun c _ => (rfl : id (f c) = f (id c))) schema.classes
  rw [Shelf.changeClass, hchange]
  rfl

theorem filed_recordRelations (c : Class) :
    (schema.recordRelations c).filed = schema.filed.recordRelations c := rfl

theorem filed_addOperation (operation : Operation) :
    (schema.addOperation operation).filed = schema.filed.addOperation operation := rfl

theorem filed_foldl_addOperation (operations : List Operation) :
    (operations.foldl addOperation schema).filed =
      operations.foldl Shelf.addOperation schema.filed := by
  induction operations generalizing schema with
  | nil => rfl
  | cons operation rest ih => rw [List.foldl_cons, List.foldl_cons, ih, filed_addOperation]

theorem filed_sweep (kept : List String) : (schema.sweep kept).1.filed = schema.filed.sweep kept := by
  rw [sweep, Shelf.sweep, references_filed]
  -- the count goes along, and no class that goes depends on it
  generalize schema.references = references
  generalize (0 : Nat) = removed
  induction references generalizing schema removed with
  | nil => rfl
  | cons reference rest ih =>
    rw [List.foldl_cons, List.foldl_cons]
    split
    · exact ih schema removed
    · rw [← filed_removeClass]
      exact ih _ _

end Schema

/-! ## Registries -/

namespace Registry

variable (registry : Registry)

theorem registry_filed : registry.filed.registry = registry := by
  have hschemas : registry.schemas.map (Shelf.schema ∘ Schema.filed) = registry.schemas :=
    (List.map_congr_left fun schema _ => schema.schema_filed).trans (List.map_id _)
  rw [Storage.registry, filed, Slots.values_fileBy, List.map_map, hschemas]

theorem whitelist_filed : registry.filed.whitelist = registry.whitelist := rfl

theorem origins_filed : registry.filed.origins = registry.origins :=
  Slots.keys_fileBy registry.schemas

theorem shelf?_filed (origin : String) :
    registry.filed.shelf? origin = (registry.schema? origin).map Schema.filed :=
  Slots.at?_fileBy origin registry.schemas

theorem shelfOf?_filed (reference : String) :
    registry.filed.shelfOf? reference = (registry.schemaOf? reference).map Schema.filed :=
  registry.shelf?_filed (Reference.document reference)

/-- The key of the shelf that a class stands in is the origin of the schema that owns it. -/
theorem owner?_filed (reference : String) :
    registry.filed.owner? reference = (registry.owner? reference).map Schema.origin := by
  have hscan : (registry.filed.shelves.find? fun slot => slot.2.hasClass reference).map Prod.fst =
      (registry.schemas.find? (·.hasClass reference)).map Schema.origin := by
    show ((registry.schemas.map fun schema => (schema.origin, schema.filed)).find? _).map _ = _
    rw [List.find?_map, Option.map_map]
    simp only [Function.comp_def, Schema.hasClass_filed]
  rw [Storage.owner?, shelfOf?_filed, hscan, owner?]
  cases hschema : registry.schemaOf? reference with
  | none => rfl
  | some schema =>
    rw [Option.map_some, Option.any_some, Schema.hasClass_filed, Option.filter_some]
    split
    · rw [Option.some_or, Option.map_some, (mem_of_schema? hschema).2]
    · rfl

/-- The class that is found by key is the one that is found by value. -/
theorem class?_filed (reference : String) :
    registry.filed.class? reference = registry.class? reference := by
  have hscan : registry.filed.shelves.values.findSome? (·.class? reference) =
      (registry.schemas.find? (·.hasClass reference)).bind (·.class? reference) := by
    rw [filed, Slots.values_fileBy, List.findSome?_map]
    simp only [Function.comp_def, Schema.class?_filed]
    exact findSome?_eq_bind_find? (·.class? reference) registry.schemas
  have hown : (registry.filed.shelfOf? reference).bind (·.class? reference) =
      ((registry.schemaOf? reference).filter (·.hasClass reference)).bind (·.class? reference) := by
    rw [shelfOf?_filed]
    cases hschema : registry.schemaOf? reference with
    | none => rfl
    | some schema =>
      rw [Option.map_some, Option.bind_some, Schema.class?_filed, Option.filter_some]
      cases hclass : schema.class? reference with
      | none => simp [Schema.hasClass, hclass]
      | some c => simp [Schema.hasClass, hclass]
  rw [Storage.class?, hscan, hown, class?, owner?]
  cases hfilter : (registry.schemaOf? reference).filter (·.hasClass reference) with
  | none => rfl
  | some schema =>
    have hhas : schema.hasClass reference := (Option.filter_eq_some_iff.1 hfilter).2
    obtain ⟨c, hc⟩ := Option.isSome_iff_exists.1 hhas
    rw [Option.some_or, Option.bind_some, hc, Option.some_or]

theorem hasClass_filed (reference : String) :
    registry.filed.hasClass reference = registry.hasClass reference := by
  rw [Storage.hasClass, class?_filed]
  rfl

theorem references_filed (origin : String) :
    registry.filed.references origin = registry.references origin := by
  rw [Storage.references, shelf?_filed, Option.map_map, references]
  simp only [Function.comp_def, Schema.references_filed]

theorem filed_addSchema (schema : Schema) :
    (registry.addSchema schema).filed = registry.filed.addShelf schema.filed := by
  have hstore : registry.filed.shelves.store schema.filed.origin schema.filed =
      Slots.fileBy Schema.origin Schema.filed (Keyed.put Schema.origin schema registry.schemas) :=
    Slots.store_fileBy schema registry.schemas
  rw [Storage.addShelf, hstore]
  rfl

theorem filed_ofOrigins (origins : List String) (rootName : String) :
    (ofOrigins origins rootName).filed = Storage.ofOrigins origins rootName := by
  have hfold : ∀ registry : Registry,
      (origins.foldl (fun registry origin => registry.addSchema { origin, rootName })
        registry).filed =
      origins.foldl (fun storage origin => storage.addShelf { origin, rootName })
        registry.filed := by
    induction origins with
    | nil => exact fun _ => rfl
    | cons origin rest ih =>
      intro registry
      rw [List.foldl_cons, List.foldl_cons, ih, filed_addSchema]
      rfl
  exact hfold {}

theorem filed_setWhitelist (paths : List String) :
    (registry.setWhitelist paths).filed = registry.filed.setWhitelist paths := rfl

theorem filed_modifySchema {origin : String} {f : Schema → Schema} {f' : Shelf → Shelf}
    (horigin : ∀ schema, (f schema).origin = schema.origin)
    (hfiled : ∀ schema, (f schema).filed = f' schema.filed) :
    (registry.modifySchema origin f).filed = registry.filed.changeShelf origin f' := by
  have hchange : registry.filed.shelves.change origin f' =
      Slots.fileBy Schema.origin Schema.filed
        (Keyed.modify Schema.origin origin f registry.schemas) :=
    Slots.change_fileBy (fun schema h => (horigin schema).trans h) (fun schema _ => hfiled schema)
      registry.schemas
  rw [Storage.changeShelf, hchange]
  rfl

theorem filed_modifyClass {reference : String} {f : Class → Class}
    (hf : ∀ c, (f c).reference = c.reference) :
    (registry.modifyClass reference f).filed = registry.filed.changeClass reference f := by
  rw [Storage.changeClass, owner?_filed, modifyClass]
  cases registry.owner? reference with
  | none => rfl
  | some schema =>
    exact registry.filed_modifySchema (fun _ => rfl) fun schema =>
      schema.filed_modifyClass fun c h => (hf c).trans h

end Registry

end ApiModel
