import ApiModel.Storage.Build

/-!
Edits: everything that may be done to a registry, with what it does in storage beside it.
-/

namespace ApiModel

/-- A change of a class in its place. -/
inductive ClassEdit where
  | setUnionParent (parent : String)
  | rename (name : String)

/-- The class after a change. -/
def Class.apply (c : Class) : ClassEdit → Class
  | .setUnionParent parent => c.setUnionParent parent
  | .rename name => { c with name }

/-- A change of one schema. Classes of any reference may be added. -/
inductive SchemaEdit where
  | addClass (c : Class)
  | removeClass (reference : String)
  | changeClass (reference : String) (edit : ClassEdit)
  | recordRelations (c : Class)
  | addOperation (operation : Operation)
  | setParsed (root : Document)
  | setNeeded (needed : List String)

/-- The schema after a change. -/
def Schema.apply (schema : Schema) : SchemaEdit → Schema
  | .addClass c => schema.addClass c
  | .removeClass reference => schema.removeClass reference
  | .changeClass reference edit => schema.modifyClass reference (·.apply edit)
  | .recordRelations c => schema.recordRelations c
  | .addOperation operation => schema.addOperation operation
  | .setParsed root => { schema with parsed := some root }
  | .setNeeded needed => { schema with needed }

/-- The shelf after a change. -/
def Shelf.apply (shelf : Shelf) : SchemaEdit → Shelf
  | .addClass c => shelf.addClass c
  | .removeClass reference => shelf.removeClass reference
  | .changeClass reference edit => shelf.changeClass reference (·.apply edit)
  | .recordRelations c => shelf.recordRelations c
  | .addOperation operation => shelf.addOperation operation
  | .setParsed root => { shelf with parsed := some root }
  | .setNeeded needed => { shelf with needed }

/-- A change of a registry. -/
inductive Edit where
  /-- Starts afresh with an empty schema for each origin. -/
  | ofOrigins (origins : List String) (rootName : String)
  /-- Adds a schema that was put together before. -/
  | addSchema (origin rootName : String) (edits : List SchemaEdit)
  /-- Changes the schema of an origin. -/
  | editSchema (origin : String) (edit : SchemaEdit)
  /-- Changes the class that a reference finds. -/
  | changeClass (reference : String) (edit : ClassEdit)
  | setWhitelist (paths : List String)
  /-- Looks for classes; what was found before an error stays. -/
  | discover (spell : Text.Spelling) (rules : List ClassRule) (seed : Seed)
  /-- The same, with one rule to begin with. -/
  | discoverBy (spell : Text.Spelling) (rule : ClassRule) (rules : List ClassRule) (seed : Seed)
  | hydrate
  | prune
  /-- Builds a copy, and goes on with what that gives unless it fails. -/
  | build (load : Loader) (rules : Rules)

/-- Whether a change puts another schema in the place of that of an origin. -/
def Edit.replaces (origin : String) : Edit → Bool
  | .addSchema added _ _ => added = origin
  | _ => false

/-- The registry after a change. -/
def Registry.apply (registry : Registry) : Edit → Registry
  | .ofOrigins origins rootName => .ofOrigins origins rootName
  | .addSchema origin rootName edits =>
    registry.addSchema (edits.foldl Schema.apply { origin, rootName })
  | .editSchema origin edit => registry.modifySchema origin (·.apply edit)
  | .changeClass reference edit => registry.modifyClass reference (·.apply edit)
  | .setWhitelist paths => registry.setWhitelist paths
  | .discover spell rules seed => (ApiModel.discover spell rules registry seed).registry
  | .discoverBy spell rule rules seed => (rule.discover spell rules registry seed).registry
  | .hydrate => registry.hydrate.1
  | .prune => registry.prune
  | .build load rules =>
    match registry.build load rules with
    | .ok built => built
    | .error _ => registry

/-- The registry after some changes of an empty one. -/
def Registry.run (edits : List Edit) : Registry := edits.foldl Registry.apply {}

/-- The storage after a change. -/
def Storage.apply (storage : Storage) : Edit → Storage
  | .ofOrigins origins rootName => .ofOrigins origins rootName
  | .addSchema origin rootName edits =>
    storage.addShelf (edits.foldl Shelf.apply { origin, rootName })
  | .editSchema origin edit => storage.changeShelf origin (·.apply edit)
  | .changeClass reference edit => storage.changeClass reference (·.apply edit)
  | .setWhitelist paths => storage.setWhitelist paths
  | .discover spell rules seed => (storage.discover spell rules seed).storage
  | .discoverBy spell rule rules seed =>
    (Storage.discoverBy spell rule rules storage seed).storage
  | .hydrate => storage.hydrate
  | .prune => storage.prune
  | .build load rules =>
    let built := storage.build load rules
    if built.failure.isNone then built.storage else storage

/-- The storage after some changes of an empty one. -/
def Storage.run (edits : List Edit) : Storage := edits.foldl Storage.apply {}

end ApiModel
