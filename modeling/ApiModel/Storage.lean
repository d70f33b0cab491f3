import ApiModel.Registry

/-!
Storage: a registry in which everything stands under a key of its own, kept beside the value. A value
is put under the key that it is given, found and changed by that key, and whether the value still
names the key does not matter to any of this.
-/

namespace ApiModel

/-- Values in order, each under a key. -/
abbrev Slots (α : Type) := List (String × α)

namespace Slots

variable {α : Type}

/-- The keys, in order. -/
def keys (slots : Slots α) : List String := slots.map Prod.fst

/-- The values, in order. -/
def values (slots : Slots α) : List α := slots.map Prod.snd

/-- The value under a key. -/
def at? (slots : Slots α) (key : String) : Option α := (Keyed.get? Prod.fst key slots).map Prod.snd

/-- Puts a value under a key: in the place of the value there, or at the end. -/
def store (slots : Slots α) (key : String) (x : α) : Slots α := Keyed.put Prod.fst (key, x) slots

/-- Changes the value under a key, if there is one. The key stays. -/
def change (slots : Slots α) (key : String) (f : α → α) : Slots α :=
  Keyed.modify Prod.fst key (fun slot => (slot.1, f slot.2)) slots

/-- Drops the value under a key; the others keep their order. -/
def remove (slots : Slots α) (key : String) : Slots α := Keyed.erase Prod.fst key slots

end Slots

/-- A schema whose classes stand under keys. -/
structure Shelf where
  /-- The path or URL of the document. -/
  origin : String
  /-- The name of its root. -/
  rootName : String
  /-- The root node, once it has been read. -/
  parsed : Option Document := none
  classes : Slots Class := []
  operations : List Operation := []
  /-- Under the reference of a class, the references of the classes it needs. -/
  relations : Slots (List String) := []
  /-- The references that the whitelisted operations need. -/
  needed : List String := []
  deriving Inhabited

namespace Shelf

/-- The shelf as a schema, without its keys. -/
def schema (shelf : Shelf) : Schema :=
  { shelf with classes := shelf.classes.values }

/-- The keys of the classes, in order. -/
def references (shelf : Shelf) : List String := shelf.classes.keys

/-- The class under a key. -/
def class? (shelf : Shelf) (reference : String) : Option Class := shelf.classes.at? reference

/-- Whether a class stands under a key. -/
def hasClass (shelf : Shelf) (reference : String) : Bool := (shelf.class? reference).isSome

/-- Puts a class under its reference, unless that is taken. -/
def addClass (shelf : Shelf) (c : Class) : Shelf :=
  if shelf.hasClass c.reference then shelf
  else { shelf with classes := shelf.classes.store c.reference c }

/-- Drops the class under a key. -/
def removeClass (shelf : Shelf) (reference : String) : Shelf :=
  { shelf with classes := shelf.classes.remove reference }

/-- Changes the class under a key, if there is one. -/
def changeClass (shelf : Shelf) (reference : String) (f : Class → Class) : Shelf :=
  { shelf with classes := shelf.classes.change reference f }

/-- The relations that are recorded under a key. -/
def relations? (shelf : Shelf) (reference : String) : Option (List String) :=
  shelf.relations.at? reference

/-- Adds an operation. -/
def addOperation (shelf : Shelf) (operation : Operation) : Shelf :=
  { shelf with operations := shelf.operations ++ [operation] }

/-- Records the relations of a class behind those that are recorded under its reference. -/
def recordRelations (shelf : Shelf) (c : Class) : Shelf :=
  let known := (shelf.relations.at? c.reference).getD []
  let all := c.relations.foldl (fun set reference => Keyed.addNew reference set) known
  { shelf with relations := shelf.relations.store c.reference all }

/-- Drops the classes whose keys are not kept, one after the other. -/
def sweep (kept : List String) (shelf : Shelf) : Shelf :=
  shelf.references.foldl
    (fun shelf reference => if reference ∈ kept then shelf else shelf.removeClass reference) shelf

end Shelf

/-- Shelves under keys, and the whitelisted paths. -/
structure Storage where
  shelves : Slots Shelf := []
  whitelist : List String := []
  deriving Inhabited

namespace Storage

/-- The storage as a registry, without its keys. -/
def registry (storage : Storage) : Registry :=
  { schemas := storage.shelves.values.map Shelf.schema, whitelist := storage.whitelist }

/-- The keys of the shelves, in order. -/
def origins (storage : Storage) : List String := storage.shelves.keys

/-- Puts a shelf under its origin. -/
def addShelf (storage : Storage) (shelf : Shelf) : Storage :=
  { storage with shelves := storage.shelves.store shelf.origin shelf }

/-- A shelf for each origin, all with one root name. -/
def ofOrigins (origins : List String) (rootName : String) : Storage :=
  origins.foldl (fun storage origin => storage.addShelf { origin, rootName }) {}

/-- Replaces the whitelisted paths; a repeated one counts once. -/
def setWhitelist (storage : Storage) (paths : List String) : Storage :=
  { storage with whitelist := paths.foldl (fun set path => Keyed.addNew path set) [] }

/-- The shelf under a key. -/
def shelf? (storage : Storage) (origin : String) : Option Shelf := storage.shelves.at? origin

/-- Changes the shelf under a key, if there is one. -/
def changeShelf (storage : Storage) (origin : String) (f : Shelf → Shelf) : Storage :=
  { storage with shelves := storage.shelves.change origin f }

/-- The shelf under the document of a reference. -/
def shelfOf? (storage : Storage) (reference : String) : Option Shelf :=
  storage.shelf? (Reference.document reference)

/-- The class under a reference: that of its own document's shelf, or of the first shelf with one. -/
def class? (storage : Storage) (reference : String) : Option Class :=
  ((storage.shelfOf? reference).bind (·.class? reference)).or
    (storage.shelves.values.findSome? (·.class? reference))

/-- Whether a class stands under a reference. -/
def hasClass (storage : Storage) (reference : String) : Bool := (storage.class? reference).isSome

/-- The key of the shelf that a class stands in. -/
def owner? (storage : Storage) (reference : String) : Option String :=
  if (storage.shelfOf? reference).any (·.hasClass reference) then some (Reference.document reference)
  else (storage.shelves.find? fun slot => slot.2.hasClass reference).map Prod.fst

/-- The class under a reference as it is found for a change: on the shelf that it stands in. -/
def classToChange? (storage : Storage) (reference : String) : Option Class :=
  (storage.owner? reference).bind fun origin => (storage.shelf? origin).bind (·.class? reference)

/-- Changes the class under a reference, if there is one. -/
def changeClass (storage : Storage) (reference : String) (f : Class → Class) : Storage :=
  match storage.owner? reference with
  | some origin => storage.changeShelf origin (·.changeClass reference f)
  | none => storage

/-- The relations that are recorded for a class on the shelf that it stands in. -/
def relations? (storage : Storage) (reference : String) : Option (List String) :=
  (storage.owner? reference).bind fun origin => (storage.shelf? origin).bind (·.relations? reference)

/-- The keys of the classes on the shelf under a key. -/
def references (storage : Storage) (origin : String) : List String :=
  ((storage.shelf? origin).map Shelf.references).getD []

end Storage

end ApiModel
