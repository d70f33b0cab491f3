import ApiModel.Registry.Build
import ApiModel.Storage

/-!
Building in storage: every pass changes the storage where it stands, and an error leaves behind what
was changed before it.
-/

namespace ApiModel

namespace Storage

/-- How far some changes came: the storage they left and the error that ended them, if one did. -/
structure Outcome where
  storage : Storage
  failure : Option Error := none
  deriving Inhabited

namespace Outcome

/-- Goes on with further changes, unless those before failed. -/
def andThen (outcome : Outcome) (next : Storage → Outcome) : Outcome :=
  match outcome.failure with
  | none => next outcome.storage
  | some _ => outcome

/-- Takes a step for each element in turn, until one fails. -/
def each {α : Type} (step : Storage → α → Outcome) (storage : Storage) : List α → Outcome
  | [] => { storage }
  | x :: xs => (step storage x).andThen fun storage => each step storage xs

end Outcome

/-! Finding classes. -/

/-- Records the operations of a root. A root without paths needs no shelf. -/
def enterRoot (storage : Storage) (seed : Seed) : Except Error (Storage × List Seed) :=
  let reference := seed.site.reference
  if (seed.site.node.entriesAt? "paths").isNone then .ok (storage, schemaSeeds seed.site)
  else
    match storage.shelfOf? reference with
    | none => .error (.noSchema reference)
    | some _ =>
      let record := fun (shelf : Shelf) => (operationsOf seed.site).foldl Shelf.addOperation shelf
      .ok (storage.changeShelf (Reference.document reference) record, schemaSeeds seed.site)

/-- Records the class of an object schema. Nothing is done where its reference is a class already. -/
def enterSchema (spell : Text.Spelling) (storage : Storage) (seed : Seed) :
    Except Error (Storage × List Seed) :=
  let reference := seed.site.reference
  if storage.hasClass reference then .ok (storage, [])
  else
    let c := classOf (Identifier.ofClass spell seed.name) seed.site
    match storage.shelfOf? reference with
    | none => .error (.noSchema reference)
    | some _ =>
      .ok (storage.changeShelf (Reference.document reference) (·.addClass c),
        nestedSeeds spell c.name seed.site)

/-- Records what a rule finds at a seed, and gives the seeds to look at next. -/
def enter (spell : Text.Spelling) (storage : Storage) (seed : Seed) :
    ClassRule → Except Error (Storage × List Seed)
  | .documentRoot => enterRoot storage seed
  | .objectSchema => enterSchema spell storage seed

theorem sizeOf_enter_lt {spell : Text.Spelling} {rule : ClassRule} {storage after : Storage}
    {seed inner : Seed} {seeds : List Seed} (h : storage.enter spell seed rule = .ok (after, seeds))
    (hmem : inner ∈ seeds) :
    sizeOf inner.site.node < sizeOf seed.site.node := by
  cases rule with
  | documentRoot =>
    simp only [enter, enterRoot] at h
    split at h
    · cases h; exact sizeOf_schemaSeeds_lt hmem
    · split at h
      · cases h
      · cases h; exact sizeOf_schemaSeeds_lt hmem
  | objectSchema =>
    simp only [enter, enterSchema] at h
    split at h
    · cases h; simp at hmem
    · split at h
      · cases h
      · cases h; exact sizeOf_nestedSeeds_lt hmem

/-- Looks for classes in a seed and in everything it gives. -/
def discover (spell : Text.Spelling) (rules : List ClassRule) (storage : Storage) (seed : Seed) :
    Outcome :=
  Outcome.each
    (fun storage rule =>
      match _henter : storage.enter spell seed rule with
      | .error error => { storage, failure := some error }
      | .ok (storage, seeds) =>
        Outcome.each (fun storage inner => discover spell rules storage inner.1) storage
          seeds.attach)
    storage (rules.filter (·.supports seed.site.node))
termination_by sizeOf seed.site.node
decreasing_by exact sizeOf_enter_lt _henter inner.2

/-- Looks for classes in what one rule finds at a seed, all rules taking part from there on. -/
def discoverBy (spell : Text.Spelling) (rule : ClassRule) (rules : List ClassRule)
    (storage : Storage) (seed : Seed) : Outcome :=
  match storage.enter spell seed rule with
  | .error error => { storage, failure := some error }
  | .ok (storage, seeds) => Outcome.each (discover spell rules) storage seeds

/-- Reads the document of one shelf and finds its classes. -/
def readDocument (load : Loader) (rules : Rules) (storage : Storage) (origin : String) : Outcome :=
  match load origin with
  | .error error => { storage, failure := some error }
  | .ok root =>
    let name := ((storage.shelf? origin).map Shelf.rootName).getD ""
    (storage.discover rules.spell rules.classes { name, site := ⟨root, Reference.root origin⟩ }).andThen
      fun storage =>
        { storage := storage.changeShelf origin fun shelf => { shelf with parsed := some root } }

/-- Reads the documents of all shelves. -/
def readDocuments (load : Loader) (rules : Rules) (storage : Storage) : Outcome :=
  Outcome.each (readDocument load rules) storage storage.origins

/-! Giving classes their members. -/

/-- Resolves a copy of the class under a reference, and writes it back under that reference on the
shelf of an origin. -/
def resolveClass (rules : Rules) (origin : String) (storage : Storage) (reference : String) :
    Outcome :=
  match storage.class? reference with
  | none => { storage }
  | some c =>
    match c.resolve rules storage.registry with
    | .error error => { storage, failure := some error }
    | .ok resolved =>
      match storage.shelf? origin with
      | none => { storage, failure := some (.lostSchema origin) }
      | some _ =>
        { storage := storage.changeShelf origin fun shelf =>
            (shelf.recordRelations resolved).changeClass reference fun _ => resolved }

/-- Resolves the classes of one shelf. -/
def resolveShelf (rules : Rules) (storage : Storage) (origin : String) : Outcome :=
  Outcome.each (resolveClass rules origin) storage (storage.references origin)

/-- Resolves the classes of all shelves. -/
def resolveClasses (rules : Rules) (storage : Storage) : Outcome :=
  Outcome.each (resolveShelf rules) storage storage.origins

/-! Linking unions and pruning. -/

/-- The references of a union and of one of its children, for all unions in order. -/
def unionLinks (storage : Storage) : List (String × String) :=
  storage.shelves.values.flatMap fun shelf =>
    shelf.classes.values.flatMap fun c => c.children.map fun child => (c.reference, child)

/-- Tells all children their unions, one after another. -/
def hydrate (storage : Storage) : Storage :=
  storage.unionLinks.foldl
    (fun storage (union, child) => storage.changeClass child (·.setUnionParent union)) storage

/-- The classes that the whitelisted operations of a shelf lead to. -/
def marked (storage : Storage) (origin : String) : List String :=
  ((storage.shelf? origin).map fun shelf => storage.registry.marked shelf.schema).getD []

/-- Keeps the marked classes. Without a whitelist nothing changes. -/
def prune (storage : Storage) : Storage :=
  if storage.whitelist = [] then storage
  else
    let marks := storage.shelves.values.map fun shelf => (shelf.origin, storage.marked shelf.origin)
    let kept := marks.flatMap Prod.snd
    let noted := marks.foldl
      (fun storage (origin, needed) => storage.changeShelf origin fun shelf => { shelf with needed })
      storage
    { noted with shelves := noted.shelves.map fun (origin, shelf) => (origin, shelf.sweep kept) }

/-- Runs all passes. -/
def build (storage : Storage) (load : Loader) (rules : Rules) : Outcome :=
  (storage.readDocuments load rules).andThen fun read =>
    (read.resolveClasses rules).andThen fun resolved => { storage := resolved.hydrate.prune }

end Storage

end ApiModel
