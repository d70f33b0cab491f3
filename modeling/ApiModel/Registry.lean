import ApiModel.Reference
import ApiModel.Schema

/-!
Registries: all schemas of one run, and the paths that are whitelisted. A reference is looked for in
the schema of its own document first and then in all others in order.
-/

namespace ApiModel

/-- Schemas in order, each under its origin, and the whitelisted paths; no path means all paths. -/
structure Registry where
  schemas : List Schema := []
  whitelist : List String := []
  deriving Inhabited

namespace Registry

/-- The origins of the schemas, in order. -/
def origins (registry : Registry) : List String := registry.schemas.map Schema.origin

/-- Adds a schema in the place of one with the same origin, or at the end. -/
def addSchema (registry : Registry) (schema : Schema) : Registry :=
  { registry with schemas := Keyed.put Schema.origin schema registry.schemas }

/-- A schema for each origin, all with one root name. -/
def ofOrigins (origins : List String) (rootName : String) : Registry :=
  origins.foldl (fun registry origin => registry.addSchema { origin, rootName }) {}

/-- Replaces the whitelisted paths; a repeated one counts once. -/
def setWhitelist (registry : Registry) (paths : List String) : Registry :=
  { registry with whitelist := paths.foldl (fun set path => Keyed.addNew path set) [] }

/-- The schema of an origin. -/
def schema? (registry : Registry) (origin : String) : Option Schema :=
  Keyed.get? Schema.origin origin registry.schemas

/-- Changes the schema of an origin, if there is one. -/
def modifySchema (registry : Registry) (origin : String) (f : Schema → Schema) : Registry :=
  { registry with schemas := Keyed.modify Schema.origin origin f registry.schemas }

/-- The schema of the document that a reference points into. -/
def schemaOf? (registry : Registry) (reference : String) : Option Schema :=
  registry.schema? (Reference.document reference)

/-- The first schema that holds a class with a reference, its own document's before all others. -/
def owner? (registry : Registry) (reference : String) : Option Schema :=
  ((registry.schemaOf? reference).filter (·.hasClass reference)).or
    (registry.schemas.find? (·.hasClass reference))

/-- The class with a reference. -/
def class? (registry : Registry) (reference : String) : Option Class :=
  (registry.owner? reference).bind (·.class? reference)

/-- Whether a class has the reference. -/
def hasClass (registry : Registry) (reference : String) : Bool :=
  (registry.class? reference).isSome

/-- Changes the class with a reference, if there is one. -/
def modifyClass (registry : Registry) (reference : String) (f : Class → Class) : Registry :=
  match registry.owner? reference with
  | some schema => registry.modifySchema schema.origin (·.modifyClass reference f)
  | none => registry

/-- The relations that the owner of a class records for it. -/
def relations? (registry : Registry) (reference : String) : Option (List String) :=
  (registry.owner? reference).bind (·.relations? reference)

/-- The node that a reference points at in a document that has been read. -/
def node? (registry : Registry) (reference : String) : Option Document :=
  ((registry.schemaOf? reference).bind (·.parsed)).bind fun root =>
    Pointer.find? root ((Reference.fragment? reference).getD "")

/-- Every reference that a `$ref` in one of the documents can mean. References followed from a
document's node are among these. -/
def targets (registry : Registry) : List String :=
  registry.schemas.flatMap fun schema =>
    (schema.parsed.toList.flatMap Document.mentions).map (Reference.resolve schema.origin)

end Registry

end ApiModel
