import ApiModel.Class.Members
import ApiModel.Registry.Unions
import ApiModel.Registry.Whitelist

/-!
Building a registry: all documents are read and their classes found, then all classes get their
members, then the children of unions learn their unions, and last the classes that the whitelist
does not need are dropped. The first error ends the build.
-/

namespace ApiModel

/-- Gives the root of the document at an origin. -/
abbrev Loader := String → Except Error Document

/-- A registry that has been built. -/
structure Context where
  registry : Registry
  /-- Whether generated code is to validate. -/
  strict : Bool
  deriving Inhabited

namespace Registry

/-- Reads the document of one schema and finds its classes. -/
def readDocument (load : Loader) (rules : Rules) (registry : Registry) (origin : String) :
    Except Error Registry := do
  let root ← load origin
  let name := ((registry.schema? origin).map Schema.rootName).getD ""
  let reached := rules.discover registry { name, site := ⟨root, Reference.root origin⟩ }
  match reached.failure with
  | some error => throw error
  | none =>
    return reached.registry.modifySchema origin fun schema => { schema with parsed := some root }

/-- Reads the documents of all schemas. -/
def readDocuments (load : Loader) (rules : Rules) (registry : Registry) : Except Error Registry :=
  registry.origins.foldlM (readDocument load rules) registry

/-- Resolves the class with a reference, and keeps it and its relations in the schema of an origin. -/
def resolveClass (rules : Rules) (origin : String) (registry : Registry) (reference : String) :
    Except Error Registry := do
  match registry.class? reference with
  | none => return registry
  | some c =>
    let resolved ← c.resolve rules registry
    match registry.schema? origin with
    | none => throw (.lostSchema origin)
    | some _ =>
      return registry.modifySchema origin fun schema =>
        (schema.recordRelations resolved).modifyClass reference fun _ => resolved

/-- Resolves the classes of one schema. -/
def resolveSchema (rules : Rules) (registry : Registry) (origin : String) :
    Except Error Registry :=
  let references := ((registry.schema? origin).map Schema.references).getD []
  references.foldlM (resolveClass rules origin) registry

/-- Resolves the classes of all schemas. -/
def resolveClasses (rules : Rules) (registry : Registry) : Except Error Registry :=
  registry.origins.foldlM (resolveSchema rules) registry

/-- Builds a registry. -/
def build (registry : Registry) (load : Loader) (rules : Rules) : Except Error Registry := do
  let read ← registry.readDocuments load rules
  let resolved ← read.resolveClasses rules
  return resolved.linkUnions.prune

end Registry

end ApiModel
