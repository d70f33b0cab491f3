import ApiModel.Property

/-!
Classes: the models that are generated from schema nodes. A union names its children by reference,
and a child names its union the same way.
-/

namespace ApiModel

/-- A node for keys that match a pattern. -/
structure Extension where
  node : Document
  /-- The reference of the node. -/
  reference : String
  deriving Inhabited

/-- A plain class, or a union that a property decides. -/
inductive ClassKind where
  /-- The union that the class is a child of, if it is known. -/
  | plain (unionParent : Option String)
  | union (discriminator : String) (children : List String)
  deriving DecidableEq, Inhabited

/-- A class. -/
structure Class where
  reference : String
  name : String
  /-- The schema node the class stands for. -/
  node : Document
  properties : List Property := []
  /-- Extensions by pattern. -/
  extensions : List (String × Extension) := []
  /-- The types of the extensions, by pattern. -/
  extensionTypes : List (String × DataType) := []
  kind : ClassKind := .plain none
  deriving Inhabited

namespace Class

/-- Whether the class is a union. -/
def isUnion (c : Class) : Bool :=
  match c.kind with
  | .union _ _ => true
  | .plain _ => false

/-- The references of the children; none for a plain class. -/
def children (c : Class) : List String :=
  match c.kind with
  | .union _ children => children
  | .plain _ => []

/-- The union that a plain class is a child of. -/
def unionParent? (c : Class) : Option String :=
  match c.kind with
  | .plain parent => parent
  | .union _ _ => none

/-- Makes a plain class a child of a union; a union stays as it is. -/
def setUnionParent (c : Class) (parent : String) : Class :=
  match c.kind with
  | .plain _ => { c with kind := .plain (some parent) }
  | .union _ _ => c

/-- The references of the classes in the types of the properties and then of the extensions. -/
def relations (c : Class) : List String :=
  c.properties.flatMap (·.type.classReferences) ++
    c.extensionTypes.flatMap fun entry => entry.2.classReferences

end Class

end ApiModel
