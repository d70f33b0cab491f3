import ApiModel.Class
import ApiModel.Operation

/-!
Schemas: one document each, with the classes and operations found in it. Classes are kept in the
order they were found, under their references.
-/

namespace ApiModel

/-- A document and what is known of it. -/
structure Schema where
  /-- The path or URL of the document. -/
  origin : String
  /-- The name of its root. -/
  rootName : String
  /-- The root node, once it has been read. -/
  parsed : Option Document := none
  classes : List Class := []
  operations : List Operation := []
  /-- For a class, the references of the classes it needs, each once. -/
  relations : List (String × List String) := []
  /-- The references that the whitelisted operations need. -/
  needed : List String := []
  deriving Inhabited

namespace Schema

/-- The class with a reference. -/
def class? (schema : Schema) (reference : String) : Option Class :=
  Keyed.get? Class.reference reference schema.classes

/-- Whether a class has the reference. -/
def hasClass (schema : Schema) (reference : String) : Bool := (schema.class? reference).isSome

/-- The references of the classes, in order. -/
def references (schema : Schema) : List String := schema.classes.map Class.reference

/-- Adds a class, unless its reference is taken. -/
def addClass (schema : Schema) (c : Class) : Schema :=
  if schema.hasClass c.reference then schema else { schema with classes := schema.classes ++ [c] }

/-- Drops a class; the others keep their order. -/
def removeClass (schema : Schema) (reference : String) : Schema :=
  { schema with classes := Keyed.erase Class.reference reference schema.classes }

/-- Changes the class with a reference, if there is one. -/
def modifyClass (schema : Schema) (reference : String) (f : Class → Class) : Schema :=
  { schema with classes := Keyed.modify Class.reference reference f schema.classes }

/-- Adds an operation. -/
def addOperation (schema : Schema) (operation : Operation) : Schema :=
  { schema with operations := schema.operations ++ [operation] }

/-- The recorded relations of a class. -/
def relations? (schema : Schema) (reference : String) : Option (List String) :=
  (Keyed.get? Prod.fst reference schema.relations).map Prod.snd

/-- Records the relations of a class behind those that are recorded for it. -/
def recordRelations (schema : Schema) (c : Class) : Schema :=
  let known := (schema.relations? c.reference).getD []
  let all := c.relations.foldl (fun set reference => Keyed.addNew reference set) known
  { schema with relations := Keyed.put Prod.fst (c.reference, all) schema.relations }

end Schema

end ApiModel
