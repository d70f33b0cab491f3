/-!
Resolved types: what a property or an extension holds, independent of the language that code is
written in.
-/

namespace ApiModel

/-- The primitive kinds of JSON schemas. -/
inductive ScalarKind where
  | string
  | integer
  | number
  | boolean
  | null
  deriving DecidableEq, Inhabited

namespace ScalarKind

/-- The `type` keyword of a kind. -/
def keyword : ScalarKind → String
  | string => "string"
  | integer => "integer"
  | number => "number"
  | boolean => "boolean"
  | null => "null"

/-- All kinds. -/
def all : List ScalarKind := [string, integer, number, boolean, null]

/-- The kind of a `type` keyword. -/
def ofKeyword? (word : String) : Option ScalarKind := all.find? (·.keyword = word)

end ScalarKind

/-- How date-time values are written, read and presented. -/
structure DateTimeFormat where
  output : String := "%Y-%m-%dT%H:%M:%S%:z"
  /-- The format for reading, if it is another one. -/
  input : Option String := none
  /-- Whether an interface stands in the place of the wrapper. -/
  preferInterface : Option Bool := none
  deriving DecidableEq, Inhabited

/-- A resolved type. -/
inductive DataType where
  | scalar (kind : ScalarKind)
  /-- A date-time text that is decoded into a wrapper class. -/
  | dateTime (wrapper : String) (format : DateTimeFormat)
  /-- A class, with the name it had when the type was resolved. -/
  | object (reference name : String)
  | array (items : DataType)
  /-- A map from texts. -/
  | map (values : DataType)
  /-- One of several types. -/
  | multiple (types : List DataType)
  /-- Anything. -/
  | mixed
  deriving Inhabited

namespace DataType

mutual

/-- The object types in a type, at any depth and in order: reference and name. -/
def objects : DataType → List (String × String)
  | object reference name => [(reference, name)]
  | array items => objects items
  | map values => objects values
  | multiple types => objectsOfTypes types
  | _ => []

/-- The object types in several types. -/
def objectsOfTypes : List DataType → List (String × String)
  | [] => []
  | type :: rest => objects type ++ objectsOfTypes rest

end

/-- The references of the classes in a type, in order. -/
def classReferences (type : DataType) : List String := type.objects.map Prod.fst

end DataType

end ApiModel
