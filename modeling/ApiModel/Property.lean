import ApiModel.DataType
import ApiModel.Document

/-!
Properties: the fields of a class.
-/

namespace ApiModel

/-- A property of a class. -/
structure Property where
  /-- The name as the document writes it. -/
  name : String
  /-- The name in generated code. -/
  identifier : String
  /-- The reference of the node. -/
  reference : String
  node : Document
  required : Bool
  nullable : Bool
  description : Option String
  type : DataType
  deriving Inhabited

namespace Property

/-- Whether a `type` list of the node holds `null`. -/
def listsNull (node : Document) : Bool :=
  ((node.itemsAt? "type").getD []).any fun item => item.text? = some "null"

/-- Whether a node accepts null: by `nullable`, or by `x-nullable` if that key is missing, or by its
`type` list. -/
def acceptsNull (node : Document) : Bool :=
  ((node.get? "nullable").or (node.get? "x-nullable")).bind Document.bool? = some true ||
    listsNull node

/-- The property that a node declares, before its identifier and its type are known. -/
def ofNode (name reference : String) (node : Document) (required : Bool) : Property where
  name
  identifier := name
  reference
  node
  required
  nullable := acceptsNull node
  description := node.textAt? "description"
  type := .mixed

end Property

end ApiModel
