import ApiModel.Document

/-!
Operations: one HTTP method on one path of a document.
-/

namespace ApiModel

/-- An operation and the document node that declares it. -/
structure Operation where
  /-- The method as the document writes it. -/
  method : String
  /-- The path template. -/
  path : String
  /-- The reference of the node. -/
  reference : String
  node : Document
  deriving Inhabited

namespace Operation

/-- The declared id, if it is a text. -/
def id? (operation : Operation) : Option String := operation.node.textAt? "operationId"

/-- The response declared for status 200. -/
def okResponse? (operation : Operation) : Option Document :=
  (operation.node.get? "responses").bind (·.get? "200")

end Operation

end ApiModel
