import ApiModel.Operation
import ApiModel.Operation.PathTemplate
import ApiModel.Text.Singular

/-!
Names of operations. A strategy takes them from the declared id, or from the method, the path and
the shape of the response; the fallback takes the id where it has a letter or digit to give.
-/

namespace ApiModel

/-- The two identifiers of an operation. -/
structure OperationNames where
  /-- Lower camel case. -/
  function : String
  /-- Upper camel case. -/
  endpoint : String
  deriving DecidableEq, Inhabited

/-- The tokens joined, each with a capital, the first without one in the function's name. -/
def OperationNames.ofTokens (tokens : List String) : OperationNames where
  function :=
    match tokens with
    | [] => ""
    | first :: rest => Text.uncapitalize first ++ String.join (rest.map Text.capitalize)
  endpoint := String.join (tokens.map Text.capitalize)

/-- Where the names of operations come from. -/
inductive NamingStrategy where
  | operationId
  | url
  | fallback
  deriving DecidableEq, Inhabited

namespace Operation

/-- The slug tokens of the declared id. -/
def idTokens (spell : Text.Spelling) (operation : Operation) : List String :=
  Text.slugTokens spell (operation.id?.getD "")

/-- Names from the declared id. -/
def namesById (spell : Text.Spelling) (operation : Operation) : OperationNames :=
  .ofTokens (operation.idTokens spell)

/-- Whether the declared id has a letter or digit to give. -/
def hasUsableId (spell : Text.Spelling) (operation : Operation) : Bool :=
  operation.id?.any fun id => Text.slugTokens spell id ≠ []

/-- Whether a schema is an array. -/
def isArraySchema (schema : Document) : Bool := schema.textAt? "type" = some "array"

/-- Whether the response for status 200 is an array: by its own schema, or by the schema of the first
entry of its content. -/
def returnsArray (operation : Operation) : Bool :=
  match operation.okResponse? with
  | none => false
  | some response =>
    let ofContent :=
      ((response.entriesAt? "content").bind List.head?).bind fun entry => entry.2.get? "schema"
    (response.get? "schema").any isArraySchema || ofContent.any isArraySchema

/-- The words a part gives to the name. -/
def partWords : PathTemplate.Part → List Char
  | .placeholders names =>
    names.flatMap fun name => ['B', 'y'] ++ PathTemplate.pascalName true name
  | .literal text => Text.capitalizeChars text

/-- Puts the words of the last literal in the singular. -/
def singularizeLastLiteral : List PathTemplate.Part → List (List Char)
  | [] => []
  | part :: rest =>
    let isLast := !rest.any fun
      | .literal _ => true
      | .placeholders _ => false
    let words := partWords part
    match part, isLast with
    | .literal _, true => Text.singularizeChars words :: rest.map partWords
    | _, _ => words :: singularizeLastLiteral rest

/-- The words of the path, the last literal in the singular unless the response is an array. -/
def pathWords (operation : Operation) : List (List Char) :=
  let parts := PathTemplate.parts operation.path.toList
  if operation.returnsArray then parts.map partWords else singularizeLastLiteral parts

/-- The lower-case method followed by the words of the path. -/
def urlName (operation : Operation) : String :=
  Text.lowercase operation.method ++
    String.ofList (Text.capitalizeChars operation.pathWords.flatten)

/-- Names from the method, the path and the shape of the response. -/
def namesByUrl (operation : Operation) : OperationNames where
  function := Text.camelize operation.urlName
  endpoint := Text.classify operation.urlName

/-- The names that a strategy gives. -/
def names (spell : Text.Spelling) (operation : Operation) : NamingStrategy → OperationNames
  | .operationId => operation.namesById spell
  | .url => operation.namesByUrl
  | .fallback =>
    if operation.hasUsableId spell then operation.namesById spell else operation.namesByUrl

end Operation

end ApiModel
