/-!
What can go wrong: the cause of each failure, its kind, and its message.
-/

namespace ApiModel

/-- The text formats of documents. -/
inductive TextFormat where
  | json
  | yaml
  deriving DecidableEq, Inhabited

/-- The name of a format as it stands in messages. -/
def TextFormat.name : TextFormat → String
  | .json => "JSON"
  | .yaml => "YAML"

/-- The cause of a failure. -/
inductive Error where
  /-- A document cannot be read. -/
  | unreadable
  /-- The text of a document does not have its format. -/
  | malformed (format : TextFormat) (path : String)
  | rootNotObject (path : String)
  /-- The origin is a URL of another scheme than that of files. -/
  | remoteDocument (origin : String)
  /-- The origin is the URL of a file on another host. -/
  | invalidFileUri (origin : String)
  /-- No document is served for the origin. -/
  | noDocument (origin : String)
  /-- A class or operation is found in a document that has no schema. -/
  | noSchema (reference : String)
  | unresolvableReference (target reference : String)
  | unresolvableAllOf (target reference : String)
  /-- A schema reaches itself through `allOf`. -/
  | cyclicAllOf (target reference : String)
  | noScalarType
  /-- The schema of an origin is gone in the middle of a build. -/
  | lostSchema (origin : String)
  | unreadableConfig (path : String)
  | invalidConfig
  /-- The configuration names no document. -/
  | noDocuments
  /-- The configuration names a document by a blank text. -/
  | blankDocument
  deriving DecidableEq, Inhabited

/-- The kinds of failures. -/
inductive ErrorKind where
  | io
  | parse
  | guess
  | config
  | general
  deriving DecidableEq

/-- The words a message of a kind begins with. -/
def ErrorKind.title : ErrorKind → String
  | .io => "IO Error"
  | .parse => "Parse Error: "
  | .guess => "Guess Error: "
  | .config => "Config Error: "
  | .general => "General Error: "

namespace Error

/-- The kind of a failure. -/
def kind : Error → ErrorKind
  | unreadable => .io
  | malformed _ _ | rootNotObject _ | remoteDocument _ | invalidFileUri _ | noDocument _ => .parse
  | noSchema _ | unresolvableReference _ _ | unresolvableAllOf _ _ | cyclicAllOf _ _
  | noScalarType => .guess
  | unreadableConfig _ | invalidConfig | noDocuments | blankDocument => .config
  | lostSchema _ => .general

/-- What a message says after its first words. -/
def detail : Error → String
  | unreadable => ""
  | malformed format path => "Failed to parse " ++ format.name ++ " '" ++ path ++ "'"
  | rootNotObject path => "Document '" ++ path ++ "' does not have an object at its root"
  | remoteDocument origin => "Remote documents are not fetched: '" ++ origin ++ "'"
  | invalidFileUri origin => "Invalid file URI '" ++ origin ++ "'"
  | noDocument origin => "no document '" ++ origin ++ "'"
  | noSchema reference => "No schema registered for reference '" ++ reference ++ "'"
  | unresolvableReference target reference =>
    "Unresolvable reference '" ++ target ++ "' in '" ++ reference ++ "'"
  | unresolvableAllOf target reference =>
    "Unresolvable allOf reference '" ++ target ++ "' in '" ++ reference ++ "'"
  | cyclicAllOf target reference =>
    "Cyclic allOf reference '" ++ target ++ "' in '" ++ reference ++ "'"
  | noScalarType => "Node has no scalar type"
  | lostSchema origin => "Schema '" ++ origin ++ "' disappeared during build"
  | unreadableConfig path => "Failed to read '" ++ path ++ "'"
  | invalidConfig => "Invalid configuration"
  | noDocuments => "At least one `openapi-file` is required"
  | blankDocument => "`openapi-file` entries cannot be empty"

/-- The message of a failure. -/
def message (error : Error) : String := error.kind.title ++ error.detail

end Error

end ApiModel
