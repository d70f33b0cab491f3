import ApiModel.Error
import ApiModel.Json.Reader
import ApiModel.Path
import ApiModel.Reference
import ApiModel.Yaml.Graph

/-!
Reading documents: from the origin to the path of a file, and from its text to the root of the
document. Only files are read; other URLs are errors.
-/

namespace ApiModel

/-- How the format of a document is chosen. -/
inductive DocumentFormat where
  /-- By the extension of the file. -/
  | auto
  | json
  | yaml
  deriving DecidableEq, Inhabited

namespace DocumentFormat

/-- The word for a choice in a configuration. -/
def keyword : DocumentFormat → String
  | auto => "auto"
  | json => "json"
  | yaml => "yaml"

/-- The choice of a word. -/
def ofKeyword? (word : String) : Option DocumentFormat := [auto, json, yaml].find? (·.keyword = word)

/-- The format of a file: JSON by its extension in any case, else YAML. -/
def textFormat (format : DocumentFormat) (path : String) : TextFormat :=
  match format with
  | auto =>
    if (Path.extension? path).any fun ext => Text.asciiLower ext = "json" then .json else .yaml
  | json => .json
  | yaml => .yaml

/-- The value of a text. -/
def parse? (format : TextFormat) (text : String) : Option Document :=
  match format with
  | .json => Json.parse? text
  | .yaml => Yaml.parse? text

/-- The root of the document that a file holds; it must be an object. -/
def decode (format : DocumentFormat) (path text : String) : Except Error Document :=
  match parse? (format.textFormat path) text with
  | none => .error (.malformed (format.textFormat path) path)
  | some root => if root.isMap then .ok root else .error (.rootNotObject path)

end DocumentFormat

/-- The path of the file that an origin names: the document part itself, unless that is a URL. A
scheme of one letter is the letter of a drive. -/
def filePathOf (origin : String) : Except Error String :=
  let document := Reference.document origin
  match (Url.parse? document).filter (·.scheme.length > 1) with
  | none => .ok document
  | some url =>
    if url.scheme ≠ "file" then .error (.remoteDocument origin)
    else
      match url.filePath? with
      | some path => .ok path
      | none => .error (.invalidFileUri origin)

/-- Reads the document at an origin, its text given by `read?`. -/
def loadDocument (format : DocumentFormat) (read? : String → Option String) (origin : String) :
    Except Error Document := do
  let path ← filePathOf origin
  match read? path with
  | none => throw .unreadable
  | some text => format.decode path text

end ApiModel
