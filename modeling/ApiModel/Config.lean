import ApiModel.Operation.Naming
import ApiModel.Registry.Build
import ApiModel.Source

/-!
Configurations: what to read, how to name what is found, and what to leave out.
-/

namespace ApiModel

/-- The settings of one run. -/
structure Config where
  /-- The origins of the documents. -/
  documents : List String := []
  /-- The name of each document's root. -/
  rootName : String := "Api"
  strict : Bool := true
  dateFormat : DateTimeFormat := {}
  /-- The class that date-time texts are decoded into. -/
  dateTimeClass : String := "DateTime"
  /-- The paths to keep; all if there are none. -/
  whitelist : List String := []
  naming : NamingStrategy := .fallback
  format : DocumentFormat := .auto
  deriving Inhabited

/-- Whether a character is white space. -/
def isWhite (c : Char) : Bool :=
  ('\t' ≤ c && c ≤ '\x0d') || ('\u2000' ≤ c && c ≤ '\u200a') ||
    c ∈ [' ', '\u0085', '\u00a0', '\u1680', '\u2028', '\u2029', '\u202f', '\u205f', '\u3000']

namespace NamingStrategy

/-- The word for a strategy. -/
def keyword : NamingStrategy → String
  | operationId => "operation-id"
  | url => "url"
  | fallback => "fallback"

/-- The strategy of a word. -/
def ofKeyword? (word : String) : Option NamingStrategy :=
  [operationId, url, fallback].find? (·.keyword = word)

end NamingStrategy

namespace Config

/-- Checks that documents are named. -/
def validate (config : Config) : Except Error Unit :=
  if config.documents = [] then .error .noDocuments
  else if config.documents.any fun origin => origin.toList.all isWhite then .error .blankDocument
  else .ok ()

/-- A registry with a schema for each document, and the whitelist. -/
def registry (config : Config) : Except Error Registry := do
  config.validate
  return (Registry.ofOrigins config.documents config.rootName).setWhitelist config.whitelist

/-- The rules that the configuration asks for. -/
def rules (config : Config) (spell : Text.Spelling) : Rules :=
  .standard spell config.dateTimeClass config.dateFormat

/-- Builds a registry from documents whose texts `read?` gives. -/
def build (config : Config) (spell : Text.Spelling) (read? : String → Option String)
    (registry : Registry) : Except Error Context := do
  let registry ← registry.build (loadDocument config.format read?) (config.rules spell)
  return { registry, strict := config.strict }

end Config

end ApiModel
