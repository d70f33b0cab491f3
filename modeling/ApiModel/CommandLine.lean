import ApiModel.Config.Reading
import ApiModel.Report

/-!
The command line: `resolve` builds a registry and prints its report. Flags win over the environment
that stands for them, and both win over the configuration file.
-/

namespace ApiModel

/-- What `resolve` is asked for. A setting that is not given is left to the configuration. -/
structure Request where
  /-- The path of the configuration file. -/
  config : Option String := none
  documents : List String := []
  whitelist : List String := []
  rootName : Option String := none
  strict : Option Bool := none
  naming : Option NamingStrategy := none
  pretty : Bool := false
  deriving Inhabited

namespace Request

/-- The configuration of the file, its settings replaced by those that are given. -/
def configure (request : Request) (config : Config) : Config :=
  { config with
    documents := if request.documents = [] then config.documents else request.documents
    whitelist := if request.whitelist = [] then config.whitelist else request.whitelist
    rootName := request.rootName.getD config.rootName
    strict := request.strict.getD config.strict
    naming := request.naming.getD config.naming }

/-- The configuration that the request asks for. -/
def loadConfig (request : Request) (read? : String → Option String) : Except Error Config := do
  let config ←
    match request.config with
    | some path => Config.load read? path
    | none => pure {}
  return request.configure config

/-- What is printed: the report on one line or several, with a line break at its end. -/
def run (spell : Text.Spelling) (request : Request) (read? : String → Option String) :
    Except Error String := do
  let config ← request.loadConfig read?
  let registry ← config.registry
  let context ← config.build spell read? registry
  let layout := if request.pretty then Json.Layout.pretty else Json.Layout.compact
  return Json.render layout (context.report spell config.naming) ++ "\n"

end Request

namespace CommandLine

/-- A flag that takes a value. -/
inductive Flag where
  | config
  | openapiFile
  | whitelist
  | rootName
  | strict
  | naming
  deriving DecidableEq, Inhabited

/-- A flag and its value; `pretty` takes none. -/
inductive Argument where
  | valued (flag : Flag) (value : String)
  | pretty
  deriving DecidableEq, Inhabited

namespace Flag

/-- The flag as it is written. -/
def text : Flag → String
  | config => "--config"
  | openapiFile => "--openapi-file"
  | whitelist => "--whitelist"
  | rootName => "--root-name"
  | strict => "--strict"
  | naming => "--naming"

/-- All flags that take a value. -/
def all : List Flag := [config, openapiFile, whitelist, rootName, strict, naming]

/-- The flag of a text. -/
def ofText? (text : String) : Option Flag := all.find? (·.text = text)

/-- The variable that stands for a flag. -/
def variableName? : Flag → Option String
  | config => some "SCHEMAGEN_CONFIG"
  | openapiFile => some "SCHEMAGEN_OPENAPI_FILE"
  | _ => none

end Flag

/-- The name and the value of an argument with an equals sign. -/
def splitEquals? (argument : String) : Option (String × String) :=
  let chars := argument.toList
  match chars.dropWhile (· ≠ '=') with
  | [] => none
  | _ :: value => some (String.ofList (chars.takeWhile (· ≠ '=')), String.ofList value)

/-- Whether a text can be the value of the flag before it. -/
def isValue (argument : String) : Bool := argument = "-" || !argument.startsWith "-"

/-- The arguments of `resolve`; none if one of them is unknown or lacks its value. Nothing may follow
two hyphens. -/
def arguments? : List String → Option (List Argument)
  | [] => some []
  | argument :: rest =>
    if argument = "--" then if rest = [] then some [] else none
    else if argument = "--pretty" then (arguments? rest).map (.pretty :: ·)
    else
      match splitEquals? argument with
      | some (name, value) =>
        (Flag.ofText? name).bind fun flag => (arguments? rest).map (.valued flag value :: ·)
      | none =>
        (Flag.ofText? argument).bind fun flag =>
          match rest with
          | value :: rest =>
            if isValue value then (arguments? rest).map (.valued flag value :: ·) else none
          | [] => none

/-- The values given for a flag, in order. -/
def valuesOf (arguments : List Argument) (flag : Flag) : List String :=
  arguments.filterMap fun
    | .valued other value => if other = flag then some value else none
    | .pretty => none

/-- The values of a flag, or of its variable if the flag is not given. -/
def given (environment : List (String × String)) (arguments : List Argument) (flag : Flag) :
    List String :=
  match valuesOf arguments flag with
  | [] => (flag.variableName?.bind fun name => environment.lookup name).toList
  | values => values

/-- The value of a flag that may come once; the outer option is empty if it comes more often. -/
def single? (values : List String) : Option (Option String) :=
  match values with
  | [] => some none
  | [value] => some (some value)
  | _ => none

/-- Reads the value of a flag that may be absent; the outer option is empty if it cannot be read. -/
def readValue? {α : Type} (read? : String → Option α) : Option String → Option (Option α)
  | none => some none
  | some value => (read? value).map some

/-- The texts between commas, empty ones kept. -/
def splitCommas (value : String) : List String :=
  (Text.splitWhere (· = ',') value.toList).map String.ofList

/-- A path; it cannot be empty. -/
def path? (value : String) : Option String := if value = "" then none else some value

/-- A truth value. -/
def bool? (value : String) : Option Bool :=
  if value = "true" then some true else if value = "false" then some false else none

/-- The request that arguments and the environment make; none if a value cannot be read or a flag comes
twice that may come once. -/
def request? (environment : List (String × String)) (arguments : List Argument) : Option Request := do
  let config ← readValue? path? (← single? (given environment arguments .config))
  let rootName ← single? (given environment arguments .rootName)
  let strict ← readValue? bool? (← single? (given environment arguments .strict))
  let naming ←
    readValue? NamingStrategy.ofKeyword? (← single? (given environment arguments .naming))
  if 1 < arguments.count .pretty then none
  else
    some {
      config, rootName, strict, naming
      documents := (given environment arguments .openapiFile).flatMap splitCommas
      whitelist := (given environment arguments .whitelist).flatMap splitCommas
      pretty := Argument.pretty ∈ arguments }

/-- The request of a whole command line; none if it is not understood. -/
def parse? (environment : List (String × String)) : List String → Option Request
  | "resolve" :: rest => (arguments? rest).bind (request? environment)
  | _ => none

/-- How a run ends. -/
inductive Outcome where
  | printed (text : String)
  | failed (error : Error)
  /-- The command line is not understood. -/
  | misused

namespace Outcome

/-- The exit code. -/
def exitCode : Outcome → Nat
  | printed _ => 0
  | failed _ => 1
  | misused => 2

/-- What goes to standard output. -/
def output : Outcome → String
  | printed text => text
  | failed _ | misused => ""

end Outcome

/-- Runs a command line on files whose texts `read?` gives. -/
def run (spell : Text.Spelling) (environment : List (String × String))
    (read? : String → Option String) (commandLine : List String) : Outcome :=
  match parse? environment commandLine with
  | none => .misused
  | some request =>
    match request.run spell read? with
    | .ok text => .printed text
    | .error error => .failed error

end CommandLine

end ApiModel
