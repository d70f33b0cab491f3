import ApiModel.Config

/-!
Reading configurations from YAML. Every key is optional, and a key that is unknown or comes twice is
an error. A setting that is a text takes any scalar as it is written; the documents must be texts.
-/

namespace ApiModel.Config

open Yaml

/-- A reader of a setting: its value, and the aliases that have been followed so far. -/
abbrev Reader (α : Type) := Graph → Node Nat → Nat → Option (α × Nat)

/-- A text: any scalar as it is written. -/
def readText : Reader String := Graph.text?

/-- Whether a scalar may hold a value of its own kind: if it is plain, or a literal block with the
tag of the kind. -/
def isTyped (tag : String) (props : Props) (style : Style) : Bool :=
  style = .plain || (style = .literal && props.tag = some tag)

/-- A truth value. -/
def readBool : Reader Bool := fun graph node jumps =>
  (graph.follow? node jumps).bind fun (node, jumps) =>
    match node with
    | .scalar props style text =>
      if isTyped "tag:yaml.org,2002:bool" props style then
        (bool? text).map fun value => (value, jumps)
      else none
    | _ => none

/-- Whether a scalar stands for an absent setting; none if its tag says so and its text does not. -/
def isAbsent? (props : Props) (style : Style) (text : String) : Option Bool :=
  if style ≠ .plain then some false
  else
    match props.tag with
    | none => some (text.isEmpty || isNull text)
    | some tag =>
      if tag = "tag:yaml.org,2002:null" then if isNull text then some true else none
      else some false

/-- A setting that may be null. -/
def readOptional {α : Type} (read : Reader α) : Reader (Option α) := fun graph node jumps =>
  let present := fun node jumps => (read graph node jumps).map fun (value, jumps) => (some value, jumps)
  (graph.follow? node jumps).bind fun (node, jumps) =>
    match node with
    | .scalar props style text =>
      (isAbsent? props style text).bind fun absent =>
        if absent then some (none, jumps) else present node jumps
    | node => present node jumps

/-- The texts of items in turn. -/
def readTexts (graph : Graph) : List (Node Nat) → Nat → Option (List String × Nat)
  | [], jumps => some ([], jumps)
  | item :: rest, jumps =>
    (readText graph item jumps).bind fun (text, jumps) =>
      (readTexts graph rest jumps).map fun (texts, jumps) => (text :: texts, jumps)

/-- A list of texts. Where nothing is written it is empty. -/
def readList : Reader (List String) := fun graph node jumps =>
  (graph.follow? node jumps).bind fun (node, jumps) =>
    match node with
    | .sequence _ items => readTexts graph items jumps
    | .scalar _ .plain "" => some ([], jumps)
    | _ => none

/-- One text or a list of them. A scalar that is no text is an error here. -/
def readDocuments : Reader (List String) := fun graph node jumps =>
  (graph.value? (maxDepth - 1) node jumps).bind fun (value, jumps) =>
    match value with
    | .string origin => some ([origin], jumps)
    | .list items => (items.mapM Document.text?).map fun origins => (origins, jumps)
    | _ => none

/-- A choice, by its word or by a tag of that name on an empty value. -/
def readChoice {α : Type} (ofKeyword? : String → Option α) : Reader α := fun graph node jumps =>
  (graph.follow? node jumps).bind fun (node, jumps) =>
    match node with
    | .scalar props style text =>
      let choice := fun word => (ofKeyword? word).map fun value => (value, jumps)
      match props.tag with
      | none => choice text
      | some tag =>
        if tag.startsWith "!" then
          if style = .plain && (text.isEmpty || isNull text) then
            choice (String.ofList (tag.toList.drop 1))
          else none
        else choice text
    | _ => none

/-- Reads the setting of one key into a configuration; none if the key is unknown. -/
def readSetting (config : Config) (key : String) (graph : Graph) (node : Node Nat) (jumps : Nat) :
    Option (Config × Nat) :=
  match key with
  | "openapi-file" =>
    (readDocuments graph node jumps).map fun (documents, jumps) => ({ config with documents }, jumps)
  | "root-name" =>
    (readText graph node jumps).map fun (rootName, jumps) => ({ config with rootName }, jumps)
  | "strict" =>
    (readBool graph node jumps).map fun (strict, jumps) => ({ config with strict }, jumps)
  | "date-format" =>
    (readText graph node jumps).map fun (output, jumps) =>
      ({ config with dateFormat.output := output }, jumps)
  | "date-input-format" =>
    (readOptional readText graph node jumps).map fun (input, jumps) =>
      ({ config with dateFormat.input := input }, jumps)
  | "date-prefer-interface" =>
    (readOptional readBool graph node jumps).map fun (preferInterface, jumps) =>
      ({ config with dateFormat.preferInterface := preferInterface }, jumps)
  | "date-time-class" =>
    (readText graph node jumps).map fun (dateTimeClass, jumps) =>
      ({ config with dateTimeClass }, jumps)
  | "whitelisted-paths" =>
    (readList graph node jumps).map fun (whitelist, jumps) => ({ config with whitelist }, jumps)
  | "operation-naming" =>
    (readChoice NamingStrategy.ofKeyword? graph node jumps).map fun (naming, jumps) =>
      ({ config with naming }, jumps)
  | "document-format" =>
    (readChoice DocumentFormat.ofKeyword? graph node jumps).map fun (format, jumps) =>
      ({ config with format }, jumps)
  | _ => none

/-- Reads settings in turn, no key twice. -/
def readSettings (graph : Graph) (config : Config) (seen : List String) (jumps : Nat) :
    List (Node Nat × Node Nat) → Option Config
  | [] => some config
  | (key, value) :: rest =>
    (graph.text? key jumps).bind fun (key, jumps) =>
      if key ∈ seen then none
      else
        (readSetting config key graph value jumps).bind fun (config, jumps) =>
          readSettings graph config (key :: seen) jumps rest

/-- The configuration of a text; the default one where nothing is written. -/
def parse? (text : String) : Option Config :=
  (graph? text).bind fun
    | none => some {}
    | some graph =>
      match graph.root with
      | .mapping _ entries => readSettings graph {} [] 0 entries
      | .scalar _ .plain "" => some {}
      | _ => none

/-- Reads a configuration. -/
def read (text : String) : Except Error Config :=
  match parse? text with
  | some config => .ok config
  | none => .error .invalidConfig

/-- Reads the configuration at a path, its text given by `read?`. -/
def load (read? : String → Option String) (path : String) : Except Error Config :=
  match read? path with
  | some text => read text
  | none => .error (.unreadableConfig path)

end ApiModel.Config
