import ApiModel.Json.Writer
import ApiModel.Operation.Naming
import ApiModel.Registry.Build

/-!
Reports: what a built registry holds, as values that are written as JSON. The order of keys is part
of a report.
-/

namespace ApiModel

/-- A list of texts. -/
def textList (texts : List String) : Document := .list (texts.map .string)

/-- A text, or null. -/
def optionalText (text : Option String) : Document := (text.map Document.string).getD .null

namespace DataType

mutual

/-- A type, its kind first. -/
def report : DataType → Document
  | scalar kind => .map [("kind", .string "scalar"), ("scalar", .string kind.keyword)]
  | dateTime wrapper format =>
    .map [("kind", .string "date_time"), ("class", .string wrapper),
      ("output_format", .string format.output), ("input_format", optionalText format.input),
      ("prefer_interface", (format.preferInterface.map Document.bool).getD .null)]
  | object reference name =>
    .map [("kind", .string "object"), ("reference", .string reference), ("name", .string name)]
  | array items => .map [("kind", .string "array"), ("items", report items)]
  | map values => .map [("kind", .string "map"), ("values", report values)]
  | multiple types => .map [("kind", .string "multiple"), ("types", .list (reportTypes types))]
  | mixed => .map [("kind", .string "mixed")]

/-- Several types. -/
def reportTypes : List DataType → List Document
  | [] => []
  | type :: rest => report type :: reportTypes rest

end

end DataType

/-- A property; its description is left out if there is none. -/
def Property.report (property : Property) : Document :=
  .map
    ([("name", .string property.name), ("identifier", .string property.identifier),
      ("reference", .string property.reference), ("required", .bool property.required),
      ("nullable", .bool property.nullable)] ++
    (property.description.map fun text => ("description", Document.string text)).toList ++
    [("type", property.type.report)])

/-- The kind of a class; the union of a plain one is left out if it has none. -/
def ClassKind.report : ClassKind → List (String × Document)
  | plain parent =>
    ("kind", .string "plain") ::
      (parent.map fun reference => ("union_parent", Document.string reference)).toList
  | union discriminator children =>
    [("kind", .string "discriminated_union"), ("discriminator", .string discriminator),
      ("children", textList children)]

/-- A class. -/
def Class.report (c : Class) : Document :=
  .map
    ([("reference", .string c.reference), ("name", .string c.name),
      ("properties", .list (c.properties.map Property.report)),
      ("extension_types", .map (c.extensionTypes.map fun (pattern, type) => (pattern, type.report)))] ++
    c.kind.report)

namespace Operation

/-- The place of an operation. -/
def place (operation : Operation) : List (String × Document) :=
  [("method", .string operation.method), ("path", .string operation.path),
    ("reference", .string operation.reference)]

/-- An operation and its names. -/
def report (spell : Text.Spelling) (operation : Operation) (strategy : NamingStrategy) : Document :=
  let names := operation.names spell strategy
  .map
    (operation.place ++
      [("function", .string names.function), ("endpoint", .string names.endpoint)])

end Operation

namespace Registry

/-- Whether the operations of a path are reported: if it is whitelisted, or nothing is. -/
def keepsPath (registry : Registry) (path : String) : Bool :=
  registry.whitelist = [] || path ∈ registry.whitelist

/-- A schema with its classes and the operations that are kept. -/
def reportSchema (spell : Text.Spelling) (registry : Registry) (strategy : NamingStrategy)
    (schema : Schema) : Document :=
  let operations := schema.operations.filter fun operation => registry.keepsPath operation.path
  .map
    [("origin", .string schema.origin), ("classes", .list (schema.classes.map Class.report)),
      ("operations", .list (operations.map (·.report spell strategy)))]

end Registry

namespace Context

/-- The report of a run. -/
def report (spell : Text.Spelling) (context : Context) (strategy : NamingStrategy) : Document :=
  .map
    [("strict", .bool context.strict),
      ("schemas", .list (context.registry.schemas.map (context.registry.reportSchema spell strategy)))]

/-- A schema as part of a whole context: classes under their references, and all operations. -/
def schemaEntry (schema : Schema) : String × Document :=
  let classes := schema.classes.map fun c => (c.reference, c.report)
  let operations := schema.operations.map fun operation => Document.map operation.place
  (schema.origin,
    .map
      [("origin", .string schema.origin), ("root_name", .string schema.rootName),
        ("classes", .map classes), ("operations", .list operations)])

/-- The whole context: schemas under their origins, and the whitelist. -/
def document (context : Context) : Document :=
  let registry := context.registry
  .map
    [("registry",
        .map
          [("schemas", .map (registry.schemas.map schemaEntry)),
            ("whitelisted_paths", textList registry.whitelist)]),
      ("strict", .bool context.strict)]

end Context

end ApiModel
