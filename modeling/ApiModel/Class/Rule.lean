import ApiModel.Error
import ApiModel.Identifier
import ApiModel.Registry
import ApiModel.Site

/-!
The rules by which classes are found. A rule that applies to a node records what it finds there in
the registry, and gives the seeds to look at next, which hold smaller nodes.
-/

namespace ApiModel

/-- One way to find classes. -/
inductive ClassRule where
  /-- The root of a document: its operations are recorded and its schemas are looked at. -/
  | documentRoot
  /-- An object schema with structure is a class. -/
  | objectSchema
  deriving DecidableEq, Inhabited

/-- A node to look for classes in, and the name that a class found there starts from. -/
structure Seed where
  name : String
  site : Site
  deriving Inhabited

/-- The methods that a path may have, in the order its operations are recorded. -/
def httpMethods : List String :=
  ["get", "put", "post", "delete", "options", "head", "patch", "trace"]

/-- The pattern that stands for `additionalProperties`. -/
def additionalPattern : String := ".*"

/-- The operations under `paths`. -/
def operationsOf (root : Site) : List Operation :=
  (root.entries "paths").flatMap fun (path, item) =>
    httpMethods.filterMap fun method =>
      (item.object? method).map fun operation =>
        { method, path, reference := operation.reference, node := operation.node }

/-- The schemas of a document: those of its components, then its definitions. -/
def schemaSeeds (root : Site) : List Seed :=
  let components :=
    ((root.node.get? "components").map (root.under ["components"])).toList.flatMap
      (·.entries "schemas")
  (components ++ root.entries "definitions").map fun (name, site) => { name, site }

/-- The extensions that a node declares, by pattern. A pattern comes twice if it also is the one that
stands for `additionalProperties`. -/
def extensionSites (site : Site) : List (String × Site) :=
  let additional : List Document :=
    match site.node.get? "additionalProperties" with
    | some (.map entries) => [.map entries]
    | some (.bool true) => [.map []]
    | _ => []
  site.entries "patternProperties" ++
    additional.map fun node => (additionalPattern, site.under ["additionalProperties"] node)

/-- The extensions of a class: a repeated pattern keeps its first place and its last node. -/
def extensionsOf (site : Site) : List (String × Extension) :=
  (extensionSites site).foldl
    (fun slots (pattern, inner) =>
      Keyed.put Prod.fst (pattern, { node := inner.node, reference := inner.reference }) slots)
    []

/-- The name of the property that decides a union. -/
def discriminatorOf? (node : Document) : Option String :=
  (node.get? "discriminator").bind fun discriminator =>
    discriminator.text?.or (discriminator.textAt? "propertyName")

/-- The texts that name the children of a union: the values of its mapping, or if that has none the
references of `oneOf` and `anyOf`. -/
def childTargets (site : Site) : List String :=
  let mapping :=
    (((site.node.get? "discriminator").bind (·.entriesAt? "mapping")).getD []).filterMap
      (·.2.text?)
  if mapping.isEmpty then (site.items "oneOf" ++ site.items "anyOf").filterMap Site.target?
  else mapping

/-- The kind of the class that a node declares. -/
def classKindOf (site : Site) : ClassKind :=
  match discriminatorOf? site.node with
  | some discriminator =>
    .union discriminator (Keyed.firsts id ((childTargets site).map site.resolve))
  | none => .plain none

/-- The class that a node declares, before its properties are known. -/
def classOf (name : String) (site : Site) : Class where
  reference := site.reference
  name
  node := site.node
  extensions := extensionsOf site
  kind := classKindOf site

/-- The seeds in the properties of a class: each property, and behind it the items of that property
if they are an object. -/
def propertySeeds (name : String) (site : Site) : List Seed :=
  (site.entries "properties").flatMap fun (key, property) =>
    let name := name ++ Text.classify key
    { name, site := property } ::
      (property.object? "items").toList.map fun items => { name := name ++ "Item", site := items }

/-- What the seed of an extension adds to the name of the class. -/
def extensionSuffix (spell : Text.Spelling) (pattern : String) : String :=
  if pattern = additionalPattern then "Additional"
  else Text.classify (Text.slugify spell pattern "_")

/-- The seeds in the extensions of a class. -/
def extensionSeeds (spell : Text.Spelling) (name : String) (site : Site) : List Seed :=
  (extensionSites site).map fun (pattern, inner) =>
    { name := name ++ extensionSuffix spell pattern, site := inner }

/-- The seeds nested under a class, those of its inline `allOf` members between its properties and
its extensions. -/
def nestedSeeds (spell : Text.Spelling) (name : String) (site : Site) : List Seed :=
  propertySeeds name site ++
    (site.items "allOf").attach.flatMap (fun member =>
      if member.1.target?.isSome then [] else nestedSeeds spell name member.1) ++
    extensionSeeds spell name site
termination_by sizeOf site.node
decreasing_by exact Site.sizeOf_items_lt member.2

namespace ClassRule

/-- Whether a rule applies to a node. -/
def supports (node : Document) : ClassRule → Bool
  | documentRoot => (node.get? "openapi").isSome || (node.get? "swagger").isSome
  | objectSchema =>
    node.isMap && (node.textAt? "$ref").isNone &&
      (node.textAt? "type").all (· = "object") &&
      ((node.entriesAt? "properties").isSome || (node.itemsAt? "allOf").isSome ||
        (node.get? "discriminator").isSome)

/-- Records the operations of a root. A root without paths needs no schema. -/
def enterRoot (registry : Registry) (seed : Seed) : Except Error (Registry × List Seed) :=
  let reference := seed.site.reference
  if (seed.site.node.entriesAt? "paths").isNone then .ok (registry, schemaSeeds seed.site)
  else
    match registry.schemaOf? reference with
    | none => .error (.noSchema reference)
    | some schema =>
      let record := fun (schema : Schema) =>
        (operationsOf seed.site).foldl Schema.addOperation schema
      .ok (registry.modifySchema schema.origin record, schemaSeeds seed.site)

/-- Records the class of an object schema. Nothing is done where its reference is a class already. -/
def enterSchema (spell : Text.Spelling) (registry : Registry) (seed : Seed) :
    Except Error (Registry × List Seed) :=
  let reference := seed.site.reference
  if registry.hasClass reference then .ok (registry, [])
  else
    let c := classOf (Identifier.ofClass spell seed.name) seed.site
    match registry.schemaOf? reference with
    | none => .error (.noSchema reference)
    | some schema =>
      .ok (registry.modifySchema schema.origin (·.addClass c), nestedSeeds spell c.name seed.site)

/-- Records what a rule finds at a seed, and gives the seeds to look at next. -/
def enter (spell : Text.Spelling) (registry : Registry) (seed : Seed) :
    ClassRule → Except Error (Registry × List Seed)
  | documentRoot => enterRoot registry seed
  | objectSchema => enterSchema spell registry seed

end ClassRule

end ApiModel
