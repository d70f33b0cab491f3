import ApiModel.Proofs.Registry.Integrity
import ApiModel.Proofs.Registry.Repetition
import ApiModel.Text.Transliteration

/-!
# What is recorded as the relations of a class

The relations of a class are recorded when its members are found, behind what is recorded already, in the
schema that is being gone over, and they are read from the schema that owns the class. In a build these
two schemas are one, nothing is recorded before, and what is recorded stays as it is: the references of
the object types in the members of the class, each where it comes first (`relations_of_build`).
-/

namespace ApiModel

/-! ## The object types of a class -/

namespace DataType

mutual

/-- A type and all types in it, the outer before the inner and otherwise in order. -/
def parts : DataType → List DataType
  | array items => array items :: parts items
  | map values => map values :: parts values
  | multiple types => multiple types :: partsOfTypes types
  | type => [type]

/-- Several types and all types in them. -/
def partsOfTypes : List DataType → List DataType
  | [] => []
  | type :: rest => parts type ++ partsOfTypes rest

end

/-- The reference of an object type. -/
def reference? : DataType → Option String
  | object reference _ => some reference
  | _ => none

mutual

/-- The references in a type are those of the object types among its parts. -/
theorem classReferences_eq : ∀ type : DataType,
    type.classReferences = type.parts.filterMap reference?
  | .array items => by
    rw [parts, List.filterMap_cons_none rfl, ← classReferences_eq items]
    rfl
  | .map values => by
    rw [parts, List.filterMap_cons_none rfl, ← classReferences_eq values]
    rfl
  | .multiple types => by
    rw [parts, List.filterMap_cons_none rfl, ← map_objectsOfTypes_eq types]
    rfl
  | .object _ _ | .scalar _ | .dateTime _ _ | .mixed => rfl

theorem map_objectsOfTypes_eq : ∀ types : List DataType,
    (objectsOfTypes types).map Prod.fst = (partsOfTypes types).filterMap reference?
  | [] => rfl
  | type :: rest => by
    rw [objectsOfTypes, partsOfTypes, List.map_append, List.filterMap_append,
      ← classReferences_eq type, ← map_objectsOfTypes_eq rest]
    rfl

end

end DataType

namespace Class

/-- The types of the members of a class: of its properties and then of its extensions. -/
def memberTypes (c : Class) : List DataType :=
  c.properties.map Property.type ++ c.extensionTypes.map Prod.snd

/-- The references of the object types that stand in the members of a class, at any depth and in order. -/
def objectReferences (c : Class) : List String :=
  (c.memberTypes.flatMap DataType.parts).filterMap DataType.reference?

theorem relations_eq (c : Class) : c.relations = c.objectReferences := by
  have hparts : ∀ types : List DataType, types.flatMap DataType.classReferences =
      (types.flatMap DataType.parts).filterMap DataType.reference? := by
    intro types
    rw [List.filterMap_flatMap]
    exact List.flatMap_congr fun type _ => type.classReferences_eq
  rw [objectReferences, ← hparts, memberTypes, List.flatMap_append, List.flatMap_map, List.flatMap_map]
  rfl

end Class

/-! ## One schema -/

namespace Schema

variable {schema : Schema}

/-- Recording the relations of other classes leaves those of a class. -/
theorem relations?_foldl_of_ne {classes : List Class} {reference : String}
    (h : ∀ c ∈ classes, c.reference ≠ reference) :
    (classes.foldl recordRelations schema).relations? reference = schema.relations? reference := by
  induction classes generalizing schema with
  | nil => rfl
  | cons c rest ih =>
    rw [List.foldl_cons, ih fun d hd => h d (List.mem_cons_of_mem c hd),
      relations?_recordRelations_of_ne (h c List.mem_cons_self)]

/-- In a schema that records nothing yet, the relations of a class are recorded as they are met. -/
theorem relations?_foldl_recordRelations {classes : List Class}
    (hnodup : (classes.map Class.reference).Nodup) {c : Class} (hc : c ∈ classes)
    (hnew : schema.relations? c.reference = none) :
    (classes.foldl recordRelations schema).relations? c.reference = some c.relations.eraseDups := by
  obtain ⟨before, after, rfl⟩ := List.append_of_mem hc
  have hbefore : ∀ d ∈ before, d.reference ≠ c.reference := fun _ hd => Keyed.ne_of_mem_before hnodup hd
  have hafter : ∀ d ∈ after, d.reference ≠ c.reference := by
    rw [List.map_append, List.map_cons, List.nodup_append, List.nodup_cons] at hnodup
    intro d hd heq
    exact hnodup.2.1.1 (heq ▸ List.mem_map_of_mem hd)
  rw [List.foldl_append, List.foldl_cons, relations?_foldl_of_ne hafter, relations?_recordRelations,
    relations?_foldl_of_ne hbefore, hnew, Option.getD_none, Keyed.foldl_addNew_eq_eraseDups]

/-- A schema whose classes have got their members records their relations as they are met. -/
theorem relations?_of_resolve {before resolved : Schema} {rules : Rules} {registry : Registry}
    (h : before.resolve rules registry = .ok resolved) (hempty : before.relations = [])
    (hnodup : (resolved.classes.map Class.reference).Nodup) {c : Class} (hc : c ∈ resolved.classes) :
    resolved.relations? c.reference = some c.relations.eraseDups := by
  obtain ⟨classes, _, h⟩ := Traversal.bind_eq_ok.1 h
  cases h
  have hnone : before.relations? c.reference = none := by rw [relations?, hempty]; rfl
  have hrecorded := relations?_foldl_recordRelations hnodup hc hnone
  exact hrecorded

end Schema

/-! ## A build -/

namespace Registry

variable {origins paths : List String} {rootName : String} {load : Loader} {rules : Rules}
  {read resolved built : Registry}

/-- Before classes get their members, nothing is recorded. -/
theorem relations_of_readDocuments
    (h : ((ofOrigins origins rootName).setWhitelist paths).readDocuments load rules = .ok read) :
    ∀ schema ∈ read.schemas, schema.relations = [] := by
  have hsame : read.schemas.map Schema.relations =
      ((ofOrigins origins rootName).setWhitelist paths).schemas.map Schema.relations :=
    Traversal.foldlM_preserves
      (P := fun after => after.schemas.map Schema.relations =
        ((ofOrigins origins rootName).setWhitelist paths).schemas.map Schema.relations)
      (fun _ _ _ _ hbefore hstep =>
        (map_readDocument (fun _ => rfl) (fun _ _ => rfl) hstep).trans hbefore) rfl h
  intro schema hschema
  have hmem := List.mem_map_of_mem (f := Schema.relations) hschema
  rw [hsame] at hmem
  obtain ⟨start, hstart, heq⟩ := List.mem_map.1 hmem
  obtain ⟨_, _, rfl⟩ := mem_ofOrigins hstart
  exact heq.symm

/-- For every class of a build the references of the object types in its members are recorded, each where
it comes first. -/
theorem relations_of_build
    (hbuilt : ((ofOrigins origins rootName).setWhitelist paths).build load rules = .ok built) :
    ∀ schema ∈ built.schemas, ∀ c ∈ schema.classes,
      built.relations? c.reference = some c.objectReferences.eraseDups := by
  intro schema hschema c hc
  rw [build_eq] at hbuilt
  obtain ⟨assembled, hassembled, rfl⟩ := Traversal.map_eq_ok.1 hbuilt
  obtain ⟨read, resolved, hread, hresolved, rfl⟩ := assemble_eq_ok hassembled
  have hfound := found_of_readDocuments hread
  have hplaced := hfound.placed.placed_of_resolveClasses hresolved
  -- the class before pruning, and before it learned its union
  have hclass := hplaced.placed_linkUnions.prune.class?_eq_some_iff.2 ⟨schema, hschema, hc, rfl⟩
  obtain ⟨hlinked, hkeeps⟩ := hplaced.placed_linkUnions.class?_prune_iff.1 hclass
  rw [hplaced.class?_linkUnions] at hlinked
  obtain ⟨member, hmember, rfl⟩ := Option.map_eq_some_iff.1 hlinked
  obtain ⟨after, hafter, hmem, _⟩ := mem_of_class? hmember
  obtain ⟨before, hbefore, hresolve⟩ := hfound.placed.schema_of_resolveClasses hresolved hafter
  obtain ⟨kind, hkind⟩ := member.foldl_adopt_eq resolved.unionLinks
  have hrecorded := Schema.relations?_of_resolve hresolve (relations_of_readDocuments hread before hbefore)
    (hplaced.housed after hafter).nodup hmem
  rw [hkeeps.relations?_prune, Class.reference_foldl_adopt, relations?_linkUnions hplaced hafter hmem,
    hrecorded, ← Class.relations_eq, hkind]
  rfl

/-! ## A shop -/

namespace Shop

/-- A schema that refers to a person twice: by itself, and as one of two that a list may hold. -/
def order : Document :=
  .map [
    ("properties", .map [
      ("buyer", .map [("$ref", .string "#/definitions/Person")]),
      ("lines", .map [("items", .map [("oneOf", .list [
        .map [("$ref", .string "#/definitions/Item")],
        .map [("$ref", .string "#/definitions/Person")]])])])]),
    ("additionalProperties", .map [("$ref", .string "#/definitions/Note")])]

/-- A document of orders and what they refer to. -/
def catalog : Document :=
  .map [
    ("swagger", .string "2.0"),
    ("definitions", .map [
      ("Order", order),
      ("Person", .map [("properties", .map [])]),
      ("Item", .map [("properties", .map [])]),
      ("Note", .map [("properties", .map [])])])]

/-- Serves the catalog under any name. -/
def loader : Loader := fun _ => .ok catalog

/-- The registry before the catalog is read. -/
def start : Registry := (ofOrigins ["shop"] "Api").setWhitelist []

/-- What can be computed of the catalog: the object types in the members of an order. -/
theorem exists_order :
    ∃ built, start.build loader (Rules.standard Text.transliterate "DateTime" {}) = .ok built ∧
      ∃ schema ∈ built.schemas, ∃ c ∈ schema.classes, c.reference = "shop#/definitions/Order" ∧
        c.objectReferences = ["shop#/definitions/Person", "shop#/definitions/Item",
          "shop#/definitions/Person", "shop#/definitions/Note"] := by
  have hends :
      (start.buildWithin 3 loader (Rules.standard Text.transliterate "DateTime" {})).toOption.any fun built =>
        built.schemas.any fun schema => schema.classes.any fun c =>
          c.reference = "shop#/definitions/Order" ∧
            c.objectReferences = ["shop#/definitions/Person", "shop#/definitions/Item",
              "shop#/definitions/Person", "shop#/definitions/Note"] := by
    decide +kernel
  obtain ⟨built, hbuilt, hschemas⟩ := exists_build_of_any hends
  obtain ⟨schema, hschema, hclasses⟩ := List.any_eq_true.1 hschemas
  obtain ⟨c, hc, hboth⟩ := List.any_eq_true.1 hclasses
  exact ⟨built, hbuilt, schema, hschema, c, hc, of_decide_eq_true hboth⟩

end Shop

open Shop in
/-- The person that an order refers to twice is recorded once, where it comes first. -/
theorem relations_of_build_shop :
    ∃ built, start.build loader (Rules.standard Text.transliterate "DateTime" {}) = .ok built ∧
      (∃ schema ∈ built.schemas, ∃ c ∈ schema.classes, c.reference = "shop#/definitions/Order") ∧
        built.relations? "shop#/definitions/Order" =
          some ["shop#/definitions/Person", "shop#/definitions/Item", "shop#/definitions/Note"] := by
  obtain ⟨built, hbuilt, schema, hschema, c, hc, href, hobjects⟩ := exists_order
  have hrecorded := relations_of_build hbuilt schema hschema c hc
  rw [href, hobjects] at hrecorded
  exact ⟨built, hbuilt, ⟨schema, hschema, c, hc, href⟩, hrecorded.trans (by decide +kernel)⟩

end Registry

end ApiModel
