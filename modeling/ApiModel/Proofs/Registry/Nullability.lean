import ApiModel.Proofs.DataType.Aliases
import ApiModel.Proofs.Property.Requirement
import ApiModel.Proofs.Property.Resolution
import ApiModel.Proofs.Registry.Identifiers
import ApiModel.Text.Transliteration

/-!
# Which properties accept null

The type of a property leaves out the `null` of a list of types, since the property itself says whether it
accepts null. But the property says so for its own node, while its type is that of the node which decides it,
and this may be another one. So where a property has its type from a node that it refers to, a `null` which
that node lists is told nowhere, unless the property's own node accepts null too
(`Registry.nullable_of_build`).
-/

namespace ApiModel

/-! ## One class -/

/-- What a node declares accepts null if its own node says so. -/
theorem Site.nullable_of_mem_declaredProperties {site : Site} {property : Property}
    (h : property ∈ declaredProperties site) :
    property.nullable = Property.acceptsNull property.node := by
  obtain ⟨entry, _, rfl⟩ := List.mem_map.1 h
  rfl

/-- So do all properties that are found, wherever they are declared. -/
theorem Rules.nullable_of_propertiesOf {spell : Text.Spelling} {wrapper : String} {format : DateTimeFormat}
    {registry : Registry} {site : Site} {properties : List Property}
    (h : (standard spell wrapper format).propertiesOf registry site = .ok properties) :
    ∀ property ∈ properties, property.nullable = Property.acceptsNull property.node := by
  intro property hproperty
  obtain ⟨declarations, hunfolds, rfl⟩ := propertiesOf_iff.1 h
  obtain ⟨sites, _, rfl⟩ := hunfolds.exists_spreads
  obtain ⟨owner, _, hdeclared⟩ := List.mem_flatMap.1 (Keyed.mem_of_mem_firsts hproperty)
  exact Site.nullable_of_mem_declaredProperties hdeclared

namespace Registry

variable {origins paths : List String} {rootName wrapper : String} {spell : Text.Spelling}
  {format : DateTimeFormat} {load : Loader} {built : Registry}

/-- A property is nullable exactly if its own node accepts null. Its type is what is found for the node that
decides it, and that is the same with and without `null` in the list of types of this node. Where no reference
leads there, the node is the property's own, and the property tells of a `null` in its list. -/
theorem nullable_of_build
    (hbuilt : ((ofOrigins origins rootName).setWhitelist paths).build load
      (Rules.standard spell wrapper format) = .ok built) :
    ∃ read, ((ofOrigins origins rootName).setWhitelist paths).readDocuments load
        (Rules.standard spell wrapper format) = .ok read ∧
      ∀ schema ∈ built.schemas, ∀ c ∈ schema.classes, ∀ property ∈ c.properties,
        property.nullable = Property.acceptsNull property.node ∧
        ((∃ followed decider, property.site.DecidedBy read followed decider) ∨
          property.type = .mixed) ∧
        ∀ followed decider, property.site.DecidedBy read followed decider →
          typeAt (Rules.standard spell wrapper format).types read followed.reverse decider =
              .ok property.type ∧
            typeAt (Rules.standard spell wrapper format).types read followed.reverse decider.withoutNull =
              .ok property.type ∧
            (followed = [] → Property.listsNull decider.node → property.nullable) := by
  obtain ⟨read, hread, hfrom⟩ := exists_found_of_build hbuilt
  refine ⟨read, hread, fun schema hschema c hc property hproperty => ?_⟩
  obtain ⟨found, resolved, kind, _, hresolve, rfl⟩ := hfrom schema hschema c hc
  obtain ⟨properties, hproperties, hmembers⟩ := Class.exists_of_resolve hresolve
  obtain ⟨htype, declared, hdeclared, identifier, type, hsame⟩ := hmembers property hproperty
  have hnullable : property.nullable = Property.acceptsNull property.node := by
    rw [hsame]
    exact Rules.nullable_of_propertiesOf hproperties declared hdeclared
  refine ⟨hnullable, ?_, fun followed decider hdecided => ?_⟩
  · refine (exists_decidedBy_or_mixed spell wrapper format read property.site).imp_right fun hmixed => ?_
    exact Except.ok.inj (htype.symm.trans hmixed)
  · have hdecides := (typeOf_of_decidedBy hdecided).symm.trans htype
    refine ⟨hdecides, (typeAt_withoutNull read followed.reverse decider).trans hdecides, ?_⟩
    rintro rfl hlists
    cases hdecided with
    | here _ => rw [hnullable, Property.acceptsNull, show Property.listsNull property.node from hlists,
        Bool.or_true]

/-! ## A pet with two names -/

namespace Nameless

/-- A pet need have no name and no nickname. The one is said where the name stands, the other where it refers
to. -/
def pets : Document :=
  .map [
    ("openapi", .string "3.0.0"),
    ("definitions", .map [
      ("Name", .map [("type", .list [.string "string", .string "null"])]),
      ("Pet", .map [
        ("properties", .map [
          ("name", .map [("type", .list [.string "string", .string "null"])]),
          ("nickname", .map [("$ref", .string "#/definitions/Name")])])])])]

/-- Serves the pets under any name. -/
def loader : Loader := fun _ => .ok pets

/-- The registry before the pets are read. -/
def start : Registry := (ofOrigins ["d"] "Api").setWhitelist []

/-- What can be computed of the documents that are read: the name is no class, and lists null. -/
theorem exists_name :
    ∃ read, start.readDocuments loader (Rules.standard Text.transliterate "DateTime" {}) = .ok read ∧
      read.class? "d#/definitions/Name" = none ∧
      ∃ node, read.node? "d#/definitions/Name" = some node ∧ node.textAt? "$ref" = none ∧
        Property.listsNull node := by
  have hends :
      (start.readDocuments loader (Rules.standard Text.transliterate "DateTime" {})).toOption.any fun read =>
        (read.class? "d#/definitions/Name").isNone && (read.node? "d#/definitions/Name").any fun node =>
          node.textAt? "$ref" = none && Property.listsNull node := by
    decide +kernel
  cases hread : start.readDocuments loader (Rules.standard Text.transliterate "DateTime" {}) with
  | error error => rw [hread] at hends; cases hends
  | ok read =>
    rw [hread] at hends
    obtain ⟨hclass, hends⟩ := Bool.and_eq_true_iff.1 hends
    cases hnode : read.node? "d#/definitions/Name" with
    | none => rw [hnode] at hends; cases hends
    | some node =>
      rw [hnode] at hends
      obtain ⟨hinline, hnull⟩ := Bool.and_eq_true_iff.1 hends
      exact ⟨read, rfl, Option.isNone_iff_eq_none.1 hclass, node, hnode, of_decide_eq_true hinline, hnull⟩

/-- What can be computed of the pet: its name lists null, and its nickname refers to the name. -/
theorem exists_pet :
    ∃ built, start.build loader (Rules.standard Text.transliterate "DateTime" {}) = .ok built ∧
      ∃ schema ∈ built.schemas, ∃ pet ∈ schema.classes, ∃ name ∈ pet.properties,
        ∃ nickname ∈ pet.properties, name.site.target? = none ∧ Property.listsNull name.node ∧
        nickname.site.target? = some "#/definitions/Name" ∧
        nickname.site.resolve "#/definitions/Name" = "d#/definitions/Name" ∧
        nickname.nullable = false := by
  have hends :
      (start.buildWithin 3 loader (Rules.standard Text.transliterate "DateTime" {})).toOption.any fun built =>
        built.schemas.any fun schema => schema.classes.any fun pet => pet.properties.any fun name =>
          pet.properties.any fun nickname => name.site.target? = none ∧ Property.listsNull name.node ∧
            nickname.site.target? = some "#/definitions/Name" ∧
            nickname.site.resolve "#/definitions/Name" = "d#/definitions/Name" ∧
            nickname.nullable = false := by
    decide +kernel
  obtain ⟨built, hbuilt, hschemas⟩ := exists_build_of_any hends
  obtain ⟨schema, hschema, hclasses⟩ := List.any_eq_true.1 hschemas
  obtain ⟨pet, hpet, hnames⟩ := List.any_eq_true.1 hclasses
  obtain ⟨name, hname, hnicknames⟩ := List.any_eq_true.1 hnames
  obtain ⟨nickname, hnickname, hall⟩ := List.any_eq_true.1 hnicknames
  exact ⟨built, hbuilt, schema, hschema, pet, hpet, name, hname, nickname, hnickname,
    of_decide_eq_true hall⟩

/-- Of the two properties one is decided where it stands and one by the name, and both nodes list null. -/
theorem exists_decided :
    ∃ built read, start.build loader (Rules.standard Text.transliterate "DateTime" {}) = .ok built ∧
      start.readDocuments loader (Rules.standard Text.transliterate "DateTime" {}) = .ok read ∧
      ∃ schema ∈ built.schemas, ∃ pet ∈ schema.classes, ∃ name ∈ pet.properties,
        ∃ nickname ∈ pet.properties, ∃ decider,
          name.site.DecidedBy read [] name.site ∧ Property.listsNull name.node ∧
          nickname.site.DecidedBy read ["d#/definitions/Name"] decider ∧
          Property.listsNull decider.node ∧ nickname.nullable = false := by
  obtain ⟨read, hread, hclass, node, hnode, hend, hnull⟩ := exists_name
  obtain ⟨built, hbuilt, schema, hschema, pet, hpet, name, hname, nickname, hnickname, hinline, hown,
    htarget, hresolve, hflag⟩ := exists_pet
  have halias : nickname.site.alias? read = some ⟨node, "d#/definitions/Name"⟩ :=
    Site.alias?_eq_some_iff.2 ⟨_, htarget, hresolve, hclass, hnode⟩
  have hstop : Site.alias? read ⟨node, "d#/definitions/Name"⟩ = none := by
    rw [Site.alias?, Site.target?, hend, Option.bind_none]
  have hstay : name.site.alias? read = none := by
    rw [Site.alias?, hinline, Option.bind_none]
  exact ⟨built, read, hbuilt, hread, schema, hschema, pet, hpet, name, hname, nickname, hnickname, _,
    .here hstay, hown, .follow halias (.here hstop), hnull, hflag⟩

end Nameless

open Nameless in
/-- The pet's name tells that it may be null. Its nickname has a type that leaves null out, and does not. -/
theorem nullable_of_build_pets :
    ∃ built read, start.build loader (Rules.standard Text.transliterate "DateTime" {}) = .ok built ∧
      start.readDocuments loader (Rules.standard Text.transliterate "DateTime" {}) = .ok read ∧
      ∃ schema ∈ built.schemas, ∃ pet ∈ schema.classes, ∃ name ∈ pet.properties,
        ∃ nickname ∈ pet.properties, ∃ decider,
          name.site.DecidedBy read [] name.site ∧ Property.listsNull name.node ∧ name.nullable ∧
          nickname.site.DecidedBy read ["d#/definitions/Name"] decider ∧
          Property.listsNull decider.node ∧ nickname.nullable = Property.acceptsNull nickname.node ∧
          typeAt (Rules.standard Text.transliterate "DateTime" {}).types read ["d#/definitions/Name"]
              decider.withoutNull =
            .ok nickname.type := by
  obtain ⟨built, read, hbuilt, hread, schema, hschema, pet, hpet, name, hname, nickname, hnickname,
    decider, hown, hnull, haliased, hlists, -⟩ := exists_decided
  obtain ⟨read', hread', hall⟩ := nullable_of_build hbuilt
  cases hread.symm.trans hread'
  obtain ⟨-, -, hdecided⟩ := hall schema hschema pet hpet name hname
  obtain ⟨hflag, -, htyped⟩ := hall schema hschema pet hpet nickname hnickname
  exact ⟨built, read, hbuilt, hread, schema, hschema, pet, hpet, name, hname, nickname, hnickname, decider,
    hown, hnull, (hdecided _ _ hown).2.2 rfl hnull, haliased, hlists, hflag, (htyped _ _ haliased).2.1⟩

open Nameless in
/-- The node that decides the type of the nickname lists null, and the nickname is not nullable. -/
theorem not_nullable_of_alias :
    ∃ built read, start.build loader (Rules.standard Text.transliterate "DateTime" {}) = .ok built ∧
      start.readDocuments loader (Rules.standard Text.transliterate "DateTime" {}) = .ok read ∧
      ∃ schema ∈ built.schemas, ∃ pet ∈ schema.classes, ∃ nickname ∈ pet.properties,
        ∃ followed decider, nickname.site.DecidedBy read followed decider ∧
          Property.listsNull decider.node ∧ nickname.nullable = false := by
  obtain ⟨built, read, hbuilt, hread, schema, hschema, pet, hpet, -, -, nickname, hnickname, decider, -, -,
    haliased, hlists, hflag⟩ := exists_decided
  exact ⟨built, read, hbuilt, hread, schema, hschema, pet, hpet, nickname, hnickname, _, decider, haliased,
    hlists, hflag⟩

end Registry

end ApiModel
