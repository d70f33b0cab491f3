import ApiModel.Proofs.Identifier
import ApiModel.Proofs.Registry.Evaluation
import ApiModel.Proofs.Registry.Whitelist
import ApiModel.Proofs.Text.Transliteration

/-!
# What generated code can be named

The name of a class is an identifier when the class is found, and the identifiers of its properties are given
when its members are. Nothing later in a build changes either of them. So with every spelling in ASCII, each
class of a build and each property of it has a well-formed identifier, and within a class no two of them are
equal in lower case (`identifiers_of_build`).
-/

namespace ApiModel

/-! ## One class -/

/-- Properties that are named have the identifiers that are given for their names in turn. -/
theorem Property.map_identifier_identify (spell : Text.Spelling) (properties : List Property) :
    (identify spell properties).map Property.identifier =
      Identifier.assign (properties.map fun property => Identifier.ofProperty spell property.name) := by
  have hlength : (Identifier.assign
      (properties.map fun property => Identifier.ofProperty spell property.name)).length ≤
        properties.length := by
    rw [Identifier.assign, Identifier.length_assignFrom, List.length_map]
  unfold identify
  rw [List.map_zipWith, ← List.map_uncurry_zip_eq_zipWith]
  exact List.map_snd_zip hlength

/-- Finding the members of a class names its properties in turn. -/
theorem Class.map_identifier_of_resolve {c resolved : Class} {rules : Rules} {registry : Registry}
    (h : c.resolve rules registry = .ok resolved) :
    ∃ properties, rules.propertiesOf registry c.site = .ok properties ∧
      resolved.properties.map Property.identifier =
        Identifier.assign
          (properties.map fun property => Identifier.ofProperty rules.spell property.name) := by
  obtain ⟨typed, htyped, h⟩ := Traversal.bind_eq_ok.1 h
  obtain ⟨_, _, h⟩ := Traversal.bind_eq_ok.1 h
  cases h
  obtain ⟨properties, hproperties, htyped⟩ := Traversal.bind_eq_ok.1 htyped
  refine ⟨properties, hproperties, ?_⟩
  rw [← Property.map_identifier_identify]
  -- the type of a property is all that is added to it
  refine Traversal.map_eq_of_mapM (fun named property hstep => ?_) htyped
  obtain ⟨type, _, hstep⟩ := Traversal.bind_eq_ok.1 hstep
  cases hstep
  rfl

/-! ## All classes of a build -/

namespace Registry

variable {origins paths : List String} {rootName : String} {load : Loader} {rules : Rules}
  {built : Registry}

/-- A class of a build is one that was found, with its members, and with the union it is a child of. -/
theorem exists_found_of_build
    (hbuilt : ((ofOrigins origins rootName).setWhitelist paths).build load rules = .ok built) :
    ∃ read, ((ofOrigins origins rootName).setWhitelist paths).readDocuments load rules = .ok read ∧
      ∀ schema ∈ built.schemas, ∀ c ∈ schema.classes, ∃ found resolved kind,
        read.class? c.reference = some found ∧ found.resolve rules read = .ok resolved ∧
          c = { resolved with kind } := by
  rw [build_eq] at hbuilt
  obtain ⟨assembled, hassembled, rfl⟩ := Traversal.map_eq_ok.1 hbuilt
  obtain ⟨read, resolved, hread, hresolved, rfl⟩ := assemble_eq_ok hassembled
  have hfound := found_of_readDocuments hread
  have hplaced := hfound.placed.placed_of_resolveClasses hresolved
  refine ⟨read, hread, fun schema hschema c hc => ?_⟩
  -- back through the passes: pruning, linking, resolving
  have hclass := hplaced.placed_linkUnions.prune.class?_eq_some_iff.2 ⟨schema, hschema, hc, rfl⟩
  have hlinked := (hplaced.placed_linkUnions.class?_prune_iff.1 hclass).1
  rw [hplaced.class?_linkUnions] at hlinked
  obtain ⟨member, hmember, rfl⟩ := Option.map_eq_some_iff.1 hlinked
  obtain ⟨after, hafter, hmem, _⟩ := mem_of_class? hmember
  obtain ⟨before, hbefore, hresolve⟩ := hfound.placed.schema_of_resolveClasses hresolved hafter
  obtain ⟨found, hmemFound, hmemberResolve⟩ := class_of_resolve hresolve hmem
  obtain ⟨kind, hkind⟩ := member.foldl_adopt_eq resolved.unionLinks
  refine ⟨found, member, kind, ?_, hmemberResolve, hkind⟩
  rw [Class.reference_foldl_adopt, Class.reference_of_resolve hmemberResolve]
  exact hfound.placed.class?_eq_some_iff.2 ⟨before, hbefore, hmemFound, rfl⟩

/-- What was found is the class of a seed. -/
theorem exists_resolved_of_class
    (hbuilt : ((ofOrigins origins rootName).setWhitelist paths).build load rules = .ok built)
    {schema : Schema} (hschema : schema ∈ built.schemas) {c : Class} (hc : c ∈ schema.classes) :
    ∃ (read : Registry) (seed : Seed) (resolved : Class) (kind : ClassKind),
      ((ofOrigins origins rootName).setWhitelist paths).readDocuments load rules = .ok read ∧
        (classOf (Identifier.ofClass rules.spell seed.name) seed.site).resolve rules read = .ok resolved ∧
          c = { resolved with kind } := by
  obtain ⟨read, hread, hfrom⟩ := exists_found_of_build hbuilt
  obtain ⟨found, resolved, kind, hfound, hresolve, hkind⟩ := hfrom schema hschema c hc
  have hseeds := found_of_readDocuments hread
  obtain ⟨before, hbefore, hmem, _⟩ := mem_of_class? hfound
  obtain ⟨seed, _, _, _, rfl⟩ := (hseeds.found before hbefore).classes found hmem
  exact ⟨read, seed, resolved, kind, hread, hresolve, hkind⟩

/-- Where texts are spelled in ASCII, every class and every property of a build has a name that is a capital
letter with letters and digits behind it, and within a class no two properties have names that are equal in
lower case. -/
theorem identifiers_of_build (hascii : ∀ text, Text.Ascii (rules.spell text))
    (hbuilt : ((ofOrigins origins rootName).setWhitelist paths).build load rules = .ok built) :
    ∀ schema ∈ built.schemas, ∀ c ∈ schema.classes, Identifier.Proper c.name ∧
      (∀ property ∈ c.properties, Identifier.Proper property.identifier) ∧
        (Identifier.forms (c.properties.map Property.identifier)).Nodup := by
  intro schema hschema c hc
  obtain ⟨read, seed, resolved, kind, _, hresolve, rfl⟩ := exists_resolved_of_class hbuilt hschema hc
  have hname : resolved.name = Identifier.ofClass rules.spell seed.name :=
    congrArg Class.name (Class.outline_of_resolve hresolve)
  obtain ⟨properties, _, hidentifiers⟩ := Class.map_identifier_of_resolve hresolve
  refine ⟨?_, fun property hproperty => ?_, ?_⟩
  · show Identifier.Proper resolved.name
    rw [hname]
    exact Identifier.proper_ofClass hascii seed.name
  · have hgiven := List.mem_map_of_mem (f := Property.identifier) hproperty
    rw [hidentifiers, Identifier.assign] at hgiven
    refine Identifier.proper_assignFrom [] (fun base hbase => ?_) _ hgiven
    obtain ⟨declared, _, rfl⟩ := List.mem_map.1 hbase
    exact Identifier.proper_ofProperty hascii declared.name
  · show (Identifier.forms (resolved.properties.map Property.identifier)).Nodup
    rw [hidentifiers]
    exact (Identifier.nodup_forms_assignFrom [] _).1

/-! ## A pantry -/

namespace Pantry

/-- A schema whose keys are far from identifiers, and meet each other once they are made into some. -/
def stock : Document :=
  .map [
    ("openapi", .string "3.0.0"),
    ("components", .map [
      ("schemas", .map [
        ("2nd jar", .map [
          ("properties", .map [
            ("", .map [("type", .string "string")]),
            ("Id2", .map [("type", .string "integer")]),
            ("id", .map [("type", .string "integer")]),
            ("ID", .map [("type", .string "integer")]),
            ("Äpfel", .map [("type", .string "integer")])])])])])]

/-- Serves the stock under any name. -/
def loader : Loader := fun _ => .ok stock

/-- The registry before the stock is read. -/
def start : Registry := (ofOrigins ["pantry"] "Api").setWhitelist []

/-- What can be computed of the stock: the name of the schema and the identifiers of its properties. -/
theorem exists_stock :
    ∃ built, start.build loader (Rules.standard Text.transliterate "DateTime" {}) = .ok built ∧
      ∃ schema ∈ built.schemas, ∃ c ∈ schema.classes, c.name = "N2ndJar" ∧
        c.properties.map Property.identifier =
          ["Property", "Id2", "Id", "Id3", "Apfel"] := by
  have hends :
      (start.buildWithin 3 loader (Rules.standard Text.transliterate "DateTime" {})).toOption.any fun built =>
        built.schemas.any fun schema => schema.classes.any fun c => c.name = "N2ndJar" ∧
          c.properties.map Property.identifier =
            ["Property", "Id2", "Id", "Id3", "Apfel"] := by
    decide +kernel
  obtain ⟨built, hbuilt, hschemas⟩ := exists_build_of_any hends
  obtain ⟨schema, hschema, hclasses⟩ := List.any_eq_true.1 hschemas
  obtain ⟨c, hc, hboth⟩ := List.any_eq_true.1 hclasses
  exact ⟨built, hbuilt, schema, hschema, c, hc, of_decide_eq_true hboth⟩

end Pantry

open Pantry in
/-- The names that are made from the keys of the stock are well formed, and those of the properties differ in
lower case. -/
theorem identifiers_of_build_pantry :
    (∀ text, Text.Ascii (Text.transliterate text)) ∧
      ∃ built, start.build loader (Rules.standard Text.transliterate "DateTime" {}) = .ok built ∧
        ∃ schema ∈ built.schemas, ∃ c ∈ schema.classes, c.name = "N2ndJar" ∧
          Identifier.Proper c.name ∧
          c.properties.map Property.identifier =
            ["Property", "Id2", "Id", "Id3", "Apfel"] ∧
          (∀ property ∈ c.properties, Identifier.Proper property.identifier) ∧
            (Identifier.forms (c.properties.map Property.identifier)).Nodup := by
  obtain ⟨built, hbuilt, schema, hschema, c, hc, hname, hidentifiers⟩ := exists_stock
  obtain ⟨hproper, hproperties, hdiffer⟩ :=
    identifiers_of_build Text.ascii_transliterate hbuilt schema hschema c hc
  exact ⟨Text.ascii_transliterate, built, hbuilt, schema, hschema, c, hc, hname, hproper, hidentifiers,
    hproperties, hdiffer⟩

end Registry

end ApiModel
