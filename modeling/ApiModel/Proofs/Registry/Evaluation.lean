import ApiModel.Proofs.Registry.Assembly
import ApiModel.Text.Transliteration

/-!
# Builds that can be evaluated

Types and properties are found by recursions that end because references run out, which is nothing that
can be computed with. Here the same steps are taken with a bound on how deep they go. Where the bound
is enough the result is the same (`build_of_buildWithin`), so a build of a concrete registry can be
evaluated.
-/

namespace ApiModel

/-! ## Types and properties -/

/-- The type of a node, as long as it is found in `depth` steps. -/
def typeWithin (rules : List TypeRule) (registry : Registry) :
    Nat → List String → Site → Except Error DataType
  | 0, _, _ => .error .noScalarType
  | depth + 1, followed, site =>
    match rules.find? (·.supports registry site) with
    | none => .ok .mixed
    | some rule =>
      match rule.plan registry site with
      | .error error => .error error
      | .ok (.known type) => .ok type
      | .ok (.follow target) =>
        match registry.follow? followed target.reference with
        | none => .ok .mixed
        | some longer => typeWithin rules registry depth longer target
      | .ok (.combine sites build) =>
        (sites.mapM (typeWithin rules registry depth followed)).map build

/-- The properties of a node, as long as they are found in `depth` steps. -/
def propertiesWithin (rules : List PropertyRule) (registry : Registry) :
    Nat → List String → Site → Except Error (List Property)
  | 0, _, site => .error (.cyclicAllOf "" site.reference)
  | depth + 1, followed, site =>
    let lists := (propertyParts rules site).mapM fun part =>
      match part with
      | .declared properties => Except.ok properties
      | .member inner => propertiesWithin rules registry depth followed inner
      | .inherited target =>
        match inheritedFrom registry site target with
        | .error error => .error error
        | .ok base =>
          match registry.follow? followed base.reference with
          | none => .error (.cyclicAllOf target site.reference)
          | some longer => propertiesWithin rules registry depth longer base
    lists.map fun lists => Keyed.firsts Property.name lists.flatten

theorem typeAt_of_typeWithin {rules : List TypeRule} {registry : Registry} {depth : Nat}
    {followed : List String} {site : Site} {type : DataType}
    (h : typeWithin rules registry depth followed site = .ok type) :
    typeAt rules registry followed site = .ok type := by
  induction depth generalizing followed site type with
  | zero => cases h
  | succ depth ih =>
    -- a type that was found within the bound was found by the same steps
    rw [typeWithin] at h
    rw [typeAt_eq]
    cases hrule : rules.find? (·.supports registry site) with
    | none => rw [hrule] at h; exact h
    | some rule =>
      rw [hrule] at h
      dsimp only at h ⊢
      cases hplan : rule.plan registry site with
      | error error => rw [hplan] at h; exact h
      | ok plan =>
        rw [hplan] at h
        cases plan with
        | known known => exact h
        | follow target =>
          dsimp only at h ⊢
          cases hgo : registry.follow? followed target.reference with
          | none => rw [hgo] at h; exact h
          | some longer => rw [hgo] at h; exact ih h
        | combine sites build =>
          obtain ⟨types, htypes, hbuild⟩ := Traversal.map_eq_ok.1 h
          exact Traversal.map_eq_ok.2
            ⟨types, Traversal.mapM_imp (fun _ _ hinner => ih hinner) htypes, hbuild⟩

theorem propertiesAt_of_propertiesWithin {rules : List PropertyRule} {registry : Registry}
    {depth : Nat} {followed : List String} {site : Site} {properties : List Property}
    (h : propertiesWithin rules registry depth followed site = .ok properties) :
    propertiesAt rules registry followed site = .ok properties := by
  induction depth generalizing followed site properties with
  | zero => cases h
  | succ depth ih =>
    rw [propertiesWithin] at h
    rw [propertiesAt_eq]
    obtain ⟨lists, hlists, hfirsts⟩ := Traversal.map_eq_ok.1 h
    refine Traversal.map_eq_ok.2 ⟨lists, Traversal.mapM_imp (fun part found hpart => ?_) hlists,
      hfirsts⟩
    cases part with
    | declared properties => exact hpart
    | member inner => exact ih hpart
    | inherited target =>
      rw [PropertyPart.properties]
      dsimp only at hpart
      cases hbase : inheritedFrom registry site target with
      | error error => rw [hbase] at hpart; exact hpart
      | ok base =>
        rw [hbase] at hpart
        dsimp only at hpart ⊢
        cases hgo : registry.follow? followed base.reference with
        | none => rw [hgo] at hpart; exact hpart
        | some longer => rw [hgo] at hpart; exact ih hpart

/-! ## Classes and builds -/

/-- A class with its members, as long as they are found in `depth` steps. -/
def Class.resolveWithin (rules : Rules) (registry : Registry) (depth : Nat) (c : Class) :
    Except Error Class := do
  let untyped ← propertiesWithin rules.properties registry depth [] c.site
  let properties ← (Property.identify rules.spell untyped).mapM fun property => do
    let type ← typeWithin rules.types registry depth [] property.site
    return { property with type }
  let extensionTypes ← c.extensions.mapM fun (pattern, slot) => do
    let type ← typeWithin rules.types registry depth [] slot.site
    return (pattern, type)
  return { c with properties, extensionTypes }

/-- A build, as long as all members are found in `depth` steps. -/
def Registry.buildWithin (registry : Registry) (depth : Nat) (load : Loader) (rules : Rules) :
    Except Error Registry := do
  let read ← registry.readDocuments load rules
  let schemas ← read.schemas.mapM fun schema => do
    let classes ← schema.classes.mapM (Class.resolveWithin rules read depth)
    return { classes.foldl Schema.recordRelations schema with classes }
  return Registry.prune (Registry.linkUnions { read with schemas })

/-- All of a build but its end, as long as all members are found in `depth` steps. -/
def Registry.assembleWithin (registry : Registry) (depth : Nat) (load : Loader) (rules : Rules) :
    Except Error Registry := do
  let read ← registry.readDocuments load rules
  let schemas ← read.schemas.mapM fun schema => do
    let classes ← schema.classes.mapM (Class.resolveWithin rules read depth)
    return { classes.foldl Schema.recordRelations schema with classes }
  return Registry.linkUnions { read with schemas }

theorem Class.resolve_of_resolveWithin {rules : Rules} {registry : Registry} {depth : Nat}
    {c resolved : Class} (h : c.resolveWithin rules registry depth = .ok resolved) :
    c.resolve rules registry = .ok resolved := by
  obtain ⟨untyped, huntyped, h⟩ := Traversal.bind_eq_ok.1 h
  obtain ⟨properties, hproperties, h⟩ := Traversal.bind_eq_ok.1 h
  obtain ⟨extensionTypes, hextensions, h⟩ := Traversal.bind_eq_ok.1 h
  refine Traversal.bind_eq_ok.2 ⟨properties, ?_, Traversal.bind_eq_ok.2 ⟨extensionTypes, ?_, h⟩⟩
  · refine Traversal.bind_eq_ok.2 ⟨untyped, propertiesAt_of_propertiesWithin huntyped, ?_⟩
    refine Traversal.mapM_imp (fun property typed hstep => ?_) hproperties
    obtain ⟨type, htype, hstep⟩ := Traversal.bind_eq_ok.1 hstep
    exact Traversal.bind_eq_ok.2 ⟨type, typeAt_of_typeWithin htype, hstep⟩
  · refine Traversal.mapM_imp (fun slot typed hstep => ?_) hextensions
    obtain ⟨type, htype, hstep⟩ := Traversal.bind_eq_ok.1 hstep
    exact Traversal.bind_eq_ok.2 ⟨type, typeAt_of_typeWithin htype, hstep⟩

/-- The schema with what its references find, as long as all members are found in `depth` steps. -/
def Schema.resolveFoundWithin (rules : Rules) (registry : Registry) (depth : Nat) (schema : Schema) :
    Except Error Schema := do
  let classes ← schema.classes.mapM fun c => (registry.found c).resolveWithin rules registry depth
  return { classes.foldl Schema.recordRelations schema with classes }

/-- Classes whose members are all found within a bound are resolved. -/
theorem Registry.Distinct.resolveClasses_of_resolveWithin {rules : Rules} {registry : Registry}
    (hdistinct : registry.Distinct) {depth : Nat} {schemas : List Schema}
    (h : registry.schemas.mapM (Schema.resolveFoundWithin rules registry depth) = .ok schemas) :
    registry.resolveClasses rules = .ok { registry with schemas } := by
  rw [hdistinct.resolveClasses]
  refine Traversal.map_eq_ok.2 ⟨schemas, Traversal.mapM_imp (fun schema resolved hstep => ?_) h, rfl⟩
  obtain ⟨classes, hclasses, hstep⟩ := Traversal.bind_eq_ok.1 hstep
  refine Traversal.bind_eq_ok.2 ⟨classes, ?_, hstep⟩
  exact Traversal.mapM_imp (fun _ _ hc => Class.resolve_of_resolveWithin hc) hclasses

theorem Registry.Placed.resolveClasses_of_resolveWithin {rules : Rules} {read : Registry}
    (hplaced : read.Placed) {depth : Nat} {schemas : List Schema}
    (h : (read.schemas.mapM fun schema => do
      let classes ← schema.classes.mapM (Class.resolveWithin rules read depth)
      return { classes.foldl Schema.recordRelations schema with classes }) = .ok schemas) :
    read.resolveClasses rules = .ok { read with schemas } := by
  have hfound : read.schemas.mapM (Schema.resolveFoundWithin rules read depth) = .ok schemas := by
    rw [← h]
    refine Traversal.mapM_congr fun schema hschema => ?_
    unfold Schema.resolveFoundWithin
    rw [Traversal.mapM_congr fun c hc => by rw [hplaced.found_eq hschema hc]]
  exact hplaced.distinct.resolveClasses_of_resolveWithin hfound

/-- A build that ends within its bound is what the build without a bound gives. -/
theorem Registry.build_of_buildWithin {origins paths : List String} {rootName : String} {depth : Nat}
    {load : Loader} {rules : Rules} {built : Registry}
    (h : ((ofOrigins origins rootName).setWhitelist paths).buildWithin depth load rules =
      .ok built) :
    ((ofOrigins origins rootName).setWhitelist paths).build load rules = .ok built := by
  obtain ⟨read, hread, h⟩ := Traversal.bind_eq_ok.1 h
  obtain ⟨schemas, hschemas, h⟩ := Traversal.bind_eq_ok.1 h
  have hplaced :=
    (found_of_readDocuments hread).placed
  have hresolved := hplaced.resolveClasses_of_resolveWithin hschemas
  exact Traversal.bind_eq_ok.2 ⟨read, hread, Traversal.bind_eq_ok.2 ⟨_, hresolved, h⟩⟩

theorem Registry.assemble_of_assembleWithin {origins paths : List String} {rootName : String}
    {depth : Nat} {load : Loader} {rules : Rules} {assembled : Registry}
    (h : ((ofOrigins origins rootName).setWhitelist paths).assembleWithin depth load rules =
      .ok assembled) :
    ((ofOrigins origins rootName).setWhitelist paths).assemble load rules = .ok assembled := by
  obtain ⟨read, hread, h⟩ := Traversal.bind_eq_ok.1 h
  obtain ⟨schemas, hschemas, h⟩ := Traversal.bind_eq_ok.1 h
  have hplaced :=
    (found_of_readDocuments hread).placed
  have hresolved := hplaced.resolveClasses_of_resolveWithin hschemas
  exact Traversal.bind_eq_ok.2 ⟨read, hread, Traversal.bind_eq_ok.2 ⟨_, hresolved, h⟩⟩

theorem Registry.exists_build {origins paths : List String} {rootName : String} {depth : Nat}
    {load : Loader} {rules : Rules}
    (h : (((ofOrigins origins rootName).setWhitelist paths).buildWithin depth load rules).isOk) :
    ∃ built, ((ofOrigins origins rootName).setWhitelist paths).build load rules = .ok built := by
  cases hwithin : ((ofOrigins origins rootName).setWhitelist paths).buildWithin depth load rules with
  | error error => rw [hwithin] at h; cases h
  | ok built => exact ⟨built, build_of_buildWithin hwithin⟩

/-- What is computed of a build within a bound holds of the build. -/
theorem Registry.exists_build_of_any {origins paths : List String} {rootName : String} {depth : Nat}
    {load : Loader} {rules : Rules} {P : Registry → Bool}
    (h : (((ofOrigins origins rootName).setWhitelist paths).buildWithin depth load rules).toOption.any P) :
    ∃ built, ((ofOrigins origins rootName).setWhitelist paths).build load rules = .ok built ∧
      P built := by
  cases hwithin : ((ofOrigins origins rootName).setWhitelist paths).buildWithin depth load rules with
  | error error => rw [hwithin] at h; cases h
  | ok built =>
    rw [hwithin] at h
    exact ⟨built, build_of_buildWithin hwithin, h⟩

/-! ## Two documents -/

namespace Sample

/-- Cats and dogs are pets; a cat has its name and its owner from the other document. Nothing needs the
fish. -/
def pets : Document :=
  .map [
    ("openapi", .string "3.0.0"),
    ("paths", .map [
      ("/cats/\x7bid\x7d", .map [("get", .map [("$ref", .string "#/definitions/Cat")])])]),
    ("definitions", .map [
      ("Pet", .map [
        ("discriminator", .string "kind"),
        ("oneOf", .list [
          .map [("$ref", .string "#/definitions/Cat")],
          .map [("$ref", .string "#/definitions/Dog~1Wolf")]])]),
      ("Cat", .map [
        ("allOf", .list [.map [("$ref", .string "people#/definitions/Named")]]),
        ("properties", .map [
          ("owner", .map [("$ref", .string "people#/definitions/Person")])]),
        ("additionalProperties", .bool true)]),
      ("Dog/Wolf", .map [("properties", .map [])]),
      ("Fish", .map [("properties", .map [])])])]

/-- People have names and cats. -/
def people : Document :=
  .map [
    ("swagger", .string "2.0"),
    ("definitions", .map [
      ("Named", .map [
        ("properties", .map [("name", .map [("type", .string "string")])])]),
      ("Person", .map [
        ("properties", .map [
          ("cats", .map [
            ("type", .string "array"),
            ("items", .map [("$ref", .string "pets#/definitions/Cat")])])])])])]

/-- Serves the two documents. -/
def load : Loader := fun origin =>
  if origin = "pets" then .ok pets
  else if origin = "people" then .ok people
  else .error (.noDocument origin)

/-- The two documents can be built, and no member of a class is found deeper than three steps. -/
theorem exists_build :
    ∃ built, ((Registry.ofOrigins ["pets", "people"] "Root").setWhitelist
      ["/cats/\x7bid\x7d"]).build load (Rules.standard Text.transliterate "DateTime" {}) = .ok built := by
  have hends : (((Registry.ofOrigins ["pets", "people"] "Root").setWhitelist
      ["/cats/\x7bid\x7d"]).buildWithin 3 load (Rules.standard Text.transliterate "DateTime" {})).isOk := by
    decide +kernel
  exact Registry.exists_build hends

end Sample

end ApiModel
