import ApiModel.Proofs.Property.Unfolding
import ApiModel.Text.Transliteration

/-!
# Where a property is required

A property is declared by a node under `properties`, and a node lists under `required` what has to be
there. The properties of a node may come from any node of its unfolding (`Site.Spreads`), and of the nodes
that declare a name the first one gives the property. It is this one whose `required` counts
(`Rules.required_of_propertiesOf`): that of the node itself is read for the properties that the node
declares and for no others.
-/

namespace ApiModel

namespace Site

variable {registry : Registry} {site base : Site} {name : String}

/-- Whether a node declares a property. -/
def declares (site : Site) (name : String) : Bool :=
  ((site.node.entriesAt? "properties").getD []).any fun entry => entry.1 = name

/-- Whether a node lists a name as required. -/
def requires (site : Site) (name : String) : Bool :=
  ((site.node.itemsAt? "required").getD []).any fun item => item.text? = some name

/-- The nodes of the unfolding of a node: itself, and then those of each base. -/
inductive Spreads (registry : Registry) : Site → List Site → Prop where
  | node {site : Site} {listing : Site → List Site} : site.Resolves registry →
    (∀ base ∈ site.bases registry, Spreads registry base (listing base)) →
      Spreads registry site (site :: (site.bases registry).flatMap listing)

/-- What an unfolding declares is what its nodes declare, one after another. -/
theorem Unfolds.exists_spreads {declarations : List Property} (h : site.Unfolds registry declarations) :
    ∃ sites, site.Spreads registry sites ∧ declarations = sites.flatMap declaredProperties := by
  induction h with
  | @node site listing hresolves _ ih =>
    choose! spread hspread hlisting using ih
    refine ⟨_, .node hresolves hspread, ?_⟩
    rw [List.flatMap_cons, List.flatMap_assoc, List.flatMap_congr hlisting]

/-- The node itself comes first. -/
theorem Spreads.find?_eq_self {sites : List Site} (h : site.Spreads registry sites)
    {p : Site → Bool} (hp : p site) : sites.find? p = some site := by
  cases h with
  | node _ _ => rw [List.find?_cons_of_pos hp]

/-- A node declares a property of its own and requires it as its list says. -/
theorem of_mem_declaredProperties {property : Property} (h : property ∈ declaredProperties site) :
    site.declares property.name ∧ property.required = site.requires property.name := by
  obtain ⟨⟨name, inner⟩, hentry, rfl⟩ := List.mem_map.1 h
  obtain ⟨entries, node, hentries, hmem, _⟩ := exists_of_mem_entries hentry
  constructor
  · rw [declares, hentries]
    exact List.any_eq_true.2 ⟨_, hmem, decide_eq_true rfl⟩
  · rw [requires, Bool.eq_iff_iff]
    simp [Property.ofNode]

theorem exists_declaredProperty (h : site.declares name) :
    ∃ property ∈ declaredProperties site, property.name = name := by
  obtain ⟨⟨other, node⟩, hmem, hname⟩ := List.any_eq_true.1 h
  have hname : other = name := of_decide_eq_true hname
  refine ⟨_, List.mem_map_of_mem (List.mem_map_of_mem hmem), hname⟩

/-- The first property of a name is declared by the first node that declares the name. -/
theorem exists_owner {property : Property} {sites : List Site}
    (h : Keyed.get? Property.name name (sites.flatMap declaredProperties) = some property) :
    ∃ owner, sites.find? (·.declares name) = some owner ∧ property ∈ declaredProperties owner := by
  induction sites with
  | nil => cases h
  | cons site sites ih =>
    rw [List.flatMap_cons, Keyed.get?_append] at h
    cases hfirst : Keyed.get? Property.name name (declaredProperties site) with
    | some first =>
      rw [hfirst, Option.some_or] at h
      cases h
      have hmem := Keyed.mem_of_get? hfirst
      have hname : property.name = name := Keyed.key_of_get? hfirst
      have hdeclares := (of_mem_declaredProperties hmem).1
      rw [hname] at hdeclares
      exact ⟨site, List.find?_cons_of_pos hdeclares, hmem⟩
    | none =>
      have hnone : site.declares name = false := by
        refine Bool.eq_false_iff.2 fun hdeclares => ?_
        obtain ⟨other, hother, hname⟩ := exists_declaredProperty hdeclares
        exact Keyed.get?_eq_none_iff.1 hfirst other hother hname
      rw [hfirst, Option.none_or] at h
      simp only [List.find?_cons, hnone]
      exact ih h

end Site

namespace Rules

variable {spell : Text.Spelling} {wrapper : String} {format : DateTimeFormat} {registry : Registry}
  {site : Site}

/-- A property is required if the node that gives it says so: the first one in the unfolding that declares
its name. That is the node itself for what it declares. -/
theorem required_of_propertiesOf {properties : List Property}
    (h : (standard spell wrapper format).propertiesOf registry site = .ok properties) :
    ∃ sites, site.Spreads registry sites ∧ ∀ property ∈ properties,
      (∃ owner, sites.find? (·.declares property.name) = some owner ∧
        property.required = owner.requires property.name) ∧
      (site.declares property.name → property.required = site.requires property.name) := by
  obtain ⟨declarations, hunfolds, rfl⟩ := propertiesOf_iff.1 h
  obtain ⟨sites, hspreads, rfl⟩ := hunfolds.exists_spreads
  refine ⟨sites, hspreads, fun property hproperty => ?_⟩
  obtain ⟨owner, howner, hdeclared⟩ := Site.exists_owner (Keyed.get?_of_mem_firsts hproperty)
  have hrequired := (Site.of_mem_declaredProperties hdeclared).2
  refine ⟨⟨owner, howner, hrequired⟩, fun hdeclares => ?_⟩
  have hself : owner = site := Option.some.inj (howner.symm.trans (hspreads.find?_eq_self hdeclares))
  rw [hrequired, hself]

namespace Heir

/-- A pet requires a name, which it declares, and an id, which it inherits. -/
def pet : Site where
  node := .map [
    ("required", .list [.string "id", .string "name"]),
    ("properties", .map [("name", .map [("type", .string "string")])]),
    ("allOf", .list [.map [("$ref", .string "#/definitions/Base")]])]
  reference := "d#/definitions/Pet"

/-- The document of the pet. Its base has an id that need not be there. -/
def pets : Registry where
  schemas := [{
    origin := "d"
    rootName := "Api"
    parsed := some (.map [
      ("openapi", .string "3.0.0"),
      ("definitions", .map [
        ("Base", .map [("properties", .map [("id", .map [("type", .string "integer")])])]),
        ("Pet", pet.node)])]) }]

/-- The properties of the pet, with what is required. -/
theorem exists_properties :
    ∃ properties, (standard Text.transliterate "DateTime" {}).propertiesOf pets pet = .ok properties ∧
      properties.map (fun property => (property.name, property.required)) =
        [("name", true), ("id", false)] := by
  have hwithin :
      (propertiesWithin (standard Text.transliterate "DateTime" {}).properties pets 3 [] pet).toOption.map
        (List.map fun property => (property.name, property.required)) =
          some [("name", true), ("id", false)] := by
    decide +kernel
  cases hfound : propertiesWithin (standard Text.transliterate "DateTime" {}).properties pets 3 [] pet with
  | error error => rw [hfound] at hwithin; cases hwithin
  | ok properties =>
    rw [hfound] at hwithin
    exact ⟨properties, propertiesAt_of_propertiesWithin hfound, Option.some.inj hwithin⟩

end Heir

open Heir in
/-- Of the properties of the pet the name is required, which the pet declares. -/
theorem required_of_propertiesOf_pet :
    ∃ properties sites, (standard Text.transliterate "DateTime" {}).propertiesOf pets pet = .ok properties ∧
      properties.map (fun property => (property.name, property.required)) =
        [("name", true), ("id", false)] ∧
      pet.Spreads pets sites ∧ ∀ property ∈ properties,
        (∃ owner, sites.find? (·.declares property.name) = some owner ∧
          property.required = owner.requires property.name) ∧
        (pet.declares property.name → property.required = pet.requires property.name) := by
  obtain ⟨properties, hfound, hflags⟩ := exists_properties
  obtain ⟨sites, hspreads, hrequired⟩ := required_of_propertiesOf hfound
  exact ⟨properties, sites, hfound, hflags, hspreads, hrequired⟩

open Heir in
/-- The id is not required, though the pet lists it: the base that declares it does not. -/
theorem not_required_of_inherited :
    ¬ ∀ properties, (standard Text.transliterate "DateTime" {}).propertiesOf pets pet = .ok properties →
      ∀ property ∈ properties, pet.requires property.name → property.required := by
  intro hclaim
  obtain ⟨properties, hfound, hflags⟩ := exists_properties
  have hmem : ("id", false) ∈ properties.map fun property => (property.name, property.required) := by
    rw [hflags]
    decide
  obtain ⟨property, hproperty, hid⟩ := List.mem_map.1 hmem
  obtain ⟨hname, hrequired⟩ := Prod.mk.inj hid
  have hlisted : pet.requires property.name := by
    rw [hname]
    decide +kernel
  have htrue := hclaim properties hfound property hproperty hlisted
  rw [hrequired] at htrue
  cases htrue

end Rules

end ApiModel
