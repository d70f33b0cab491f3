import ApiModel.Proofs.Class.Rule
import ApiModel.Proofs.Registry.Likeness

/-!
# Where properties come from

Every property of a node stands in that node, in an inline member of its `allOf`, or in a node that one
of these refers to. So a predicate on sites that is handed on from nodes to their parts, and holds of
every node that is inherited from, holds of all properties (`site_of_propertiesAt`).
-/

namespace ApiModel

/-- A predicate holds of all sites that a part of a node gives. What a reference leads to is not among
them. -/
def PropertyPart.Stands (P : Site → Prop) : PropertyPart → Prop
  | declared properties => ∀ property ∈ properties, P property.site
  | member site => P site
  | inherited _ => True

variable {P : Site → Prop} (h : Site.Inherited P)
include h

theorem site_of_declaredProperties {site : Site} (hsite : P site) {property : Property}
    (hproperty : property ∈ declaredProperties site) : P property.site := by
  unfold declaredProperties at hproperty
  obtain ⟨entry, hentry, rfl⟩ := List.mem_map.1 hproperty
  exact h.entry hsite hentry

/-- The parts of a node are made from its own entries and the items of its `allOf`. -/
theorem stands_of_mem_propertyParts {rules : List PropertyRule} {site : Site} (hsite : P site)
    {part : PropertyPart} (hpart : part ∈ propertyParts rules site) : part.Stands P := by
  obtain ⟨rule, _, hpart⟩ := List.mem_flatMap.1 hpart
  cases rule with
  | declared =>
    cases List.mem_singleton.1 hpart
    exact fun property hproperty => site_of_declaredProperties h hsite hproperty
  | allOf =>
    obtain ⟨member, hmember, rfl⟩ := List.mem_map.1 hpart
    unfold PropertyPart.ofMember
    split
    · trivial
    · exact h.item hsite hmember

theorem site_of_propertiesAt {rules : List PropertyRule} {registry : Registry}
    (hbase : ∀ site target base, inheritedFrom registry site target = .ok base → P base)
    {followed : List String} {site : Site} (hsite : P site) {properties : List Property}
    (hok : propertiesAt rules registry followed site = .ok properties) :
    ∀ property ∈ properties, P property.site := by
  -- the recursion of `propertiesAt` itself: into inline members and along references
  induction followed, site using propertiesAt.induct rules registry generalizing properties with
  | case1 followed site ihmember ihbase =>
    intro property hproperty
    rw [propertiesAt_eq] at hok
    obtain ⟨lists, hlists, rfl⟩ := Traversal.map_eq_ok.1 hok
    obtain ⟨list, hlist, hmem⟩ := List.mem_flatten.1 (Keyed.mem_of_mem_firsts hproperty)
    obtain ⟨part, hpart, hfound⟩ := Traversal.exists_of_mem_mapM hlists hlist
    have hstands := stands_of_mem_propertyParts h hsite hpart
    cases part with
    | declared declared =>
      cases hfound
      exact hstands property hmem
    | member inner => exact ihmember _ hpart inner rfl hstands hfound property hmem
    | inherited target =>
      rw [PropertyPart.properties] at hfound
      cases hinherit : inheritedFrom registry site target with
      | error error => rw [hinherit] at hfound; cases hfound
      | ok base =>
        rw [hinherit] at hfound
        dsimp only at hfound
        cases hgo : registry.follow? followed base.reference with
        | none => rw [hgo] at hfound; cases hfound
        | some longer =>
          rw [hgo] at hfound
          exact ihbase base longer hgo (hbase site target base hinherit) hfound property hmem

omit h in
/-- Naming a property changes its identifier alone. -/
theorem Property.exists_of_mem_identify {spell : Text.Spelling} {properties : List Property}
    {property : Property} (hproperty : property ∈ identify spell properties) :
    ∃ declared ∈ properties, ∃ identifier, property = { declared with identifier } := by
  unfold identify at hproperty
  obtain ⟨index, hindex, rfl⟩ := List.getElem_of_mem hproperty
  rw [List.length_zipWith] at hindex
  refine ⟨properties[index], List.getElem_mem _, ?_⟩
  rw [List.getElem_zipWith]
  exact ⟨_, rfl⟩

omit h in
/-- A property that a class is given is one of its node, with an identifier and the type of its site. -/
theorem Class.exists_of_resolve {c resolved : Class} {rules : Rules} {registry : Registry}
    (hresolve : c.resolve rules registry = .ok resolved) :
    ∃ properties, rules.propertiesOf registry c.site = .ok properties ∧
      ∀ property ∈ resolved.properties, rules.typeOf registry property.site = .ok property.type ∧
        ∃ declared ∈ properties, ∃ identifier type,
          property = { declared with identifier, type } := by
  obtain ⟨typed, htyped, hresolve⟩ := Traversal.bind_eq_ok.1 hresolve
  obtain ⟨_, _, hresolve⟩ := Traversal.bind_eq_ok.1 hresolve
  cases hresolve
  obtain ⟨properties, hproperties, htyped⟩ := Traversal.bind_eq_ok.1 htyped
  refine ⟨properties, hproperties, fun property hproperty => ?_⟩
  obtain ⟨named, hnamed, hstep⟩ := Traversal.exists_of_mem_mapM htyped hproperty
  obtain ⟨type, htype, hstep⟩ := Traversal.bind_eq_ok.1 hstep
  cases hstep
  obtain ⟨declared, hdeclared, identifier, rfl⟩ := Property.exists_of_mem_identify hnamed
  exact ⟨htype, declared, hdeclared, identifier, type, rfl⟩

/-- The properties that a class is given stand where those of its node stand. -/
theorem Class.site_of_resolve {c resolved : Class} {rules : Rules} {registry : Registry}
    (hbase : ∀ site target base, inheritedFrom registry site target = .ok base → P base)
    (hsite : P c.site) (hresolve : c.resolve rules registry = .ok resolved) :
    ∀ property ∈ resolved.properties, P property.site := by
  intro property hproperty
  obtain ⟨properties, hproperties, hmembers⟩ := exists_of_resolve hresolve
  obtain ⟨-, declared, hdeclared, identifier, type, rfl⟩ := hmembers property hproperty
  exact site_of_propertiesAt h hbase hsite hproperties declared hdeclared

end ApiModel
