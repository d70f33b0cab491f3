import ApiModel.Class.Members
import ApiModel.Proofs.Registry.Lookup
import ApiModel.Proofs.Traversal

/-!
# What the members of classes are read from

Finding the members of a class reads little of a registry: which references are classes and what their
names are, the nodes of the documents, and which references the documents hold. Registries that are
alike in these give every class the same members.
-/

namespace ApiModel

/-- Two registries know the same classes by name and hold the same documents. -/
structure Registry.Alike (a b : Registry) : Prop where
  name : ∀ reference, (a.class? reference).map Class.name = (b.class? reference).map Class.name
  node : ∀ reference, a.node? reference = b.node? reference
  target : ∀ reference, reference ∈ a.targets ↔ reference ∈ b.targets

/-! ## Types -/

/-- The type of a node, each step written out: the first rule that supports it decides. -/
theorem typeAt_eq (rules : List TypeRule) (registry : Registry) (followed : List String)
    (site : Site) :
    typeAt rules registry followed site =
      match rules.find? (·.supports registry site) with
      | none => .ok .mixed
      | some rule =>
        match rule.plan registry site with
        | .error error => .error error
        | .ok (.known type) => .ok type
        | .ok (.follow target) =>
          match registry.follow? followed target.reference with
          | none => .ok .mixed
          | some longer => typeAt rules registry longer target
        | .ok (.combine sites build) =>
          (sites.mapM (typeAt rules registry followed)).map build := by
  rw [typeAt]
  cases rules.find? (·.supports registry site) with
  | none => rfl
  | some rule =>
    dsimp only
    split
    · next herror => rw [herror]
    · next hknown => rw [hknown]
    · next hfollow =>
      rw [hfollow]
      dsimp only
      split
      · next hnone => rw [hnone]
      · next hsome => rw [hsome]
    · next sites build hcombine =>
      rw [hcombine]
      have hattach : (sites.attach.mapM fun inner => typeAt rules registry followed inner.1) =
          sites.mapM (typeAt rules registry followed) := by
        rw [List.mapM_subtype (g := typeAt rules registry followed) fun _ _ => rfl,
          List.unattach_attach]
      rw [hattach]

namespace Registry.Alike

variable {a b : Registry} (h : a.Alike b)
include h

theorem hasClass (reference : String) : a.hasClass reference = b.hasClass reference := by
  have hname := congrArg Option.isSome (h.name reference)
  rw [Option.isSome_map, Option.isSome_map] at hname
  exact hname

theorem supports (site : Site) (rule : TypeRule) :
    rule.supports a site = rule.supports b site := by
  cases rule with
  | object => simp only [TypeRule.supports, h.hasClass]
  | _ => rfl

theorem planReference (site : Site) :
    TypeRule.planReference a site = TypeRule.planReference b site := by
  have hname := h.name (site.resolve (site.target?.getD ""))
  unfold TypeRule.planReference
  simp only [h.node]
  -- the target is a class in both registries, of one name, or in neither
  cases ha : a.class? (site.resolve (site.target?.getD "")) with
  | none =>
    rw [ha, Option.map_none, eq_comm, Option.map_eq_none_iff] at hname
    rw [hname]
  | some c =>
    rw [ha, Option.map_some, eq_comm, Option.map_eq_some_iff] at hname
    obtain ⟨d, hd, heq⟩ := hname
    rw [hd]
    simp only [heq]

theorem plan (site : Site) (rule : TypeRule) : rule.plan a site = rule.plan b site := by
  cases rule with
  | reference => exact h.planReference site
  | object => simp only [TypeRule.plan, h.name]
  | _ => rfl

theorem follow? (followed : List String) (target : String) :
    a.follow? followed target = b.follow? followed target := by
  unfold Registry.follow?
  simp only [h.target]

theorem typeAt (rules : List TypeRule) (followed : List String) (site : Site) :
    ApiModel.typeAt rules a followed site = ApiModel.typeAt rules b followed site := by
  have hfind : ∀ site : Site, rules.find? (·.supports b site) = rules.find? (·.supports a site) := by
    intro site
    congr 1
    funext rule
    exact (h.supports site rule).symm
  -- the recursion of `typeAt` itself: what a rule plans is the same in both registries
  induction followed, site using typeAt.induct rules a with
  | case1 followed site hnone =>
    rw [typeAt_eq rules a, typeAt_eq rules b, hfind, hnone]
  | case2 followed site rule hrule error hplan =>
    rw [typeAt_eq rules a, typeAt_eq rules b, hfind, hrule]
    simp only [← h.plan, hplan]
  | case3 followed site rule hrule type hplan =>
    rw [typeAt_eq rules a, typeAt_eq rules b, hfind, hrule]
    simp only [← h.plan, hplan]
  | case4 followed site rule hrule target hplan hstop =>
    rw [typeAt_eq rules a, typeAt_eq rules b, hfind, hrule]
    simp only [← h.plan, hplan, ← h.follow?, hstop]
  | case5 followed site rule hrule target hplan longer hgo ih =>
    rw [typeAt_eq rules a, typeAt_eq rules b, hfind, hrule]
    simp only [← h.plan, hplan, ← h.follow?, hgo, ih]
  | case6 followed site rule hrule sites build hplan ih =>
    rw [typeAt_eq rules a, typeAt_eq rules b, hfind, hrule]
    simp only [← h.plan, hplan]
    rw [Traversal.mapM_congr fun inner hinner => ih ⟨inner, hinner⟩]

end Registry.Alike

/-! ## Properties -/

/-- The properties that one part of a node gives. -/
def PropertyPart.properties (rules : List PropertyRule) (registry : Registry)
    (followed : List String) (site : Site) : PropertyPart → Except Error (List Property)
  | declared properties => .ok properties
  | member inner => propertiesAt rules registry followed inner
  | inherited target =>
    match inheritedFrom registry site target with
    | .error error => .error error
    | .ok base =>
      match registry.follow? followed base.reference with
      | none => .error (.cyclicAllOf target site.reference)
      | some longer => propertiesAt rules registry longer base

/-- The properties of a node are those of its parts, the first of each name. -/
theorem propertiesAt_eq (rules : List PropertyRule) (registry : Registry) (followed : List String)
    (site : Site) :
    propertiesAt rules registry followed site =
      ((propertyParts rules site).mapM
        (PropertyPart.properties rules registry followed site)).map
        fun lists => Keyed.firsts Property.name lists.flatten := by
  rw [propertiesAt]
  congr 1
  rw [List.mapM_subtype (g := PropertyPart.properties rules registry followed site),
    List.unattach_attach]
  intro part _
  cases part with
  | declared properties => rfl
  | member inner => rfl
  | inherited target =>
    -- only what is inherited takes more than one step
    unfold PropertyPart.properties
    dsimp only
    cases inheritedFrom registry site target with
    | error error => rfl
    | ok base =>
      dsimp only
      cases registry.follow? followed base.reference with
      | none => rfl
      | some longer => rfl

namespace Registry.Alike

variable {a b : Registry} (h : a.Alike b)
include h

theorem inheritedFrom (site : Site) (target : String) :
    ApiModel.inheritedFrom a site target = ApiModel.inheritedFrom b site target := by
  unfold ApiModel.inheritedFrom
  rw [h.node]

theorem propertiesAt (rules : List PropertyRule) (followed : List String) (site : Site) :
    ApiModel.propertiesAt rules a followed site = ApiModel.propertiesAt rules b followed site := by
  induction followed, site using propertiesAt.induct rules a with
  | case1 followed site ihmember ihbase =>
    rw [propertiesAt_eq rules a, propertiesAt_eq rules b]
    congr 1
    refine Traversal.mapM_congr fun part hpart => ?_
    cases part with
    | declared properties => rfl
    | member inner => exact ihmember _ hpart inner rfl
    | inherited target =>
      rw [PropertyPart.properties, PropertyPart.properties, h.inheritedFrom]
      cases ApiModel.inheritedFrom b site target with
      | error error => rfl
      | ok base =>
        dsimp only
        rw [← h.follow?]
        cases hgo : a.follow? followed base.reference with
        | none => rfl
        | some longer => exact ihbase base longer hgo

/-! ## Members -/

/-- A class gets the same members in registries that are alike. -/
theorem resolve (rules : Rules) (c : Class) : c.resolve rules a = c.resolve rules b := by
  have htype : ∀ site, rules.typeOf a site = rules.typeOf b site := h.typeAt rules.types []
  have hproperties : rules.propertiesOf a c.site = rules.propertiesOf b c.site :=
    h.propertiesAt rules.properties [] c.site
  unfold Class.resolve Class.resolveProperties Class.resolveExtensions
  simp only [htype, hproperties]

end Registry.Alike

end ApiModel
