import ApiModel.Proofs.DataType.Resolution
import ApiModel.Proofs.DataType.Termination

/-!
# Which nodes are objects

A node that refers to a class has the type of that class, and a node that refers to nothing is an object
exactly if it is a class itself (`typeAt_eq_object_iff`): whatever else can be said of its structure, the
rules make no object of it.
-/

namespace ApiModel

namespace TypeRule

variable {registry : Registry} {site : Site} {rule : TypeRule} {reference name : String}

/-- Variants differ from their node in the `type` alone. -/
theorem same_of_mem_variants {inner : Site} {types : List Document} (h : inner ∈ variants site types) :
    inner.reference = site.reference ∧ inner.target? = site.target? := by
  obtain ⟨type, _, rfl⟩ := List.mem_map.1 h
  have hkey : "type" ≠ "$ref" := by decide
  refine ⟨rfl, ?_⟩
  show ((site.node.set "type" type).get? "$ref").bind Document.text? = _
  rw [Document.get?_set_of_ne hkey]
  rfl

/-- An object that is made from the types of smaller nodes is the type of a single variant. -/
theorem object_of_combine {sites : List Site} {build : List DataType → DataType}
    (hplan : rule.plan registry site = .ok (.combine sites build)) {types : List DataType}
    (h : build types = .object reference name) :
    types = [.object reference name] ∧
      ∀ inner ∈ sites, inner.reference = site.reference ∧ inner.target? = site.target? := by
  cases planned_of_plan hplan with
  | types =>
    refine ⟨?_, fun inner hinner => same_of_mem_variants hinner⟩
    match types, h with
    | [_], rfl => rfl
  | members | items | tuple | values => cases h

end TypeRule

variable {registry : Registry} {followed : List String} {site : Site} {reference name : String}

/-- Where a node without a `$ref` is an object, it is so under its own reference. -/
theorem reference_of_typeAt {rules : List TypeRule} (hinline : site.target? = none)
    (h : typeAt rules registry followed site = .ok (.object reference name)) :
    site.reference = reference := by
  -- the recursion of `typeAt`; it goes on only to the single variant of a list of types
  induction followed, site using typeAt.induct rules registry with
  | case1 followed site hnone =>
    rw [typeAt_eq, hnone] at h
    cases h
  | case2 followed site rule hrule error hplan =>
    rw [typeAt_eq, hrule] at h
    simp only [hplan] at h
    cases h
  | case3 followed site rule hrule known hplan =>
    rw [typeAt_eq, hrule] at h
    simp only [hplan] at h
    cases h
    have hsupports : rule.supports registry site := by simpa using List.find?_some hrule
    rcases TypeRule.reference_of_known hsupports hplan .object with ⟨text, htext, _⟩ | ⟨_, hown⟩
    · rw [hinline] at htext
      cases htext
    · exact hown
  | case4 followed site rule hrule target hplan hstop =>
    rw [typeAt_eq, hrule] at h
    simp only [hplan, hstop] at h
    cases h
  | case5 followed site rule hrule target hplan longer hgo ih =>
    have hsupports : rule.supports registry site := by simpa using List.find?_some hrule
    obtain ⟨text, htext, _⟩ := TypeRule.target_of_follow hsupports hplan
    rw [hinline] at htext
    cases htext
  | case6 followed site rule hrule sites build hplan ih =>
    rw [typeAt_eq, hrule] at h
    simp only [hplan] at h
    obtain ⟨types, htypes, hbuild⟩ := Traversal.map_eq_ok.1 h
    obtain ⟨hsingle, hsame⟩ := TypeRule.object_of_combine hplan hbuild
    have hmem : DataType.object reference name ∈ types := hsingle ▸ List.mem_singleton_self _
    obtain ⟨inner, hinner, hinnerType⟩ := Traversal.exists_of_mem_mapM htypes hmem
    obtain ⟨href, htarget⟩ := hsame inner hinner
    rw [← href]
    exact ih ⟨inner, hinner⟩ (htarget.trans hinline) hinnerType

/-! ## The standard rules -/

section

variable {spell : Text.Spelling} {wrapper : String} {format : DateTimeFormat}

/-- A node that refers to a class has the type of that class. -/
theorem typeAt_of_target {text : String} (htarget : site.target? = some text) {c : Class}
    (hclass : registry.class? (site.resolve text) = some c) :
    typeAt (Rules.standard spell wrapper format).types registry followed site =
      .ok (.object (site.resolve text) c.name) := by
  have hplan : TypeRule.reference.plan registry site =
      .ok (.known (.object (site.resolve text) c.name)) := by
    simp only [TypeRule.plan, TypeRule.planReference, htarget, Option.getD_some, hclass]
  exact typeAt_of_planned ⟨.reference, Rules.find?_standard_of_target? htarget, hplan⟩

/-- A node that refers to a node which is no class has the type of that node. -/
theorem typeOf_of_target {text : String} (htarget : site.target? = some text)
    (hclass : registry.class? (site.resolve text) = none) {node : Document}
    (hnode : registry.node? (site.resolve text) = some node) :
    (Rules.standard spell wrapper format).typeOf registry site =
      typeAt (Rules.standard spell wrapper format).types registry [site.resolve text]
        ⟨node, site.resolve text⟩ := by
  have hplanned : TypePlanned (Rules.standard spell wrapper format).types registry site
      (.ok (.follow ⟨node, site.resolve text⟩)) :=
    typePlanned_of_target? (Rules.find?_standard_of_target? htarget) htarget rfl hclass hnode
  rw [Rules.typeOf, typeAt_of_follow (Or.inl rfl) hplanned]
  exact if_neg List.not_mem_nil

/-- A node without a `$ref` that is a class is an object. -/
theorem typeAt_of_class (hinline : site.target? = none) {c : Class}
    (hclass : registry.class? site.reference = some c) :
    typeAt (Rules.standard spell wrapper format).types registry followed site =
      .ok (.object site.reference c.name) := by
  have hfind : (Rules.standard spell wrapper format).types.find? (·.supports registry site) =
      some .object := by
    simp [Rules.standard, TypeRule.supports, Registry.hasClass, hinline, hclass]
  have hplan : TypeRule.object.plan registry site = .ok (.known (.object site.reference c.name)) := by
    rw [TypeRule.plan, hclass]
    rfl
  exact typeAt_of_planned ⟨.object, hfind, hplan⟩

/-- A node without a `$ref` is an object exactly if it is a class. -/
theorem typeAt_eq_object_iff (hinline : site.target? = none) :
    typeAt (Rules.standard spell wrapper format).types registry followed site =
        .ok (.object reference name) ↔
      site.reference = reference ∧ registry.Names reference name := by
  constructor
  · intro h
    exact ⟨reference_of_typeAt hinline h, names_of_typeAt h .object⟩
  · rintro ⟨rfl, c, hclass, rfl⟩
    exact typeAt_of_class hinline hclass

end

end ApiModel
