import ApiModel.Proofs.Registry.Distinct
import ApiModel.Proofs.Registry.Placement
import ApiModel.Registry.Unions

/-!
# Telling children their unions

Linking one union to one child changes at most the one class that the reference of the child finds. So
linking all unions is one map over the classes that are found, in which every class goes through the links
by itself (`Distinct.linkUnions`), and the last link that names it decides. In a placed registry all classes
are found (`Placed.linkUnions`).
-/

namespace ApiModel

/-! ## One class -/

namespace Class

/-- A class that a link names as the child takes the union, if it is a plain one. -/
def adopt (c : Class) (link : String × String) : Class :=
  if c.reference = link.2 then c.setUnionParent link.1 else c

/-- Only a union has children. -/
theorem isUnion_of_mem_children {c : Class} {child : String} (h : child ∈ c.children) :
    c.isUnion := by
  unfold children at h
  unfold isUnion
  split at h
  · rfl
  · cases h

theorem setUnionParent_of_isUnion {c : Class} (h : c.isUnion) (parent : String) :
    c.setUnionParent parent = c := by
  unfold isUnion at h
  unfold setUnionParent
  split at h
  · next hkind => simp only [hkind]
  · cases h

@[simp] theorem reference_setUnionParent (c : Class) (parent : String) :
    (c.setUnionParent parent).reference = c.reference := by
  unfold setUnionParent
  split
  · rfl
  · rfl

/-- Adoption changes no more than the kind of a class, and of that only the parent. -/
theorem adopt_cases (c : Class) (link : String × String) :
    c.adopt link = c ∨ ∃ parent, c.kind = .plain parent ∧ c.reference = link.2 ∧
      c.adopt link = { c with kind := .plain (some link.1) } := by
  unfold adopt
  by_cases href : c.reference = link.2
  · rw [if_pos href, setUnionParent]
    cases hkind : c.kind with
    | plain parent => exact Or.inr ⟨parent, rfl, href, rfl⟩
    | union discriminator children => exact Or.inl rfl
  · rw [if_neg href]
    exact Or.inl rfl

@[simp] theorem reference_adopt (c : Class) (link : String × String) :
    (c.adopt link).reference = c.reference := by
  rcases c.adopt_cases link with h | ⟨_, _, _, h⟩ <;> rw [h]

@[simp] theorem children_adopt (c : Class) (link : String × String) :
    (c.adopt link).children = c.children := by
  rcases c.adopt_cases link with h | ⟨parent, hkind, _, h⟩
  · rw [h]
  · rw [h, children, children, hkind]

/-- A parent was there before or is the union of the link. -/
theorem unionParent?_adopt {c : Class} {link : String × String} {parent : String}
    (h : (c.adopt link).unionParent? = some parent) :
    c.unionParent? = some parent ∨ link = (parent, c.reference) := by
  rcases c.adopt_cases link with hsame | ⟨_, _, href, hplain⟩
  · rw [hsame] at h
    exact Or.inl h
  · rw [hplain] at h
    cases h
    exact Or.inr (Prod.ext rfl href.symm)

/-! ### Many links -/

@[simp] theorem reference_foldl_adopt (links : List (String × String)) (c : Class) :
    (links.foldl adopt c).reference = c.reference := by
  induction links generalizing c with
  | nil => rfl
  | cons link rest ih => rw [List.foldl_cons, ih, reference_adopt]

@[simp] theorem children_foldl_adopt (links : List (String × String)) (c : Class) :
    (links.foldl adopt c).children = c.children := by
  induction links generalizing c with
  | nil => rfl
  | cons link rest ih => rw [List.foldl_cons, ih, children_adopt]

/-- Links change nothing of a class but its kind. -/
theorem foldl_adopt_eq (links : List (String × String)) (c : Class) :
    ∃ kind, links.foldl adopt c = { c with kind } := by
  induction links generalizing c with
  | nil => exact ⟨c.kind, rfl⟩
  | cons link rest ih =>
    obtain ⟨kind, hrest⟩ := ih (c.adopt link)
    rw [List.foldl_cons, hrest]
    rcases c.adopt_cases link with h | ⟨_, _, _, h⟩
    · exact ⟨kind, by rw [h]⟩
    · exact ⟨kind, by rw [h]⟩

theorem unionParent?_foldl_adopt {links : List (String × String)} {c : Class} {parent : String}
    (h : (links.foldl adopt c).unionParent? = some parent) :
    c.unionParent? = some parent ∨ (parent, c.reference) ∈ links := by
  induction links generalizing c with
  | nil => exact Or.inl h
  | cons link rest ih =>
    rcases ih h with hbefore | hmem
    · rcases unionParent?_adopt hbefore with hparent | rfl
      · exact Or.inl hparent
      · exact Or.inr List.mem_cons_self
    · rw [reference_adopt] at hmem
      exact Or.inr (List.mem_cons_of_mem _ hmem)

/-- Links that do not name a class leave it alone. -/
theorem foldl_adopt_filter (links : List (String × String)) (c : Class) :
    (links.filter fun link => link.2 = c.reference).foldl adopt c = links.foldl adopt c := by
  induction links generalizing c with
  | nil => rfl
  | cons link rest ih =>
    by_cases href : link.2 = c.reference
    · have hrest := ih (c.adopt link)
      rw [reference_adopt] at hrest
      simp only [List.filter_cons, href, decide_true, if_true, List.foldl_cons]
      exact hrest
    · have hsame : c.adopt link = c := if_neg fun h => href h.symm
      simp only [List.filter_cons, href, decide_false, List.foldl_cons, hsame]
      exact ih c

end Class

/-! ## All classes -/

namespace Registry

variable {registry : Registry}

namespace Distinct

variable (h : registry.Distinct)
include h

/-- A link changes at most the class that the reference of the child finds. -/
theorem link_eq (union child : String) :
    registry.link union child = registry.mapFound (·.adopt (union, child)) := by
  unfold link
  by_cases hlinkable : registry.isLinkable child
  · rw [if_pos hlinkable, h.modifyClass_eq]
    rfl
  · rw [if_neg hlinkable]
    refine (mapFound_eq_self fun schema hschema c hc hhome => ?_).symm
    -- a child that cannot be linked is no class, or it is a union
    by_cases href : c.reference = child
    · have hclass := h.class?_of_home? hschema hc hhome
      have hunion : c.isUnion := by
        unfold isLinkable at hlinkable
        rw [← href, hclass] at hlinkable
        simpa using hlinkable
      rw [Class.adopt, Class.setUnionParent_of_isUnion hunion, ite_self]
    · exact if_neg href

theorem foldl_link (links : List (String × String)) :
    links.foldl (fun registry (union, child) => registry.link union child) registry =
      registry.mapFound fun c => links.foldl Class.adopt c := by
  induction links generalizing registry with
  | nil => exact (mapFound_eq_self fun _ _ _ _ _ => rfl).symm
  | cons link rest ih =>
    have hadopt : ∀ c : Class, (c.adopt link).reference = c.reference :=
      fun c => c.reference_adopt link
    show rest.foldl _ (registry.link link.1 link.2) = _
    rw [h.link_eq, ih (h.mapFound hadopt), mapFound_mapFound hadopt]
    rfl

/-- Linking all unions lets every class that is found go through all links by itself. -/
theorem linkUnions :
    registry.linkUnions = registry.mapFound fun c => registry.unionLinks.foldl Class.adopt c :=
  h.foldl_link registry.unionLinks

end Distinct

namespace Placed

variable (h : registry.Placed)
include h

/-- In a placed registry every class is found by its reference. -/
theorem mapFound_eq (f : Class → Class) : registry.mapFound f = registry.mapClasses f := by
  unfold Registry.mapFound Registry.mapClasses
  congr 1
  refine List.map_congr_left fun schema hschema => ?_
  unfold Schema.mapHome
  congr 1
  refine List.map_congr_left fun c hc => if_pos ?_
  have hclass := h.class?_eq_some_iff.2 ⟨schema, hschema, hc, rfl⟩
  obtain ⟨owner, howner, hown⟩ := owner?_of_class? hclass
  obtain ⟨hmem, hhas⟩ := mem_of_owner? howner
  have hdocument := (h.housed owner hmem).document_of_hasClass hhas
  rw [home?, howner, Option.map_some, ← hdocument, (h.housed schema hschema).home c hc]

/-- Linking all unions lets every class go through all links by itself. -/
theorem linkUnions :
    registry.linkUnions = registry.mapClasses fun c => registry.unionLinks.foldl Class.adopt c := by
  rw [h.distinct.linkUnions, h.mapFound_eq]

end Placed

theorem mem_unionLinks_iff {registry : Registry} {union child : String} :
    (union, child) ∈ registry.unionLinks ↔
      ∃ schema ∈ registry.schemas, ∃ c ∈ schema.classes, c.reference = union ∧
        child ∈ c.children := by
  unfold unionLinks
  simp only [List.mem_flatMap, List.mem_map, Prod.mk.injEq]
  constructor
  · rintro ⟨schema, hschema, c, hc, other, hother, rfl, rfl⟩
    exact ⟨schema, hschema, c, hc, rfl, hother⟩
  · rintro ⟨schema, hschema, c, hc, rfl, hchild⟩
    exact ⟨schema, hschema, c, hc, child, hchild, rfl, rfl⟩

end Registry

end ApiModel
