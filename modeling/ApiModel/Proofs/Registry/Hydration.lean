import ApiModel.Proofs.Registry.Unions
import Mathlib.Data.List.Induction

/-!
# What hydration leaves

Hydration goes through all unions and their children, looks each child up in the registry as it is by then,
and counts the links it makes. What a link changes is not what a later look-up reads: a child is found where
it was found at the start, and a union stays one. So the count is that of the children that are plain
classes at the start, and a class that is found ends with the last union that lists it. A second hydration
finds everything as the first one left it (`hydrate_exact`).
-/

namespace ApiModel

namespace Class

theorem isUnion_adopt (c : Class) (link : String × String) : (c.adopt link).isUnion = c.isUnion := by
  rcases c.adopt_cases link with h | ⟨parent, hkind, _, h⟩
  · rw [h]
  · rw [h, isUnion, isUnion, hkind]

/-- The union that the last of some links names for a class. -/
def lastLink? (c : Class) (links : List (String × String)) : Option String :=
  (links.reverse.find? fun link => link.2 = c.reference).map Prod.fst

theorem lastLink?_concat (c : Class) (links : List (String × String)) (link : String × String) :
    c.lastLink? (links ++ [link]) =
      if link.2 = c.reference then some link.1 else c.lastLink? links := by
  rw [lastLink?, List.reverse_append, List.reverse_singleton, List.singleton_append, List.find?_cons]
  by_cases href : link.2 = c.reference
  · simp only [href, if_true, decide_true, Option.map_some]
  · simp only [href, if_false, decide_false]
    rfl

/-- Links do nothing to a union. -/
theorem foldl_adopt_of_isUnion {c : Class} (h : c.isUnion) (links : List (String × String)) :
    links.foldl adopt c = c := by
  induction links with
  | nil => rfl
  | cons link rest ih =>
    have hsame : c.adopt link = c := by
      rw [adopt, setUnionParent_of_isUnion h, ite_self]
    rw [List.foldl_cons, hsame, ih]

/-- The last link that names a plain class decides its union. -/
theorem foldl_adopt_of_plain {c : Class} {parent : Option String} (h : c.kind = .plain parent)
    (links : List (String × String)) :
    links.foldl adopt c = { c with kind := .plain ((c.lastLink? links).or parent) } := by
  -- the induction takes the last link off
  induction links using List.reverseRecOn with
  | nil =>
    have hnone : (c.lastLink? []).or parent = parent := rfl
    rw [hnone, ← h]
    rfl
  | append_singleton links link ih =>
    rw [List.foldl_append, ih, List.foldl_cons, List.foldl_nil, adopt, lastLink?_concat]
    by_cases href : c.reference = link.2
    · simp only [href, if_true, setUnionParent, Option.some_or]
    · have hother : ¬ link.2 = c.reference := fun heq => href heq.symm
      simp only [href, hother, if_false]

/-- Going through the same links again changes nothing. -/
theorem foldl_adopt_foldl_adopt (links : List (String × String)) (c : Class) :
    links.foldl adopt (links.foldl adopt c) = links.foldl adopt c := by
  cases hkind : c.kind with
  | union discriminator children =>
    have hunion : c.isUnion := by rw [isUnion, hkind]
    rw [foldl_adopt_of_isUnion hunion, foldl_adopt_of_isUnion hunion]
  | plain parent =>
    rw [foldl_adopt_of_plain hkind, foldl_adopt_of_plain rfl]
    have hlast : lastLink? { c with kind := .plain ((c.lastLink? links).or parent) } links =
        c.lastLink? links := rfl
    rw [hlast, ← Option.or_assoc, Option.or_self]

end Class

namespace Registry

variable {registry : Registry}

/-! ## The last union -/

/-- The last union, in the order of schemas and classes, that lists a reference among its children. -/
def lastUnion? (registry : Registry) (reference : String) : Option String :=
  ((registry.schemas.flatMap Schema.classes).reverse.find? fun c => reference ∈ c.children).map
    Class.reference

theorem unionLinks_eq (registry : Registry) :
    registry.unionLinks = (registry.schemas.flatMap Schema.classes).flatMap fun c =>
      c.children.map fun child => (c.reference, child) :=
  List.flatMap_assoc.symm

/-- The links of one union name a reference if the union lists it. -/
theorem find?_links_of_class (c : Class) (reference : String) :
    ((c.children.map fun child => (c.reference, child)).reverse.find? fun link =>
        link.2 = reference).map Prod.fst =
      if reference ∈ c.children then some c.reference else none := by
  rw [← List.map_reverse, List.find?_map, Option.map_map]
  by_cases hmem : reference ∈ c.children
  · have hfound : (c.children.reverse.find? fun child => child = reference).isSome := by
      simpa using hmem
    obtain ⟨child, hchild⟩ := Option.isSome_iff_exists.1 hfound
    rw [if_pos hmem]
    exact congrArg (Option.map _) hchild
  · have hnone : (c.children.reverse.find? fun child => child = reference) = none := by
      rw [List.find?_eq_none]
      intro child hchild heq
      have hsame : child = reference := by simpa using heq
      exact hmem (hsame ▸ List.mem_reverse.1 hchild)
    rw [if_neg hmem]
    exact congrArg (Option.map _) hnone

/-- The last link that names a class comes from the last union that lists it. -/
theorem lastLink?_unionLinks (registry : Registry) (c : Class) :
    c.lastLink? registry.unionLinks = registry.lastUnion? c.reference := by
  rw [unionLinks_eq, Class.lastLink?, lastUnion?]
  generalize registry.schemas.flatMap Schema.classes = classes
  induction classes using List.reverseRecOn with
  | nil => rfl
  | append_singleton classes d ih =>
    rw [List.flatMap_append, List.flatMap_singleton, List.reverse_append, List.find?_append,
      Option.map_or, ih, find?_links_of_class, List.reverse_append, List.reverse_singleton,
      List.singleton_append, List.find?_cons]
    by_cases hmem : c.reference ∈ d.children
    · simp only [hmem, if_true, decide_true, Option.map_some, Option.some_or]
    · simp only [hmem, if_false, decide_false, Option.none_or]

/-! ## Counting on the way -/

/-- One link is made and counted if its child can be linked. -/
theorem hydrate_eq_foldl (registry : Registry) :
    registry.hydrate = registry.unionLinks.foldl
      (fun state link =>
        (state.1.link link.1 link.2, state.2 + if state.1.isLinkable link.2 then 1 else 0))
      (registry, 0) := by
  unfold hydrate
  congr 1
  funext state link
  obtain ⟨before, linked⟩ := state
  obtain ⟨union, child⟩ := link
  dsimp only
  rw [link, isLinkable]
  cases before.class? child with
  | none => rfl
  | some c =>
    by_cases hunion : c.isUnion
    · simp [hunion]
    · simp [hunion]

namespace Distinct

variable (h : registry.Distinct)
include h

/-- No link makes another child linkable, or hinders it from being so. -/
theorem isLinkable_link (union child other : String) :
    (registry.link union child).isLinkable other = registry.isLinkable other := by
  have hadopt : ∀ c : Class, (c.adopt (union, child)).reference = c.reference :=
    fun c => c.reference_adopt (union, child)
  unfold isLinkable
  rw [h.link_eq, class?_mapFound hadopt]
  cases registry.class? other with
  | none => rfl
  | some c => exact congrArg (! ·) (c.isUnion_adopt (union, child))

theorem link (union child : String) : (registry.link union child).Distinct := by
  rw [h.link_eq]
  exact h.mapFound fun c => c.reference_adopt (union, child)

theorem foldl_counting (links : List (String × String)) (linked : Nat) :
    links.foldl
        (fun state link =>
          (state.1.link link.1 link.2, state.2 + if state.1.isLinkable link.2 then 1 else 0))
        (registry, linked) =
      (links.foldl (fun registry (union, child) => registry.link union child) registry,
        linked + links.countP fun link => registry.isLinkable link.2) := by
  induction links generalizing registry linked with
  | nil => rfl
  | cons link rest ih =>
    have hcount : (fun other : String × String => (registry.link link.1 link.2).isLinkable other.2) =
        fun other => registry.isLinkable other.2 :=
      funext fun other => h.isLinkable_link link.1 link.2 other.2
    rw [List.foldl_cons, List.foldl_cons, ih (h.link link.1 link.2), hcount, List.countP_cons,
      Nat.add_assoc, Nat.add_comm (List.countP _ rest)]

/-- Hydration links all unions, and its count is that of the children that can be linked at the start. -/
theorem hydrate_eq : registry.hydrate = (registry.linkUnions, registry.linkCount) := by
  rw [hydrate_eq_foldl, h.foldl_counting, Nat.zero_add]
  rfl

/-! ## Doing it again -/

theorem unionLinks_linkUnions : registry.linkUnions.unionLinks = registry.unionLinks := by
  rw [h.linkUnions]
  unfold unionLinks Registry.mapFound
  rw [List.flatMap_map]
  refine List.flatMap_congr fun schema _ => ?_
  show (schema.classes.map _).flatMap _ = _
  rw [List.flatMap_map]
  refine List.flatMap_congr fun c _ => ?_
  split
  · rw [Class.children_foldl_adopt, Class.reference_foldl_adopt]
  · rfl

theorem distinct_linkUnions : registry.linkUnions.Distinct := by
  rw [h.linkUnions]
  exact h.mapFound fun c => c.reference_foldl_adopt _

theorem linkUnions_linkUnions : registry.linkUnions.linkUnions = registry.linkUnions := by
  rw [h.distinct_linkUnions.linkUnions, h.unionLinks_linkUnions, h.linkUnions,
    mapFound_mapFound fun c => c.reference_foldl_adopt _]
  simp only [Class.foldl_adopt_foldl_adopt]

theorem linkCount_linkUnions : registry.linkUnions.linkCount = registry.linkCount := by
  have hreference : ∀ c : Class, (registry.unionLinks.foldl Class.adopt c).reference = c.reference :=
    fun c => c.reference_foldl_adopt _
  have hunion : ∀ c : Class, (registry.unionLinks.foldl Class.adopt c).isUnion = c.isUnion := by
    intro c
    induction registry.unionLinks generalizing c with
    | nil => rfl
    | cons link rest ih => rw [List.foldl_cons, ih, Class.isUnion_adopt]
  have hlinkable : ∀ child, registry.linkUnions.isLinkable child = registry.isLinkable child := by
    intro child
    unfold isLinkable
    rw [h.linkUnions, class?_mapFound hreference]
    cases registry.class? child with
    | none => rfl
    | some c => exact congrArg (! ·) (hunion c)
  unfold linkCount
  rw [h.unionLinks_linkUnions]
  congr 1
  funext link
  exact hlinkable link.2

end Distinct

end Registry

/-! ## The whole of it -/

/-- What hydration makes of a class in a schema. -/
structure Class.Hydrated (registry : Registry) (schema : Schema) (before after : Class) : Prop where
  /-- Nothing changes but the kind. -/
  same : after = { before with kind := after.kind }
  union : before.isUnion → after = before
  /-- A plain class that its reference finds has the last union that lists it, or its old one. -/
  found : ¬ before.isUnion → registry.owner? before.reference = some schema →
    after.kind = .plain ((registry.lastUnion? before.reference).or before.unionParent?)
  /-- Another class of the reference is found instead. -/
  hidden : registry.owner? before.reference ≠ some schema → after = before

/-- What hydration makes of a schema: its classes are hydrated, each in its place. -/
structure Schema.Hydrated (registry : Registry) (before after : Schema) : Prop where
  same : after = { before with classes := after.classes }
  classes : List.Forall₂ (Class.Hydrated registry before) before.classes after.classes

namespace Registry

variable {registry : Registry}

/-- A class takes all links if it is the one that its reference finds, and none otherwise. -/
theorem Distinct.hydrated (h : registry.Distinct) {schema : Schema}
    (hschema : schema ∈ registry.schemas) (c : Class) :
    Class.Hydrated registry schema c
      (if registry.home? c.reference = some schema.origin then registry.unionLinks.foldl Class.adopt c
        else c) := by
  have hhome : registry.home? c.reference = some schema.origin ↔
      registry.owner? c.reference = some schema := h.home?_eq_some_iff hschema
  constructor
  case same =>
    split
    · obtain ⟨kind, hkind⟩ := c.foldl_adopt_eq registry.unionLinks
      rw [hkind]
    · rfl
  case union =>
    intro hunion
    rw [Class.foldl_adopt_of_isUnion hunion, ite_self]
  case found =>
    intro hplain howner
    rw [if_pos (hhome.2 howner)]
    cases hkind : c.kind with
    | union discriminator children => exact absurd (by rw [Class.isUnion, hkind]) hplain
    | plain parent =>
      rw [Class.foldl_adopt_of_plain hkind, lastLink?_unionLinks, Class.unionParent?, hkind]
  case hidden => exact fun hhidden => if_neg (mt hhome.1 hhidden)

theorem Distinct.hydrated_linkUnions (h : registry.Distinct) :
    List.Forall₂ (Schema.Hydrated registry) registry.schemas registry.linkUnions.schemas := by
  rw [h.linkUnions]
  show List.Forall₂ _ _ (registry.schemas.map _)
  rw [List.forall₂_map_right_iff, List.forall₂_same]
  intro schema hschema
  refine ⟨rfl, ?_⟩
  show List.Forall₂ _ _ (schema.classes.map _)
  rw [List.forall₂_map_right_iff, List.forall₂_same]
  exact fun c _ => h.hydrated hschema c

theorem linkCount_eq (registry : Registry) :
    registry.linkCount = registry.unionLinks.countP
      fun link => (registry.class? link.2).any fun c => !c.isUnion := by
  have hlinkable : ∀ child,
      registry.isLinkable child = (registry.class? child).any fun c => !c.isUnion := by
    intro child
    unfold isLinkable
    cases registry.class? child with
    | none => rfl
    | some c => rfl
  unfold linkCount
  congr 1
  funext link
  exact hlinkable link.2

/-- Hydration changes nothing but the unions of plain classes. A plain class that is found by its reference
ends with the last union, in the order of schemas, classes and children, that lists the reference, or with
the one it had if none does. The count is that of the entries whose child is found and is a plain class.
Hydrating the result changes nothing and counts the same. -/
theorem hydrate_exact (h : registry.Distinct) :
    List.Forall₂ (Schema.Hydrated registry) registry.schemas registry.hydrate.1.schemas ∧
      registry.hydrate.1.whitelist = registry.whitelist ∧
      registry.hydrate.2 = registry.unionLinks.countP
        (fun link => (registry.class? link.2).any fun c => !c.isUnion) ∧
      registry.hydrate.1.hydrate = registry.hydrate := by
  have hagain := h.distinct_linkUnions.hydrate_eq
  rw [h.linkUnions_linkUnions, h.linkCount_linkUnions] at hagain
  rw [h.hydrate_eq]
  refine ⟨h.hydrated_linkUnions, ?_, registry.linkCount_eq, hagain⟩
  rw [h.linkUnions]
  rfl

/-- Two documents with a union each. Both unions list the cat. -/
def rivals : Registry where
  schemas := [
    { origin := "pets", rootName := "Api", classes := [
        { reference := "pets#/Pet", name := "Pet", node := .null
          kind := .union "kind" ["pets#/Dog", "zoo#/Cat"] },
        { reference := "pets#/Dog", name := "Dog", node := .null }] },
    { origin := "zoo", rootName := "Api", classes := [
        { reference := "zoo#/Cat", name := "Cat", node := .null },
        { reference := "zoo#/Animal", name := "Animal", node := .null
          kind := .union "kind" ["zoo#/Cat", "pets#/Pet"] }] }]

/-- Three children can be linked, and the cat ends with the union that comes last. -/
theorem hydrate_exact_rivals : rivals.Distinct ∧ rivals.hydrate.2 = 3 ∧
    ∃ schema ∈ rivals.hydrate.1.schemas, ∃ c ∈ schema.classes,
      c.reference = "zoo#/Cat" ∧ c.kind = .plain (some "zoo#/Animal") := by
  have h : rivals.Distinct := ⟨by decide, by decide⟩
  obtain ⟨hschemas, -, hcount, -⟩ := hydrate_exact h
  refine ⟨h, hcount.trans (by decide +kernel), ?_⟩
  obtain ⟨_, rest, -, hrest, hall⟩ := List.forall₂_cons_left_iff.1 hschemas
  obtain ⟨zoo, _, hzoo, -, hlast⟩ := List.forall₂_cons_left_iff.1 hrest
  obtain ⟨cat, _, hcat, -, hclasses⟩ := List.forall₂_cons_left_iff.1 hzoo.classes
  refine ⟨zoo, by simp [hall, hlast], cat, by simp [hclasses], ?_, hcat.found (by decide) rfl⟩
  rw [hcat.same]

end Registry

end ApiModel
