import ApiModel.Proofs.Registry.Members
import ApiModel.Proofs.Registry.Reading
import ApiModel.Proofs.Registry.Unions
import ApiModel.Registry.Build

/-!
# A registry before it is pruned

A build assembles a registry and prunes it at the end. Assembling reads the documents, gives all classes
their members and tells children their unions; each of the two later passes is known as one map over
what the first has read (`assemble_eq_ok`).
-/

namespace ApiModel.Registry

/-- All of a build but its end: nothing is pruned yet. -/
def assemble (registry : Registry) (load : Loader) (rules : Rules) : Except Error Registry := do
  let read ← registry.readDocuments load rules
  let resolved ← read.resolveClasses rules
  return resolved.linkUnions

/-- A build assembles a registry and prunes it. -/
theorem build_eq (registry : Registry) (load : Loader) (rules : Rules) :
    registry.build load rules = (registry.assemble load rules).map prune := by
  unfold build assemble
  cases registry.readDocuments load rules with
  | error error => rfl
  | ok read =>
    show (read.resolveClasses rules >>= _) = Except.map _ (read.resolveClasses rules >>= _)
    cases read.resolveClasses rules with
    | error error => rfl
    | ok resolved => rfl

variable {load : Loader} {rules : Rules} {registry read resolved : Registry}

/-- What is assembled, pass by pass. -/
theorem assemble_eq_ok {assembled : Registry} (h : registry.assemble load rules = .ok assembled) :
    ∃ read resolved, registry.readDocuments load rules = .ok read ∧
      read.resolveClasses rules = .ok resolved ∧ assembled = resolved.linkUnions := by
  obtain ⟨read, hread, h⟩ := Traversal.bind_eq_ok.1 h
  obtain ⟨resolved, hresolved, h⟩ := Traversal.bind_eq_ok.1 h
  cases h
  exact ⟨read, resolved, hread, hresolved, rfl⟩

/-! ## Classes with members -/

namespace Placed

variable (h : read.Placed)
include h

theorem placed_of_resolveClasses (hresolved : read.resolveClasses rules = .ok resolved) :
    resolved.Placed :=
  placed_of_outline_eq (h.outline_of_resolveClasses hresolved) h

/-- A schema whose classes have their members was one without. -/
theorem schema_of_resolveClasses (hresolved : read.resolveClasses rules = .ok resolved)
    {schema : Schema} (hschema : schema ∈ resolved.schemas) :
    ∃ before ∈ read.schemas, before.resolve rules read = .ok schema := by
  rw [h.resolveClasses] at hresolved
  obtain ⟨schemas, hschemas, rfl⟩ := Traversal.map_eq_ok.1 hresolved
  exact Traversal.exists_of_mem_mapM hschemas hschema

end Placed

/-- A class with its members was one without. -/
theorem class_of_resolve {before schema : Schema}
    (hresolve : before.resolve rules read = .ok schema) {c : Class} (hc : c ∈ schema.classes) :
    ∃ unresolved ∈ before.classes, unresolved.resolve rules read = .ok c := by
  obtain ⟨classes, hclasses, hresolve⟩ := Traversal.bind_eq_ok.1 hresolve
  cases hresolve
  exact Traversal.exists_of_mem_mapM hclasses hc

theorem names_of_outline_eq {a b : Registry} (h : a.outline = b.outline) {reference name : String}
    (hnames : a.Names reference name) : b.Names reference name := by
  obtain ⟨c, hclass, hname⟩ := hnames
  have hsame := (alike_of_outline_eq h).name reference
  rw [hclass, Option.map_some, hname] at hsame
  obtain ⟨d, hd, hdname⟩ := Option.map_eq_some_iff.1 hsame.symm
  exact ⟨d, hd, hdname⟩

/-! ## Classes with parents -/

namespace Placed

variable (h : resolved.Placed)
include h

theorem placed_linkUnions : resolved.linkUnions.Placed := by
  rw [h.linkUnions]
  exact h.mapClasses fun c => c.reference_foldl_adopt _

theorem class?_linkUnions (reference : String) :
    resolved.linkUnions.class? reference =
      (resolved.class? reference).map (resolved.unionLinks.foldl Class.adopt) := by
  rw [h.linkUnions]
  exact h.class?_mapClasses (fun c => c.reference_foldl_adopt _) reference

theorem names_linkUnions {reference name : String} (hnames : resolved.Names reference name) :
    resolved.linkUnions.Names reference name := by
  obtain ⟨c, hclass, hname⟩ := hnames
  obtain ⟨kind, hkind⟩ := c.foldl_adopt_eq resolved.unionLinks
  refine ⟨resolved.unionLinks.foldl Class.adopt c, ?_, ?_⟩
  · rw [h.class?_linkUnions, hclass]
    rfl
  · rw [hkind]
    exact hname

/-- Once unions are linked, a parent that was not there before is a union that lists the class. -/
theorem parent_of_linkUnions {reference parent : String} {c : Class}
    (hclass : resolved.linkUnions.class? reference = some c)
    (hparent : c.unionParent? = some parent)
    (horphan : ∀ d, resolved.class? reference = some d → d.unionParent? = none) :
    ∃ union, resolved.linkUnions.class? parent = some union ∧ union.isUnion ∧
      reference ∈ union.children := by
  rw [h.class?_linkUnions] at hclass
  obtain ⟨d, hd, rfl⟩ := Option.map_eq_some_iff.1 hclass
  obtain ⟨_, _, _, href⟩ := mem_of_class? hd
  rcases Class.unionParent?_foldl_adopt hparent with hbefore | hlink
  · rw [horphan d hd] at hbefore
    cases hbefore
  · rw [href] at hlink
    obtain ⟨schema, hschema, union, hunion, rfl, hchild⟩ := mem_unionLinks_iff.1 hlink
    have hfound := h.class?_eq_some_iff.2 ⟨schema, hschema, hunion, rfl⟩
    have hchild' : reference ∈ (resolved.unionLinks.foldl Class.adopt union).children := by
      rw [Class.children_foldl_adopt]
      exact hchild
    exact ⟨_, by rw [h.class?_linkUnions, hfound]; rfl, Class.isUnion_of_mem_children hchild',
      hchild'⟩

end Placed

/-! ## A registry of origins -/

/-- A registry of empty schemas holds nothing, whatever it should have been found at. -/
theorem found_ofOrigins (spell : Text.Spelling) (S : Seed → Prop) (origins : List String)
    (rootName : String) (paths : List String) :
    ((ofOrigins origins rootName).setWhitelist paths).Found spell S := by
  refine ⟨(placed_ofOrigins origins rootName).setWhitelist paths, fun schema hschema => ?_⟩
  obtain ⟨origin, _, rfl⟩ := mem_ofOrigins hschema
  exact ⟨fun _ hc => absurd hc List.not_mem_nil, fun _ h => absurd h List.not_mem_nil⟩

/-- Whatever the seeds are, all that is read into empty schemas was found at some. -/
theorem found_of_readDocuments {origins paths : List String} {rootName : String} {load : Loader}
    {rules : Rules} {read : Registry}
    (hread : ((ofOrigins origins rootName).setWhitelist paths).readDocuments load rules = .ok read) :
    read.Found rules.spell fun _ => True :=
  (found_ofOrigins rules.spell (fun _ => True) origins rootName paths).readDocuments_true hread

end ApiModel.Registry
