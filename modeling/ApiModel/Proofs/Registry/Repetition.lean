import ApiModel.Proofs.Registry.Sweep

/-!
# Pruning twice

A second prune finds the whitelisted operations and the documents as the first one found them, but in a
registry with fewer classes. A class goes from all schemas or from none, so a class that stays is found in
the schema where it was found before, and no reference that an operation reaches has lost its class. On
what is reached the two graphs of references are therefore one (`successors_prune`): marking goes the same
way again and comes to the same list (`marked_prune`), and nothing is left to drop (`prune_prune`).
-/

namespace ApiModel.Registry

variable {registry : Registry} {schema : Schema} {reference : String}

theorem whitelist_prune (registry : Registry) : registry.prune.whitelist = registry.whitelist := by
  by_cases h : registry.whitelist = []
  · rw [prune, if_pos h]
  · rw [prune_eq h]

/-! ## Looking up after pruning -/

theorem class?_pruned (hkept : reference ∈ registry.keptClasses) :
    (registry.pruned schema).class? reference = schema.class? reference :=
  Keyed.get?_filter (fun c hc => by simpa [hc] using hkept) schema.classes

theorem hasClass_pruned (hkept : reference ∈ registry.keptClasses) :
    (registry.pruned schema).hasClass reference = schema.hasClass reference := by
  rw [Schema.hasClass, class?_pruned hkept]
  rfl

/-- The owner of a class that is kept is the schema it was before. -/
theorem owner?_prune (h : registry.whitelist ≠ []) (hkept : reference ∈ registry.keptClasses) :
    registry.prune.owner? reference = (registry.owner? reference).map registry.pruned := by
  rw [prune_eq h]
  exact registry.owner?_map (f := registry.pruned) reference fun _ => ⟨rfl, hasClass_pruned hkept⟩

theorem Keeps.class?_prune (hkeeps : registry.Keeps reference) :
    registry.prune.class? reference = registry.class? reference := by
  by_cases h : registry.whitelist = []
  · rw [prune, if_pos h]
  · have hkept := hkeeps.resolve_left h
    rw [class?, class?, owner?_prune h hkept]
    cases registry.owner? reference with
    | none => rfl
    | some owner => exact class?_pruned hkept

theorem Keeps.relations?_prune (hkeeps : registry.Keeps reference) :
    registry.prune.relations? reference = registry.relations? reference := by
  by_cases h : registry.whitelist = []
  · rw [prune, if_pos h]
  · rw [relations?, relations?, owner?_prune h (hkeeps.resolve_left h)]
    cases registry.owner? reference with
    | none => rfl
    | some owner => rfl

theorem node?_prune (registry : Registry) (reference : String) :
    registry.prune.node? reference = registry.node? reference := by
  by_cases h : registry.whitelist = []
  · rw [prune, if_pos h]
  · rw [prune_eq h]
    exact registry.node?_map (f := registry.pruned) (fun _ => ⟨rfl, rfl⟩) reference

/-! ## The graph of references after pruning -/

section

variable (h : registry.whitelist ≠ [])
include h

/-- A reference that no class went from is a class as before. -/
theorem hasClass_prune_of_kept
    (hstays : registry.hasClass reference → reference ∈ registry.keptClasses) :
    registry.prune.hasClass reference = registry.hasClass reference := by
  rw [Bool.eq_iff_iff, hasClass_prune_iff h]
  exact ⟨And.left, fun hclass => ⟨hclass, hstays hclass⟩⟩

/-- A reference that no class went from leads where it led before. -/
theorem successors_prune
    (hstays : registry.hasClass reference → reference ∈ registry.keptClasses) :
    registry.prune.successors reference = registry.successors reference := by
  unfold successors
  cases hclass : registry.class? reference with
  | some c =>
    have hhas : registry.hasClass reference := by rw [hasClass, hclass]; rfl
    have hkeeps : registry.Keeps reference := Or.inr (hstays hhas)
    rw [hkeeps.class?_prune, hclass, hkeeps.relations?_prune]
  | none =>
    have hnone : registry.prune.class? reference = none := by
      have hsame := hasClass_prune_of_kept h hstays
      rw [hasClass, hasClass, hclass] at hsame
      simpa using hsame
    rw [hnone, node?_prune]

end

/-- A class that a schema reaches is kept. -/
theorem mem_keptClasses_of_reaches (hschema : schema ∈ registry.schemas)
    (hreaches : registry.Reaches schema reference) (hclass : registry.hasClass reference) :
    reference ∈ registry.keptClasses :=
  mem_keptClasses_iff.2 ⟨hclass, schema, hschema, hreaches⟩

/-- What a schema reached, it reaches after pruning. -/
theorem Reaches.prune (h : registry.whitelist ≠ []) (hschema : schema ∈ registry.schemas)
    (hreaches : registry.Reaches schema reference) : registry.prune.Reaches schema reference := by
  obtain ⟨start, hstart, hpath⟩ := hreaches
  have henters : registry.prune.Enters schema start := by
    unfold Enters
    rw [whitelist_prune]
    exact hstart
  refine ⟨start, henters, ?_⟩
  -- step by step along the path: what comes before a step is reached, so its edges are still there
  induction hpath with
  | refl => exact .refl
  | @tail middle target hbefore hstep ih =>
    have hstays := mem_keptClasses_of_reaches hschema ⟨start, hstart, hbefore⟩
    refine ih.tail ?_
    rw [← mem_successors_iff, successors_prune h hstays, mem_successors_iff]
    exact hstep

/-- Marking again comes to the same classes in the same order. -/
theorem marked_prune (hschema : schema ∈ registry.schemas) :
    registry.prune.marked schema = registry.marked schema := by
  by_cases h : registry.whitelist = []
  · rw [prune, if_pos h]
  have hstays : ∀ x, registry.Reaches schema x → registry.hasClass x → x ∈ registry.keptClasses :=
    fun _ hreaches => mem_keptClasses_of_reaches hschema hreaches
  have hentry : registry.prune.entryPoints schema = registry.entryPoints schema := by
    unfold entryPoints
    rw [whitelist_prune]
  -- both visits stay on what is reached, and are free to go everywhere there
  have hvisit : visit (fun x => (registry.prune.successors x).reverse)
      ((registry.entryPoints schema).reverse ++ registry.prune.linked)
      (registry.entryPoints schema).reverse =
        visit (fun x => (registry.successors x).reverse)
          ((registry.entryPoints schema).reverse ++ registry.linked)
          (registry.entryPoints schema).reverse := by
    refine visit_eq_of_closed (P := registry.Reaches schema) ?_ ?_ ?_
    · intro x hx
      rw [successors_prune h (hstays x hx)]
      refine ⟨rfl, fun target htarget => ?_⟩
      obtain ⟨start, hstart, hpath⟩ := hx
      exact ⟨start, hstart, hpath.tail (mem_successors_iff.1 (List.mem_reverse.1 htarget))⟩
    · intro x hx
      exact ⟨x, mem_entryPoints_iff.1 (List.mem_reverse.1 hx), .refl⟩
    · intro x hx
      have hafter := (met_iff_reaches.2 (hx.prune h hschema)).mem_unvisited
      rw [hentry] at hafter
      exact iff_of_true hafter (met_iff_reaches.2 hx).mem_unvisited
  unfold marked
  dsimp only
  rw [hentry, hvisit]
  refine List.filter_congr fun x hx => ?_
  exact hasClass_prune_of_kept h (hstays x (met_iff_reaches.1 ((mem_visit_iff _ _ _ _).1 hx)))

/-- Marking reads the operations of a schema, and pruning leaves these as they are. -/
theorem marked_pruned (hschema : schema ∈ registry.schemas) :
    registry.prune.marked (registry.pruned schema) = registry.marked schema := by
  show registry.prune.marked schema = registry.marked schema
  exact marked_prune hschema

theorem map_marked_prune (registry : Registry) :
    registry.prune.schemas.map registry.prune.marked = registry.schemas.map registry.marked := by
  by_cases h : registry.whitelist = []
  · rw [prune, if_pos h]
  · rw [schemas_prune h, List.map_map]
    exact List.map_congr_left fun schema hschema => marked_pruned hschema

theorem keptClasses_prune (registry : Registry) :
    registry.prune.keptClasses = registry.keptClasses := by
  unfold keptClasses
  rw [List.flatMap_def, List.flatMap_def, map_marked_prune]

/-- A schema that was pruned has nothing left to drop. -/
theorem pruned_pruned (hschema : schema ∈ registry.schemas) :
    registry.prune.pruned (registry.pruned schema) = registry.pruned schema := by
  have hclasses : (registry.pruned schema).classes.filter
      (fun c => c.reference ∈ registry.prune.keptClasses) = (registry.pruned schema).classes := by
    rw [keptClasses_prune, pruned, List.filter_filter]
    simp only [Bool.and_self]
  show { registry.pruned schema with
    needed := registry.prune.marked (registry.pruned schema)
    classes := (registry.pruned schema).classes.filter
      fun c => c.reference ∈ registry.prune.keptClasses } = registry.pruned schema
  rw [hclasses, marked_pruned hschema]
  rfl

/-- Pruning a registry that has been pruned marks the same classes in the same order, drops none, and
leaves the registry as it is. -/
theorem prune_prune (registry : Registry) :
    registry.prune.schemas.map registry.prune.marked = registry.schemas.map registry.marked ∧
      registry.prune.prunedCount = 0 ∧ registry.prune.prune = registry.prune := by
  by_cases h : registry.whitelist = []
  · have hsame : registry.prune = registry := by rw [prune, if_pos h]
    rw [hsame, hsame, prunedCount, if_pos h]
    exact ⟨rfl, rfl, rfl⟩
  · have hafter : registry.prune.whitelist ≠ [] := by rwa [whitelist_prune]
    have hagain : registry.prune.prune = registry.prune := by
      have hleft : registry.prune.schemas.map registry.prune.pruned = registry.prune.schemas := by
        rw [schemas_prune h, List.map_map]
        exact List.map_congr_left fun schema hschema => pruned_pruned hschema
      rw [prune_eq hafter, hleft]
    -- as many classes are left as there were
    have hcount := prunedCount_add hafter
    rw [hagain] at hcount
    exact ⟨map_marked_prune registry, by omega, hagain⟩

end ApiModel.Registry
