import ApiModel.Proofs.Registry.Whitelist

/-!
# Pruning as a sweep

Pruning can be done class by class: all schemas are marked first, and then each schema is gone over by the
references that it has at that point, and the class of every reference that no schema marks is dropped
and counted (`Schema.sweep`). Although classes go while the sweep is on its way, it misses none and moves
none: it leaves the classes that are marked, in their order (`Schema.sweep_eq`).
-/

namespace ApiModel

namespace Schema

/-- Drops and counts the classes of a schema that are not kept, one after the other. -/
def sweep (kept : List String) (schema : Schema) : Schema × Nat :=
  schema.references.foldl
    (fun state reference =>
      if reference ∈ kept then state else (state.1.removeClass reference, state.2 + 1))
    (schema, 0)

/-- A sweep that has gone over some classes goes on to the others. -/
theorem sweep_step (kept : List String) (schema : Schema) (done todo : List Class)
    (hdone : ∀ c ∈ done, c.reference ∈ kept) (removed : Nat) :
    (todo.map Class.reference).foldl
        (fun state reference =>
          if reference ∈ kept then state else (state.1.removeClass reference, state.2 + 1))
        ({ schema with classes := done ++ todo }, removed) =
      ({ schema with classes := done ++ todo.filter fun c => c.reference ∈ kept },
        removed + todo.countP fun c => c.reference ∉ kept) := by
  induction todo generalizing done removed with
  | nil => simp
  | cons c todo ih =>
    rw [List.map_cons, List.foldl_cons]
    by_cases hkept : c.reference ∈ kept
    · -- a class that is kept joins those that were gone over
      have hshift : done ++ c :: todo = (done ++ [c]) ++ todo := by simp
      have hnext : ∀ d ∈ done ++ [c], d.reference ∈ kept := by
        intro d hd
        rcases List.mem_append.1 hd with hd | hd
        · exact hdone d hd
        · rw [List.mem_singleton.1 hd]
          exact hkept
      rw [if_pos hkept, hshift, ih (done ++ [c]) hnext removed]
      simp [hkept]
    · -- all classes before the one that goes have other references, since they are kept
      have hbefore : ∀ d ∈ done, d.reference ≠ c.reference := by
        intro d hd heq
        exact hkept (heq ▸ hdone d hd)
      have hdrop : Schema.removeClass { schema with classes := done ++ c :: todo } c.reference =
          { schema with classes := done ++ todo } := by
        unfold Schema.removeClass
        rw [Keyed.erase_append_cons hbefore rfl]
      rw [if_neg hkept, hdrop, ih done hdone (removed + 1)]
      simp [hkept]
      omega

/-- A sweep leaves the classes that are kept, in order, and counts the others. -/
theorem sweep_eq (kept : List String) (schema : Schema) :
    schema.sweep kept =
      ({ schema with classes := schema.classes.filter fun c => c.reference ∈ kept },
        schema.classes.countP fun c => c.reference ∉ kept) := by
  have hstep := sweep_step kept schema [] schema.classes (fun c hc => absurd hc List.not_mem_nil) 0
  rw [List.nil_append, List.nil_append, Nat.zero_add] at hstep
  exact hstep

/-- Sweeps schemas one after the other, and adds up how many classes go. -/
def sweepAll (kept : List String) : List Schema → List Schema × Nat
  | [] => ([], 0)
  | schema :: rest =>
    let swept := schema.sweep kept
    let others := sweepAll kept rest
    (swept.1 :: others.1, swept.2 + others.2)

theorem sweepAll_eq (kept : List String) (schemas : List Schema) :
    sweepAll kept schemas =
      (schemas.map fun schema =>
          { schema with classes := schema.classes.filter fun c => c.reference ∈ kept },
        (schemas.flatMap Schema.classes).countP fun c => c.reference ∉ kept) := by
  induction schemas with
  | nil => rfl
  | cons schema rest ih =>
    rw [sweepAll, ih, sweep_eq]
    simp only [List.map_cons, List.flatMap_cons, List.countP_append]

/-- What pruning a registry makes of one of its schemas: nothing changes but what is needed, and of the
classes those are left that some schema marks. -/
structure PrunedTo (registry : Registry) (before after : Schema) : Prop where
  same : after = { before with needed := after.needed, classes := after.classes }
  needed : after.needed = registry.marked before
  classes : after.classes =
    before.classes.filter fun c => ∃ other ∈ registry.schemas, c.reference ∈ registry.marked other

end Schema

namespace Registry

variable {registry : Registry}

theorem mem_keptClasses {reference : String} :
    reference ∈ registry.keptClasses ↔ ∃ other ∈ registry.schemas, reference ∈ registry.marked other :=
  List.mem_flatMap

/-- What pruning makes of a schema. -/
def pruned (registry : Registry) (schema : Schema) : Schema :=
  { schema with
    needed := registry.marked schema
    classes := schema.classes.filter fun c => c.reference ∈ registry.keptClasses }

theorem prune_eq (h : registry.whitelist ≠ []) :
    registry.prune = { registry with schemas := registry.schemas.map registry.pruned } := by
  unfold prune
  rw [if_neg h]
  rfl

theorem schemas_prune (h : registry.whitelist ≠ []) :
    registry.prune.schemas = registry.schemas.map registry.pruned := by
  rw [prune_eq h]

/-- Every schema is pruned, in its place. -/
theorem prunedTo_prune (h : registry.whitelist ≠ []) :
    List.Forall₂ (Schema.PrunedTo registry) registry.schemas registry.prune.schemas := by
  rw [schemas_prune h, List.forall₂_map_right_iff, List.forall₂_same]
  intro schema _
  refine ⟨rfl, rfl, ?_⟩
  simp only [pruned, mem_keptClasses]

/-- Marks all schemas and then sweeps them. -/
def sweep (registry : Registry) : Registry × Nat :=
  let marked := registry.schemas.map fun schema => { schema with needed := registry.marked schema }
  let swept := Schema.sweepAll registry.keptClasses marked
  ({ registry with schemas := swept.1 }, swept.2)

/-- Sweeping prunes. -/
theorem sweep_eq (h : registry.whitelist ≠ []) :
    registry.sweep = (registry.prune, registry.prunedCount) := by
  unfold sweep prune prunedCount
  rw [if_neg h, if_neg h]
  simp only [Schema.sweepAll_eq, List.map_map, List.flatMap_map, Function.comp_def]

/-- The classes that pruning counts are those that are left out of the schemas. -/
theorem prunedCount_add (h : registry.whitelist ≠ []) :
    registry.prunedCount + (registry.prune.schemas.flatMap Schema.classes).length =
      (registry.schemas.flatMap Schema.classes).length := by
  have hleft : registry.prune.schemas.flatMap Schema.classes =
      (registry.schemas.flatMap Schema.classes).filter
        fun c => c.reference ∈ registry.keptClasses := by
    rw [schemas_prune h, List.flatMap_map, List.filter_flatMap]
    rfl
  rw [hleft, ← List.countP_eq_length_filter, prunedCount, if_neg h, Nat.add_comm]
  have hsplit := List.length_eq_countP_add_countP (l := registry.schemas.flatMap Schema.classes)
    fun c => decide (c.reference ∈ registry.keptClasses)
  simpa using hsplit.symm

/-- Pruning leaves a class exactly if there was one and it is kept. -/
theorem hasClass_prune_iff (h : registry.whitelist ≠ []) {reference : String} :
    registry.prune.hasClass reference ↔
      registry.hasClass reference ∧ reference ∈ registry.keptClasses := by
  rw [hasClass_iff, hasClass_iff, schemas_prune h]
  constructor
  · rintro ⟨pruned, hpruned, c, hc, rfl⟩
    obtain ⟨schema, hschema, rfl⟩ := List.mem_map.1 hpruned
    obtain ⟨hmem, hkept⟩ := List.mem_filter.1 hc
    exact ⟨⟨schema, hschema, c, hmem, rfl⟩, by simpa using hkept⟩
  · rintro ⟨⟨schema, hschema, c, hc, rfl⟩, hkept⟩
    refine ⟨_, List.mem_map_of_mem hschema, c, List.mem_filter.2 ⟨hc, ?_⟩, rfl⟩
    simpa using hkept

/-- A class that another one needs by itself: by a recorded relation, as its child, or as its union. -/
def Needs (registry : Registry) (reference target : String) : Prop :=
  target ∈ (registry.relations? reference).getD [] ∨
    ∃ c, registry.class? reference = some c ∧ (target ∈ c.children ∨ c.unionParent? = some target)

theorem Needs.leads {reference target : String} (h : registry.Needs reference target)
    (hclass : registry.hasClass reference) : registry.Leads reference target := by
  obtain ⟨c, hc⟩ := Option.isSome_iff_exists.1 hclass
  rcases h with hrelation | ⟨other, hother, hchild | hunion⟩
  · cases hknown : registry.relations? reference with
    | none => rw [hknown] at hrelation; cases hrelation
    | some known =>
      rw [hknown] at hrelation
      exact .relation hc hknown hrelation
  · exact .child hother hchild
  · exact .union hother hunion

/-- Pruning to a whitelist leaves each schema in its place, with the classes that some schema marks, as
they were and in their order, and with its own marks as what it needs. The classes that are dropped are
counted, sweeping gives the same, and what a class that stays needs stays with it. -/
theorem prune_exact (h : registry.whitelist ≠ []) :
    List.Forall₂ (Schema.PrunedTo registry) registry.schemas registry.prune.schemas ∧
      registry.prune.whitelist = registry.whitelist ∧
      registry.prunedCount + (registry.prune.schemas.flatMap Schema.classes).length =
        (registry.schemas.flatMap Schema.classes).length ∧
      registry.sweep = (registry.prune, registry.prunedCount) ∧
      ∀ reference, (∃ schema ∈ registry.schemas, reference ∈ registry.marked schema) →
        registry.prune.hasClass reference ∧
          ∀ target, registry.Needs reference target → registry.hasClass target →
            registry.prune.hasClass target := by
  have hwhitelist : registry.prune.whitelist = registry.whitelist := by
    unfold prune
    rw [if_neg h]
  refine ⟨prunedTo_prune h, hwhitelist, prunedCount_add h, sweep_eq h, ?_⟩
  intro reference hmarked
  have hkept : reference ∈ registry.keptClasses := mem_keptClasses.2 hmarked
  have hclass : registry.hasClass reference := (mem_keptClasses_iff.1 hkept).1
  refine ⟨(hasClass_prune_iff h).2 ⟨hclass, hkept⟩, ?_⟩
  intro target hneeds htarget
  have hkeeps : registry.Keeps target := Keeps.leads (Or.inr hkept) (hneeds.leads hclass) htarget
  exact (hasClass_prune_iff h).2 ⟨htarget, hkeeps.resolve_left h⟩

/-- In the ring a class is needed by an operation of the other document only, and it stays. -/
theorem prune_exact_ring : ring.whitelist ≠ [] ∧ ring.prune.hasClass "b#/B" := by
  have hwhitelist : ring.whitelist ≠ [] := by decide
  obtain ⟨-, -, -, -, hkept⟩ := prune_exact hwhitelist
  have hstart : ring.Enters ringEntry "a#/shared" :=
    ⟨_, List.mem_cons_self, by decide, "#/shared", by decide +kernel, by decide +kernel⟩
  have hshared : ring.Leads "a#/shared" "a#/A" := mem_successors_iff.1 (by decide +kernel)
  have hmarked : "a#/A" ∈ ring.marked ringEntry :=
    mem_marked_iff.2 ⟨by decide +kernel, "a#/shared", hstart, .single hshared⟩
  obtain ⟨-, hneeded⟩ := hkept "a#/A" ⟨ringEntry, List.mem_cons_self, hmarked⟩
  exact ⟨hwhitelist, hneeded "b#/B" (Or.inl (by decide +kernel)) (by decide +kernel)⟩

end Registry

end ApiModel
