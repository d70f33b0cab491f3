import ApiModel.Proofs.Registry.Placement
import ApiModel.Proofs.Registry.Reachability
import ApiModel.Registry.Whitelist

/-!
# What pruning keeps

Pruning keeps a class or drops it, and changes no class that it keeps. With every class it keeps the
classes that this one leads to (`Keeps.leads`), so nothing that stays refers to a class that went.
-/

namespace ApiModel.Registry

variable {registry : Registry} {reference : String}

/-- Whether pruning keeps a class with a reference: without a whitelist always, and else if some schema
marks it. -/
def Keeps (registry : Registry) (reference : String) : Prop :=
  registry.whitelist = [] ∨ reference ∈ registry.keptClasses

theorem mem_keptClasses_iff :
    reference ∈ registry.keptClasses ↔
      registry.hasClass reference ∧ ∃ schema ∈ registry.schemas, registry.Reaches schema reference := by
  unfold keptClasses
  simp only [List.mem_flatMap, mem_marked_iff]
  constructor
  · rintro ⟨schema, hschema, hhas, hreaches⟩
    exact ⟨hhas, schema, hschema, hreaches⟩
  · rintro ⟨hhas, schema, hschema, hreaches⟩
    exact ⟨schema, hschema, hhas, hreaches⟩

/-- A class that a kept one leads to is kept. -/
theorem Keeps.leads (h : registry.Keeps reference) {target : String}
    (hleads : registry.Leads reference target) (htarget : registry.hasClass target) :
    registry.Keeps target := by
  rcases h with hall | hkept
  · exact Or.inl hall
  · obtain ⟨_, schema, hschema, start, hstart, hpath⟩ := mem_keptClasses_iff.1 hkept
    refine Or.inr (mem_keptClasses_iff.2 ⟨htarget, schema, hschema, start, hstart, ?_⟩)
    exact hpath.tail hleads

namespace Placed

variable (h : registry.Placed)
include h

theorem prune : registry.prune.Placed := by
  unfold Registry.prune
  split
  · exact h
  · exact h.filterClasses (fun c => c.reference ∈ registry.keptClasses) fun _ => ⟨rfl, rfl⟩

/-- The classes after pruning are those that are kept. -/
theorem class?_prune_iff {c : Class} :
    registry.prune.class? reference = some c ↔
      registry.class? reference = some c ∧ registry.Keeps reference := by
  rw [h.prune.class?_eq_some_iff, h.class?_eq_some_iff]
  unfold Registry.prune Keeps
  split
  · next hall => simp [hall]
  · next hsome =>
    simp only [hsome, false_or]
    -- a class stands in a pruned schema if it stood there before and is kept
    constructor
    · rintro ⟨pruned, hpruned, hc, rfl⟩
      obtain ⟨schema, hschema, rfl⟩ := List.mem_map.1 hpruned
      obtain ⟨hmem, hkept⟩ := List.mem_filter.1 hc
      exact ⟨⟨schema, hschema, hmem, rfl⟩, by simpa using hkept⟩
    · rintro ⟨⟨schema, hschema, hc, rfl⟩, hkept⟩
      refine ⟨_, List.mem_map_of_mem hschema, List.mem_filter.2 ⟨hc, ?_⟩, rfl⟩
      simpa using hkept

end Placed

end ApiModel.Registry
