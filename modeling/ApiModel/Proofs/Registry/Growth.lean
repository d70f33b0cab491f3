import ApiModel.Proofs.Class.Discovery
import ApiModel.Proofs.Registry.Hydration
import ApiModel.Proofs.Registry.Members
import ApiModel.Proofs.Registry.Sweep

/-!
# Registries that grow

Looking for classes, giving them members and telling children their unions never moves a class: a new one
comes behind those of its schema, and the others are changed in their places. So what such a pass leaves
of a distinct registry is distinct, and the classes of every schema are still there, as the first ones
and in their order (`Registry.Grown`).
-/

namespace ApiModel

/-! ## One order -/

/-- Two lists agree on the order of what they share: both are parts of one list without repetitions. -/
def Aligned (xs ys : List String) : Prop :=
  ∃ all : List String, all.Nodup ∧ xs.Sublist all ∧ ys.Sublist all

namespace Aligned

theorem of_initial {xs ys : List String} (h : xs <+: ys) (hys : ys.Nodup) : Aligned xs ys :=
  ⟨ys, hys, h.sublist, List.Sublist.refl ys⟩

theorem of_sublist {xs ys : List String} (hxs : xs.Nodup) (h : ys.Sublist xs) : Aligned xs ys :=
  ⟨xs, hxs, List.Sublist.refl xs, h⟩

/-- Two elements that both lists have stand in the same order in both. -/
theorem pair {xs ys : List String} (h : Aligned xs ys) {a b : String} (hab : [a, b].Sublist xs)
    (ha : a ∈ ys) (hb : b ∈ ys) : [a, b].Sublist ys := by
  obtain ⟨all, hall, hxs, hys⟩ := h
  -- what `ys` has of the whole list is `ys`
  have hpart : all.filter (· ∈ ys) = ys := by
    refine (hall.perm_iff_eq_of_sublist List.filter_sublist hys).1 ?_
    rw [List.perm_ext_iff_of_nodup (hall.sublist List.filter_sublist) (hall.sublist hys)]
    intro x
    rw [List.mem_filter, decide_eq_true_eq]
    exact ⟨And.right, fun hx => ⟨hys.subset hx, hx⟩⟩
  have hboth : [a, b].filter (· ∈ ys) = [a, b] := by simp [ha, hb]
  rw [← hpart, ← hboth]
  exact (hab.trans hxs).filter _

end Aligned

/-! ## Changes of a schema -/

/-- A change of schemas that leaves their classes in place, and puts new ones behind them. -/
structure Schema.Growth (f : Schema → Schema) : Prop where
  origin : ∀ schema, (f schema).origin = schema.origin
  places : ∀ schema, schema.references <+: (f schema).references
  nodup : ∀ schema : Schema, schema.references.Nodup → (f schema).references.Nodup

namespace Schema

theorem Growth.of_references_eq {f : Schema → Schema}
    (horigin : ∀ schema, (f schema).origin = schema.origin)
    (hreferences : ∀ schema, (f schema).references = schema.references) : Growth f where
  origin := horigin
  places := fun schema => (hreferences schema).symm ▸ List.prefix_rfl
  nodup := fun schema h => (hreferences schema).symm ▸ h

theorem growth_modifyClass {reference : String} {f : Class → Class}
    (hf : ∀ c, c.reference = reference → (f c).reference = reference) :
    Growth (·.modifyClass reference f) :=
  .of_references_eq (fun _ => rfl) fun schema => schema.references_modifyClass hf

theorem growth_addClass (c : Class) : Growth (·.addClass c) where
  origin := by
    intro schema
    unfold addClass
    split
    · rfl
    · rfl
  places := by
    intro schema
    unfold addClass
    split
    · exact List.prefix_rfl
    · exact ⟨[c.reference], by simp [references]⟩
  nodup := by
    intro schema h
    unfold addClass
    split
    · exact h
    · next hnew =>
      have hother : c.reference ∉ schema.references := by
        intro hmem
        obtain ⟨d, hd, href⟩ := List.mem_map.1 hmem
        exact hnew (hasClass_iff.2 ⟨d, hd, href⟩)
      show ((schema.classes ++ [c]).map Class.reference).Nodup
      rw [List.map_append, List.map_singleton]
      exact List.nodup_append_comm.1 (List.nodup_cons.2 ⟨hother, h⟩)

end Schema

namespace Registry

variable {registry : Registry}

/-- The references of the classes of an origin. -/
def references (registry : Registry) (origin : String) : List String :=
  ((registry.schema? origin).map Schema.references).getD []

theorem references_modifySchema {origin other : String} {f : Schema → Schema}
    (hf : ∀ schema, (f schema).origin = schema.origin) :
    (registry.modifySchema origin f).references other =
      if other = origin then ((registry.schema? other).map fun schema => (f schema).references).getD []
      else registry.references other := by
  rw [references, schema?, modifySchema, Keyed.get?_modify hf]
  split
  · rw [Option.map_map]
    rfl
  · rfl

theorem Distinct.nodup_references (h : registry.Distinct) (origin : String) :
    (registry.references origin).Nodup := by
  unfold Registry.references
  cases hschema : registry.schema? origin with
  | none => exact List.nodup_nil
  | some schema => exact h.references schema (mem_of_schema? hschema).1

/-! ## Passes -/

/-- A distinct registry in which the classes of every schema of another one are the first of that schema,
in their order. -/
structure Grown (start registry : Registry) : Prop where
  distinct : registry.Distinct
  places : ∀ origin, start.references origin <+: registry.references origin

theorem Distinct.grown (h : registry.Distinct) : Grown registry registry :=
  ⟨h, fun _ => List.prefix_rfl⟩

namespace Grown

variable {spell : Text.Spelling} {start : Registry} (h : Grown start registry)
include h

theorem modifySchema (origin : String) {f : Schema → Schema} (hf : Schema.Growth f) :
    Grown start (registry.modifySchema origin f) where
  distinct := h.distinct.modifySchema hf.origin hf.nodup
  places := by
    intro other
    rw [references_modifySchema hf.origin]
    split
    · refine (h.places other).trans ?_
      unfold references
      cases registry.schema? other with
      | none => exact List.prefix_rfl
      | some schema => exact hf.places schema
    · exact h.places other

theorem modifyClass (reference : String) {f : Class → Class}
    (hf : ∀ c, (f c).reference = c.reference) : Grown start (registry.modifyClass reference f) := by
  unfold Registry.modifyClass
  split
  · exact h.modifySchema _ (Schema.growth_modifyClass fun c href => (hf c).trans href)
  · exact h

theorem entered {rule : ClassRule} {after : Registry} {seed : Seed} {seeds : List Seed}
    (hentered : ClassRule.Entered spell registry seed rule after seeds) : Grown start after := by
  cases hentered with
  | noPaths => exact h
  | operations _ =>
    exact h.modifySchema _ (.of_references_eq (fun _ => rfl) fun _ => rfl)
  | known _ => exact h
  | added _ _ => exact h.modifySchema _ (Schema.growth_addClass _)

theorem discover (spell : Text.Spelling) (rules : List ClassRule) (seed : Seed) :
    Grown start (ApiModel.discover spell rules registry seed).registry :=
  discover_preserves (S := fun _ => True)
    (fun _ _ _ _ _ _ h _ hentered => ⟨h.entered hentered, fun _ _ => trivial⟩) h trivial

theorem discoverBy (spell : Text.Spelling) (rule : ClassRule) (rules : List ClassRule) (seed : Seed) :
    Grown start (rule.discover spell rules registry seed).registry := by
  unfold ClassRule.discover
  cases hresult : rule.enter spell registry seed with
  | error error => exact h
  | ok result =>
    obtain ⟨after, seeds⟩ := result
    have hafter := h.entered (ClassRule.entered_of_enter hresult)
    exact (Discovery.each_keeps (P := Grown start) (Q := fun _ => True)
      (fun inner _ registry h => ⟨h.discover spell rules inner, fun _ _ => trivial⟩) hafter).1

theorem setParsed (origin : String) (root : Document) :
    Grown start (registry.modifySchema origin fun schema => { schema with parsed := some root }) :=
  h.modifySchema origin (.of_references_eq (fun _ => rfl) fun _ => rfl)

/-- A class is written back under the reference that it was found by. -/
theorem writeBack (origin : String) {reference : String} {resolved : Class}
    (href : resolved.reference = reference) :
    Grown start (registry.modifySchema origin fun schema =>
      (schema.recordRelations resolved).modifyClass reference fun _ => resolved) :=
  h.modifySchema origin <| .of_references_eq (fun _ => rfl) fun schema =>
    (schema.recordRelations resolved).references_modifyClass fun _ _ => href

theorem linkUnions : Grown start registry.linkUnions := by
  unfold Registry.linkUnions
  generalize registry.unionLinks = links
  induction links generalizing registry with
  | nil => exact h
  | cons link rest ih =>
    rw [List.foldl_cons]
    refine ih ?_
    dsimp only
    unfold Registry.link
    split
    · exact h.modifyClass _ fun c => c.reference_setUnionParent link.1
    · exact h

end Grown

/-! ## Pruning -/

theorem Distinct.prune (h : registry.Distinct) : registry.prune.Distinct := by
  by_cases hwhitelist : registry.whitelist = []
  · rw [Registry.prune, if_pos hwhitelist]
    exact h
  · constructor
    · rw [schemas_prune hwhitelist, List.map_map]
      exact h.origins
    · rw [schemas_prune hwhitelist]
      intro schema hschema
      obtain ⟨before, hbefore, rfl⟩ := List.mem_map.1 hschema
      exact (h.references before hbefore).sublist (List.filter_sublist.map _)

/-- Pruning leaves classes out and moves none. -/
theorem references_prune_sublist (registry : Registry) (origin : String) :
    (registry.prune.references origin).Sublist (registry.references origin) := by
  by_cases hwhitelist : registry.whitelist = []
  · rw [Registry.prune, if_pos hwhitelist]
  · have hkey : ∀ schema, (registry.pruned schema).origin = schema.origin := fun _ => rfl
    rw [references, schema?, schemas_prune hwhitelist, Keyed.get?_map hkey, references, schema?]
    cases Keyed.get? Schema.origin origin registry.schemas with
    | none => exact List.Sublist.refl _
    | some schema => exact List.filter_sublist.map _

end Registry

end ApiModel
