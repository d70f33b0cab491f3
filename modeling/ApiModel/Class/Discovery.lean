import ApiModel.Class.Rule

/-!
Finding classes: every rule that applies to a node takes its turn, and after each of them the seeds
it gives are looked at, depth first. An error ends the search and leaves what was recorded before.
-/

namespace ApiModel

/-- How far a search came: the registry it left and the error that ended it, if one did. -/
structure Discovery where
  registry : Registry
  failure : Option Error := none
  deriving Inhabited

/-- Takes a step for each element in turn, until one fails. -/
def Discovery.each {α : Type} (step : Registry → α → Discovery) (registry : Registry) :
    List α → Discovery
  | [] => { registry }
  | x :: xs =>
    let reached := step registry x
    if reached.failure.isNone then each step reached.registry xs else reached

/-! Seeds hold smaller nodes than the nodes they were found in. -/

theorem sizeOf_schemaSeeds_lt {root : Site} {seed : Seed} (h : seed ∈ schemaSeeds root) :
    sizeOf seed.site.node < sizeOf root.node := by
  unfold schemaSeeds at h
  obtain ⟨entry, hentry, rfl⟩ := List.mem_map.1 h
  rcases List.mem_append.1 hentry with hentry | hentry
  · obtain ⟨components, hcomponents, hinner⟩ := List.mem_flatMap.1 hentry
    obtain ⟨node, hnode, rfl⟩ := Option.map_eq_some_iff.1 (Option.mem_toList.1 hcomponents)
    exact Nat.lt_trans (Site.sizeOf_entries_lt hinner) (Document.sizeOf_get?_lt hnode)
  · exact Site.sizeOf_entries_lt hentry

theorem sizeOf_empty_lt {node : Document} {key : String} (h : (node.get? key).isSome) :
    sizeOf (Document.map []) < sizeOf node := by
  unfold Document.get? at h
  split at h
  · next entries =>
    cases entries with
    | nil => simp [Keyed.get?] at h
    | cons entry rest =>
      obtain ⟨name, value⟩ := entry
      simp
      omega
  · simp at h

theorem sizeOf_extensionSites_lt {site : Site} {slot : String × Site}
    (h : slot ∈ extensionSites site) : sizeOf slot.2.node < sizeOf site.node := by
  unfold extensionSites at h
  rcases List.mem_append.1 h with h | h
  · exact Site.sizeOf_entries_lt h
  · obtain ⟨node, hnode, rfl⟩ := List.mem_map.1 h
    split at hnode
    · next hget =>
      cases List.mem_singleton.1 hnode
      exact Document.sizeOf_get?_lt hget
    · next hget =>
      cases List.mem_singleton.1 hnode
      exact sizeOf_empty_lt (by rw [hget]; rfl)
    · simp at hnode

theorem sizeOf_propertySeeds_lt {name : String} {site : Site} {seed : Seed}
    (h : seed ∈ propertySeeds name site) : sizeOf seed.site.node < sizeOf site.node := by
  unfold propertySeeds at h
  obtain ⟨entry, hentry, hseed⟩ := List.mem_flatMap.1 h
  have hlt := Site.sizeOf_entries_lt hentry
  rcases List.mem_cons.1 hseed with rfl | hseed
  · exact hlt
  · obtain ⟨items, hitems, rfl⟩ := List.mem_map.1 hseed
    exact Nat.lt_trans (Site.sizeOf_object?_lt (Option.mem_toList.1 hitems)) hlt

theorem sizeOf_extensionSeeds_lt {spell : Text.Spelling} {name : String} {site : Site} {seed : Seed}
    (h : seed ∈ extensionSeeds spell name site) : sizeOf seed.site.node < sizeOf site.node := by
  unfold extensionSeeds at h
  obtain ⟨slot, hslot, rfl⟩ := List.mem_map.1 h
  exact sizeOf_extensionSites_lt hslot

theorem sizeOf_nestedSeeds_lt {spell : Text.Spelling} {name : String} {site : Site} {seed : Seed}
    (h : seed ∈ nestedSeeds spell name site) : sizeOf seed.site.node < sizeOf site.node := by
  unfold nestedSeeds at h
  rcases List.mem_append.1 h with h | h
  · rcases List.mem_append.1 h with h | h
    · exact sizeOf_propertySeeds_lt h
    · obtain ⟨member, _, hseed⟩ := List.mem_flatMap.1 h
      have hlt := Site.sizeOf_items_lt member.2
      split at hseed
      · simp at hseed
      · exact Nat.lt_trans (sizeOf_nestedSeeds_lt hseed) hlt
  · exact sizeOf_extensionSeeds_lt h
termination_by sizeOf site.node

theorem sizeOf_enter_lt {spell : Text.Spelling} {rule : ClassRule} {registry after : Registry}
    {seed inner : Seed} {seeds : List Seed} (h : rule.enter spell registry seed = .ok (after, seeds))
    (hmem : inner ∈ seeds) :
    sizeOf inner.site.node < sizeOf seed.site.node := by
  cases rule with
  | documentRoot =>
    simp only [ClassRule.enter, ClassRule.enterRoot] at h
    split at h
    · cases h; exact sizeOf_schemaSeeds_lt hmem
    · split at h
      · cases h
      · cases h; exact sizeOf_schemaSeeds_lt hmem
  | objectSchema =>
    simp only [ClassRule.enter, ClassRule.enterSchema] at h
    split at h
    · cases h; simp at hmem
    · split at h
      · cases h
      · cases h; exact sizeOf_nestedSeeds_lt hmem

/-- Looks for classes in a seed and in everything it gives. -/
def discover (spell : Text.Spelling) (rules : List ClassRule) (registry : Registry) (seed : Seed) :
    Discovery :=
  Discovery.each
    (fun registry rule =>
      match _henter : ClassRule.enter spell registry seed rule with
      | .error error => { registry, failure := some error }
      | .ok (registry, seeds) =>
        Discovery.each (fun registry inner => discover spell rules registry inner.1) registry
          seeds.attach)
    registry (rules.filter (·.supports seed.site.node))
termination_by sizeOf seed.site.node
decreasing_by exact sizeOf_enter_lt _henter inner.2

/-- Looks for classes in what one rule finds at a seed, all rules taking part from there on. -/
def ClassRule.discover (spell : Text.Spelling) (rule : ClassRule) (rules : List ClassRule)
    (registry : Registry) (seed : Seed) : Discovery :=
  match rule.enter spell registry seed with
  | .error error => { registry, failure := some error }
  | .ok (registry, seeds) => Discovery.each (ApiModel.discover spell rules) registry seeds

end ApiModel
