import ApiModel.Class.Discovery
import ApiModel.Proofs.Site

/-!
# What rules find stands under the site

All sites that the rules for classes come upon are built from the site they look at, by keys of its
objects and positions in its arrays. A predicate that is handed on along these steps (`Site.Inherited`)
therefore holds of everything they find: operations, extensions and seeds. The one exception is the empty
object that stands for `additionalProperties: true`. No rule supports it, so nothing is found in it.
-/

namespace ApiModel

/-- What holds of a site holds of the sites under it. -/
structure Site.Inherited (P : Site → Prop) : Prop where
  value : ∀ {site : Site} {key : String} {node : Document}, P site →
    site.node.get? key = some node → P (site.under [key] node)
  item : ∀ {site item : Site} {key : String}, P site → item ∈ site.items key → P item
  entry : ∀ {site : Site} {entry : String × Site} {key : String}, P site →
    entry ∈ site.entries key → P entry.2

/-- What holds of a seed holds of all seeds that rules find in it. -/
structure Seed.Inherited (spell : Text.Spelling) (S : Seed → Prop) : Prop where
  schemas : ∀ seed, S seed → ∀ inner ∈ schemaSeeds seed.site, S inner
  nested : ∀ seed, S seed →
    ∀ inner ∈ nestedSeeds spell (Identifier.ofClass spell seed.name) seed.site, S inner

variable {spell : Text.Spelling}

theorem Seed.inherited_true : Seed.Inherited spell fun _ => True :=
  ⟨fun _ _ _ _ => trivial, fun _ _ _ _ => trivial⟩

namespace Site.Inherited

variable {P : Site → Prop} (h : Site.Inherited P) {site : Site} (hsite : P site)
include h hsite

theorem object {inner : Site} {key : String} (hinner : site.object? key = some inner) : P inner := by
  obtain ⟨node, hnode, rfl⟩ := Option.map_eq_some_iff.1 hinner
  exact h.value hsite (Option.filter_eq_some_iff.1 hnode).1

/-- An extension stands under its site, or it stands for `additionalProperties: true`. -/
theorem extension {slot : String × Site} (hslot : slot ∈ extensionSites site) :
    P slot.2 ∨ site.node.get? "additionalProperties" = some (.bool true) ∧
      slot = (additionalPattern, site.under ["additionalProperties"] (.map [])) := by
  unfold extensionSites at hslot
  rcases List.mem_append.1 hslot with hslot | hslot
  · exact Or.inl (h.entry hsite hslot)
  · obtain ⟨node, hnode, rfl⟩ := List.mem_map.1 hslot
    split at hnode
    · next hget =>
      cases List.mem_singleton.1 hnode
      exact Or.inl (h.value hsite hget)
    · next hget =>
      cases List.mem_singleton.1 hnode
      exact Or.inr ⟨hget, rfl⟩
    · cases hnode

theorem operation {operation : Operation} (hoperation : operation ∈ operationsOf site) :
    P ⟨operation.node, operation.reference⟩ := by
  unfold operationsOf at hoperation
  obtain ⟨entry, hentry, hoperation⟩ := List.mem_flatMap.1 hoperation
  obtain ⟨method, _, hmethod⟩ := List.mem_filterMap.1 hoperation
  obtain ⟨inner, hinner, rfl⟩ := Option.map_eq_some_iff.1 hmethod
  exact h.object (h.entry hsite hentry) hinner

theorem schemaSeed {seed : Seed} (hseed : seed ∈ schemaSeeds site) : P seed.site := by
  unfold schemaSeeds at hseed
  obtain ⟨entry, hentry, rfl⟩ := List.mem_map.1 hseed
  rcases List.mem_append.1 hentry with hentry | hentry
  · obtain ⟨components, hcomponents, hinner⟩ := List.mem_flatMap.1 hentry
    obtain ⟨node, hnode, rfl⟩ := Option.map_eq_some_iff.1 (Option.mem_toList.1 hcomponents)
    exact h.entry (h.value hsite hnode) hinner
  · exact h.entry hsite hentry

theorem propertySeed {name : String} {seed : Seed} (hseed : seed ∈ propertySeeds name site) :
    P seed.site := by
  unfold propertySeeds at hseed
  obtain ⟨entry, hentry, hseed⟩ := List.mem_flatMap.1 hseed
  have hproperty := h.entry hsite hentry
  rcases List.mem_cons.1 hseed with rfl | hseed
  · exact hproperty
  · obtain ⟨items, hitems, rfl⟩ := List.mem_map.1 hseed
    exact h.object hproperty (Option.mem_toList.1 hitems)

theorem nestedSeed {name : String} {seed : Seed} (hseed : seed ∈ nestedSeeds spell name site) :
    P seed.site ∨ seed.site.node = .map [] := by
  -- inline `allOf` members are walked through, so this is an induction on the size of the node
  induction hsize : sizeOf site.node using Nat.strongRecOn generalizing site with
  | ind size ih =>
    subst hsize
    unfold nestedSeeds at hseed
    rcases List.mem_append.1 hseed with hseed | hseed
    · rcases List.mem_append.1 hseed with hseed | hseed
      · exact Or.inl (h.propertySeed hsite hseed)
      · obtain ⟨member, _, hseed⟩ := List.mem_flatMap.1 hseed
        split at hseed
        · cases hseed
        · exact ih _ (Site.sizeOf_items_lt member.2) (h.item hsite member.2) hseed rfl
    · obtain ⟨slot, hslot, rfl⟩ := List.mem_map.1 hseed
      exact (h.extension hsite hslot).imp_right fun hblank => by rw [hblank.2]; rfl

end Site.Inherited

/-- What stands in one document. -/
theorem Site.inherited_document (origin : String) :
    Site.Inherited fun site => '#' ∈ site.reference.toList ∧ site.origin = origin where
  value := by
    intro site key node h _
    obtain ⟨hfragment, rfl⟩ := h
    exact ⟨Reference.mem_child hfragment [key], Reference.document_child hfragment [key]⟩
  item := by
    intro site item key h hitem
    obtain ⟨hfragment, rfl⟩ := h
    obtain ⟨_, index, _, _, _, rfl⟩ := Site.exists_of_mem_items hitem
    exact ⟨Reference.mem_child hfragment _, Reference.document_child hfragment _⟩
  entry := by
    intro site entry key h hentry
    obtain ⟨hfragment, rfl⟩ := h
    obtain ⟨_, _, _, _, hsite⟩ := Site.exists_of_mem_entries hentry
    rw [hsite]
    exact ⟨Reference.mem_child hfragment _, Reference.document_child hfragment _⟩

/-- What stands in some document. -/
theorem Site.inherited_fragment : Site.Inherited fun site => '#' ∈ site.reference.toList where
  value h hget := ((Site.inherited_document _).value ⟨h, rfl⟩ hget).1
  item h hitem := ((Site.inherited_document _).item ⟨h, rfl⟩ hitem).1
  entry h hentry := ((Site.inherited_document _).entry ⟨h, rfl⟩ hentry).1

/-- An object schema refers to nothing. -/
theorem ClassRule.target?_of_supports {site : Site} (h : objectSchema.supports site.node) :
    site.target? = none := by
  simp only [supports, Bool.and_eq_true, Option.isNone_iff_eq_none] at h
  exact h.1.1.2

/-! ## Blank seeds -/

theorem ClassRule.not_supports_blank (rule : ClassRule) : ¬ rule.supports (.map []) := by
  cases rule <;> decide

theorem schemaSeeds_of_blank {site : Site} (h : site.node = .map []) : schemaSeeds site = [] := by
  unfold schemaSeeds Site.entries
  rw [h]
  rfl

theorem nestedSeeds_of_blank {site : Site} (h : site.node = .map []) (name : String) :
    nestedSeeds spell name site = [] := by
  unfold nestedSeeds propertySeeds extensionSeeds extensionSites Site.items Site.entries
  rw [h]
  rfl

/-- What is handed on from site to site is handed on from seed to seed, blank seeds apart. -/
theorem Seed.inherited_of_site (spell : Text.Spelling) {P : Site → Prop} (h : Site.Inherited P) :
    Seed.Inherited spell fun seed => P seed.site ∨ seed.site.node = .map [] where
  schemas seed hseed inner hinner := by
    rcases hseed with hseed | hblank
    · exact Or.inl (h.schemaSeed hseed hinner)
    · rw [schemaSeeds_of_blank hblank] at hinner
      cases hinner
  nested seed hseed inner hinner := by
    rcases hseed with hseed | hblank
    · exact h.nestedSeed hseed hinner
    · rw [nestedSeeds_of_blank hblank] at hinner
      cases hinner

/-- A site that some rule supports is not blank. -/
theorem Site.of_supports {P : Site → Prop} {site : Site} {rule : ClassRule}
    (hsite : P site ∨ site.node = .map []) (hsupports : rule.supports site.node) : P site := by
  refine hsite.resolve_right fun hblank => ?_
  rw [hblank] at hsupports
  exact rule.not_supports_blank hsupports

end ApiModel
