import ApiModel.Class.Members
import ApiModel.Proofs.Class.Discovery

/-!
# What a search for classes covers

Inside an object schema more of them are looked for: in its properties and their items, in its extensions,
and in the members of `allOf` that stand there themselves (`Site.Nests`). A search takes its turn at all of
these places for every class that it adds, and never takes a class away. So once it has ended without an
error, the object schemas nested in a new class are classes too (`discover_extends`).
-/

namespace ApiModel

/-- A site stands where object schemas are looked for inside another one. -/
inductive Site.Nests : Site → Site → Prop where
  | property {site inner : Site} {key : String} : (key, inner) ∈ site.entries "properties" →
    Nests site inner
  | items {site property inner : Site} {key : String} : (key, property) ∈ site.entries "properties" →
    property.object? "items" = some inner → Nests site inner
  | member {site member inner : Site} : member ∈ site.items "allOf" → member.target? = none →
    Nests member inner → Nests site inner
  | extension {site inner : Site} {pattern : String} : (pattern, inner) ∈ extensionSites site →
    Nests site inner

variable {spell : Text.Spelling}

/-- The seeds nested in an `allOf` member. -/
def memberSeeds (spell : Text.Spelling) (name : String) (member : Site) : List Seed :=
  if member.target?.isSome then [] else nestedSeeds spell name member

/-- The seeds nested under a class, the way they are put together. -/
theorem nestedSeeds_eq (name : String) (site : Site) :
    nestedSeeds spell name site =
      propertySeeds name site ++ (site.items "allOf").flatMap (memberSeeds spell name) ++
        extensionSeeds spell name site := by
  rw [nestedSeeds, List.flatMap_subtype (g := memberSeeds spell name) fun _ _ => rfl,
    List.unattach_attach]

theorem mem_nestedSeeds_iff {name : String} {site : Site} {seed : Seed} :
    seed ∈ nestedSeeds spell name site ↔ seed ∈ propertySeeds name site ∨
      (∃ member ∈ site.items "allOf", member.target? = none ∧ seed ∈ nestedSeeds spell name member) ∨
        seed ∈ extensionSeeds spell name site := by
  have hmember : ∀ member : Site, seed ∈ memberSeeds spell name member ↔
      member.target? = none ∧ seed ∈ nestedSeeds spell name member := by
    intro member
    unfold memberSeeds
    cases member.target? with
    | none => simp
    | some text => simp
  rw [nestedSeeds_eq, List.mem_append, List.mem_append, or_assoc, List.mem_flatMap]
  simp only [hmember]

/-- The seeds nested under a class are at the places where object schemas are looked for, and at no
others. -/
theorem exists_nestedSeed_iff (spell : Text.Spelling) (name : String) {site inner : Site} :
    (∃ seed ∈ nestedSeeds spell name site, seed.site = inner) ↔ site.Nests inner := by
  constructor
  · rintro ⟨seed, hseed, rfl⟩
    -- inline `allOf` members are walked through, so this is an induction on the size of the node
    induction hsize : sizeOf site.node using Nat.strongRecOn generalizing site with
    | ind size ih =>
      subst hsize
      rcases mem_nestedSeeds_iff.1 hseed with hseed | ⟨member, hmember, hinline, hseed⟩ | hseed
      · obtain ⟨entry, hentry, hseed⟩ := List.mem_flatMap.1 hseed
        rcases List.mem_cons.1 hseed with rfl | hseed
        · exact .property hentry
        · obtain ⟨items, hitems, rfl⟩ := List.mem_map.1 hseed
          exact .items hentry (Option.mem_toList.1 hitems)
      · exact .member hmember hinline (ih _ (Site.sizeOf_items_lt hmember) hseed rfl)
      · obtain ⟨slot, hslot, rfl⟩ := List.mem_map.1 hseed
        exact .extension hslot
  · intro h
    induction h with
    | @property site inner key hentry =>
      refine ⟨{ name := name ++ Text.classify key, site := inner }, ?_, rfl⟩
      refine mem_nestedSeeds_iff.2 (Or.inl ?_)
      exact List.mem_flatMap.2 ⟨_, hentry, List.mem_cons_self⟩
    | @items site property inner key hentry hitems =>
      refine ⟨{ name := name ++ Text.classify key ++ "Item", site := inner }, ?_, rfl⟩
      refine mem_nestedSeeds_iff.2 (Or.inl (List.mem_flatMap.2 ⟨_, hentry, ?_⟩))
      exact List.mem_cons_of_mem _ (List.mem_map.2 ⟨inner, Option.mem_toList.2 hitems, rfl⟩)
    | member hmember hinline _ ih =>
      obtain ⟨seed, hseed, heq⟩ := ih
      exact ⟨seed, mem_nestedSeeds_iff.2 (Or.inr (Or.inl ⟨_, hmember, hinline, hseed⟩)), heq⟩
    | @extension site inner pattern hslot =>
      refine ⟨{ name := name ++ extensionSuffix spell pattern, site := inner }, ?_, rfl⟩
      refine mem_nestedSeeds_iff.2 (Or.inr (Or.inr ?_))
      exact List.mem_map.2 ⟨_, hslot, rfl⟩

/-! ## Registries that grow -/

namespace Registry

/-- Some schema holds the class. -/
def Lists (registry : Registry) (c : Class) : Prop :=
  ∃ schema ∈ registry.schemas, c ∈ schema.classes

/-- The object schemas nested in a class are classes. -/
def Covered (registry : Registry) (c : Class) : Prop :=
  ∀ inner, c.site.Nests inner → ClassRule.objectSchema.supports inner.node →
    registry.hasClass inner.reference

/-- A registry has all classes of another one, and those that it has besides are covered. -/
structure Extends (before after : Registry) : Prop where
  keeps : ∀ c, before.Lists c → after.Lists c
  covers : ∀ c, after.Lists c → before.Lists c ∨ after.Covered c

variable {registry before between after : Registry}

theorem hasClass_iff_lists {reference : String} :
    registry.hasClass reference ↔ ∃ c, registry.Lists c ∧ c.reference = reference := by
  rw [hasClass_iff]
  constructor
  · rintro ⟨schema, hschema, c, hc, href⟩
    exact ⟨c, ⟨schema, hschema, hc⟩, href⟩
  · rintro ⟨c, ⟨schema, hschema, hc⟩, href⟩
    exact ⟨schema, hschema, c, hc, href⟩

namespace Extends

theorem hasClass (h : before.Extends after) {reference : String}
    (hhas : before.hasClass reference) : after.hasClass reference := by
  obtain ⟨c, hc, href⟩ := hasClass_iff_lists.1 hhas
  exact hasClass_iff_lists.2 ⟨c, h.keeps c hc, href⟩

/-- Classes that are covered stay so. -/
theorem covered (h : before.Extends after) {c : Class} (hc : before.Covered c) : after.Covered c :=
  fun inner hinner hsupports => h.hasClass (hc inner hinner hsupports)

theorem of_lists (h : ∀ c, after.Lists c ↔ before.Lists c) : before.Extends after where
  keeps c hc := (h c).2 hc
  covers c hc := Or.inl ((h c).1 hc)

theorem refl (registry : Registry) : registry.Extends registry := of_lists fun _ => Iff.rfl

theorem trans (h : before.Extends between) (hnext : between.Extends after) :
    before.Extends after where
  keeps c hc := hnext.keeps c (h.keeps c hc)
  covers c hc := by
    rcases hnext.covers c hc with hc | hc
    · exact (h.covers c hc).imp_right hnext.covered
    · exact Or.inr hc

end Extends

theorem lists_iff {c : Class} :
    registry.Lists c ↔ ∃ classes ∈ registry.schemas.map Schema.classes, c ∈ classes := by
  simp [Lists]

/-- A change that keeps the classes of a schema keeps those of the registry. -/
theorem lists_modifySchema_of_classes (origin : String) {f : Schema → Schema}
    (hf : ∀ schema, (f schema).classes = schema.classes) (c : Class) :
    (registry.modifySchema origin f).Lists c ↔ registry.Lists c := by
  rw [lists_iff, lists_iff, modifySchema, Keyed.map_modify hf]

/-- A class that is new to the schema of an origin can be added there. -/
theorem lists_modifySchema_addClass {origin : String} {schema : Schema}
    (hschema : registry.schema? origin = some schema) {added : Class}
    (hnew : ¬ schema.hasClass added.reference) (c : Class) :
    (registry.modifySchema origin (·.addClass added)).Lists c ↔ registry.Lists c ∨ c = added := by
  obtain ⟨done, todo, hschemas, hdone⟩ := Keyed.eq_append_cons_of_get? hschema
  have hclasses : ∀ c, c ∈ (schema.addClass added).classes ↔ c ∈ schema.classes ∨ c = added := by
    intro c
    unfold Schema.addClass
    rw [if_neg hnew, List.mem_append, List.mem_singleton]
  unfold Lists modifySchema
  rw [hschemas, Keyed.modify_append_cons hdone (mem_of_schema? hschema).2]
  simp only [List.mem_append, List.mem_cons, or_and_right, exists_or, exists_eq_left, hclasses]
  rw [or_assoc, or_assoc, or_assoc, or_comm (a := c = added)]

end Registry

/-! ## One rule at one seed -/

namespace ClassRule

variable {registry after : Registry} {seed : Seed} {seeds : List Seed}

/-- A rule for roots adds no class. -/
theorem lists_of_documentRoot (h : Entered spell registry seed .documentRoot after seeds) (c : Class) :
    after.Lists c ↔ registry.Lists c := by
  cases h with
  | noPaths => exact Iff.rfl
  | operations =>
    apply Registry.lists_modifySchema_of_classes
    intro schema
    rfl

/-- The rule for object schemas adds the class of the seed, unless there is one, and then goes on to all
places inside it. -/
theorem lists_of_objectSchema (h : Entered spell registry seed .objectSchema after seeds) :
    after = registry ∧ seeds = [] ∧ registry.hasClass seed.site.reference ∨
      seeds = nestedSeeds spell (Identifier.ofClass spell seed.name) seed.site ∧
        ∀ c, after.Lists c ↔
          registry.Lists c ∨ c = classOf (Identifier.ofClass spell seed.name) seed.site := by
  cases h with
  | known hknown => exact Or.inl ⟨rfl, rfl, hknown⟩
  | @added schema hschema hnew =>
    have hfree : ¬ schema.hasClass seed.site.reference :=
      fun hhas => hnew (Registry.hasClass_of_schema? hschema hhas)
    exact Or.inr ⟨rfl, Registry.lists_modifySchema_addClass hschema hfree⟩

end ClassRule

/-! ## The whole search -/

/-- If the node of a seed is an object schema, it is a class. -/
def Seed.Searched (rules : List ClassRule) (seed : Seed) (registry : Registry) : Prop :=
  .objectSchema ∈ rules → ClassRule.objectSchema.supports seed.site.node →
    registry.hasClass seed.site.reference

/-- One rule's turn extends the registry if the searches of the seeds that it gives do, and after the turn
of the rule for object schemas the seed is a class. -/
theorem ClassRule.discover_extends {rules : List ClassRule} {rule : ClassRule} (hrule : rule ∈ rules)
    {registry : Registry} {seed : Seed}
    (hinner : ∀ inner : Seed, sizeOf inner.site.node < sizeOf seed.site.node → ∀ registry,
      (ApiModel.discover spell rules registry inner).failure = none →
        registry.Extends (ApiModel.discover spell rules registry inner).registry ∧
          inner.Searched rules (ApiModel.discover spell rules registry inner).registry)
    (hok : (rule.discover spell rules registry seed).failure = none) :
    registry.Extends (rule.discover spell rules registry seed).registry ∧
      (rule = .objectSchema →
        (rule.discover spell rules registry seed).registry.hasClass seed.site.reference) := by
  unfold ClassRule.discover at hok ⊢
  cases henter : rule.enter spell registry seed with
  | error error => rw [henter] at hok; cases hok
  | ok result =>
    obtain ⟨after, seeds⟩ := result
    rw [henter] at hok
    dsimp only at hok ⊢
    have hentered := entered_of_enter henter
    obtain ⟨hext, hseeds⟩ := Discovery.each_settles (P := Seed.Searched rules)
      Registry.Extends.refl (fun _ _ _ => Registry.Extends.trans)
      (fun inner hmem registry hok => hinner inner (sizeOf_enter_lt henter hmem) registry hok)
      (fun inner before after hext hbefore hmem hsupports =>
        hext.hasClass (hbefore hmem hsupports)) hok
    cases rule with
    | documentRoot =>
      have hlists := lists_of_documentRoot hentered
      exact ⟨(Registry.Extends.of_lists hlists).trans hext, fun heq => nomatch heq⟩
    | objectSchema =>
      rcases lists_of_objectSchema hentered with ⟨rfl, _, hknown⟩ | ⟨rfl, hlists⟩
      · exact ⟨hext, fun _ => hext.hasClass hknown⟩
      · have hown := (hlists _).2 (Or.inr rfl)
        refine ⟨⟨fun c hc => hext.keeps c ((hlists c).2 (Or.inl hc)), fun c hc => ?_⟩, fun _ => ?_⟩
        · rcases hext.covers c hc with hc | hc
          · -- the new class is covered by what the seeds give
            refine ((hlists c).1 hc).imp_right ?_
            rintro rfl inner hnests hsupports
            obtain ⟨nested, hnested, rfl⟩ := (exists_nestedSeed_iff _ _).2 hnests
            exact hseeds nested hnested hrule hsupports
          · exact Or.inr hc
        · exact hext.hasClass (Registry.hasClass_iff_lists.2 ⟨_, hown, rfl⟩)

/-- A search that ends without an error extends the registry, and if its seed is an object schema, that
is a class. -/
theorem discover_extends {rules : List ClassRule} {registry : Registry} {seed : Seed}
    (hok : (discover spell rules registry seed).failure = none) :
    registry.Extends (discover spell rules registry seed).registry ∧
      seed.Searched rules (discover spell rules registry seed).registry := by
  -- by induction on the size of the node: all seeds that a rule gives hold smaller ones
  induction hsize : sizeOf seed.site.node using Nat.strongRecOn generalizing registry seed with
  | ind size ih =>
    subst hsize
    rw [discover_eq] at hok ⊢
    obtain ⟨hext, hturns⟩ := Discovery.each_settles
      (P := fun rule after =>
        rule = ClassRule.objectSchema → after.hasClass seed.site.reference)
      Registry.Extends.refl (fun _ _ _ => Registry.Extends.trans)
      (fun rule hrule registry hok => ClassRule.discover_extends (List.mem_of_mem_filter hrule)
        (fun inner hlt registry hok => ih _ hlt hok rfl) hok)
      (fun rule before after hext hbefore heq => hext.hasClass (hbefore heq)) hok
    exact ⟨hext, fun hmem hsupports => hturns _ (List.mem_filter.2 ⟨hmem, hsupports⟩) rfl⟩

end ApiModel
