import ApiModel.Proofs.Class.Coverage
import ApiModel.Proofs.Traversal
import ApiModel.Rules
import ApiModel.Text.Transliteration

/-!
# A search for classes, made again

A search may start with any registry: some of the places that it comes to may hold classes already, in the
schema of their document or in another one. Whether it ends with an error or not, all of these classes stay
as they are and where they are, and new ones come behind them (`Registry.Enlarged`). When it has ended
without an error, every place that it took its turn at has what the turn needs: an object schema is a class,
and a root with paths has a schema. That stays so while the registry is enlarged, and therefore the same
search made again runs into no error and finds nothing to add (`Rules.discover_twice`).
-/

namespace ApiModel

/-- A schema with classes and operations behind those that it has. -/
def Schema.extend (schema : Schema) (classes : List Class) (operations : List Operation) : Schema :=
  { schema with
    classes := schema.classes ++ classes
    operations := schema.operations ++ operations }

theorem Schema.extend_extend (schema : Schema) (classes next : List Class)
    (operations more : List Operation) :
    (schema.extend classes operations).extend next more =
      schema.extend (classes ++ next) (operations ++ more) := by
  simp only [extend, List.append_assoc]

/-- A class that is new is put behind the others. -/
theorem Schema.addClass_eq_extend {schema : Schema} {c : Class} (hnew : ¬ schema.hasClass c.reference) :
    schema.addClass c = schema.extend [c] [] := by
  rw [addClass, if_neg hnew, extend, List.append_nil]

namespace Registry

/-! ## Enlarging a registry -/

/-- A schema with classes behind its own whose references are new to the registry. -/
def Gains (registry : Registry) (own gained : Schema) : Prop :=
  ∃ classes operations, (∀ c ∈ classes, ¬ registry.hasClass c.reference) ∧
    gained = own.extend classes operations

/-- A registry with all its schemas in their places, and with new classes behind those that each of them
holds. -/
structure Enlarged (before after : Registry) : Prop where
  whitelist : after.whitelist = before.whitelist
  schemas : List.Forall₂ before.Gains before.schemas after.schemas

/-- The classes that the schemas hold, schema by schema. -/
def holdings (registry : Registry) : List (List Class) := registry.schemas.map Schema.classes

variable {registry before between after : Registry}

theorem Gains.refl (registry : Registry) (schema : Schema) : registry.Gains schema schema :=
  ⟨[], [], fun _ hc => absurd hc List.not_mem_nil, by simp [Schema.extend]⟩

namespace Enlarged

theorem refl (registry : Registry) : registry.Enlarged registry where
  whitelist := rfl
  schemas := List.forall₂_same.2 fun schema _ => Gains.refl registry schema

theorem hasClass (h : before.Enlarged after) {reference : String}
    (hhas : before.hasClass reference) : after.hasClass reference := by
  obtain ⟨own, hown, c, hc, href⟩ := hasClass_iff.1 hhas
  obtain ⟨_, hgained, classes, operations, _, rfl⟩ := Traversal.exists_of_mem_left h.schemas hown
  exact hasClass_iff.2 ⟨_, hgained, c, List.mem_append_left classes hc, href⟩

theorem trans (h : before.Enlarged between) (hnext : between.Enlarged after) :
    before.Enlarged after where
  whitelist := hnext.whitelist.trans h.whitelist
  schemas := by
    refine Traversal.forall₂_trans ?_ h.schemas hnext.schemas
    rintro own _ _ ⟨classes, operations, hnew, rfl⟩ ⟨next, more, hnewer, rfl⟩
    refine ⟨classes ++ next, operations ++ more, fun c hc => ?_, own.extend_extend _ _ _ _⟩
    rcases List.mem_append.1 hc with hc | hc
    · exact hnew c hc
    · exact fun hhas => hnewer c hc (h.hasClass hhas)

theorem origins (h : before.Enlarged after) : after.origins = before.origins := by
  refine Traversal.map_eq_of_forall₂ ?_ h.schemas
  rintro own _ ⟨_, _, _, rfl⟩
  rfl

theorem schemaOf?_isSome (h : before.Enlarged after) {reference : String}
    (hschema : (before.schemaOf? reference).isSome) : (after.schemaOf? reference).isSome := by
  rw [schemaOf?, isSome_schema?_iff] at hschema ⊢
  rw [h.origins]
  exact hschema

/-- A registry is enlarged by what one of its schemas gains. -/
theorem of_modifySchema {origin : String} {schema : Schema}
    (hschema : before.schema? origin = some schema) {f : Schema → Schema}
    (hgains : before.Gains schema (f schema)) : before.Enlarged (before.modifySchema origin f) where
  whitelist := rfl
  schemas := by
    obtain ⟨done, todo, hschemas, hdone⟩ := Keyed.eq_append_cons_of_get? hschema
    have hsame : ∀ schemas : List Schema, List.Forall₂ before.Gains schemas schemas :=
      fun _ => List.forall₂_same.2 fun schema _ => Gains.refl before schema
    unfold modifySchema
    rw [hschemas, Keyed.modify_append_cons hdone (mem_of_schema? hschema).2]
    exact List.rel_append (hsame done) (.cons hgains (hsame todo))

end Enlarged

end Registry

/-! ## One rule at one seed -/

variable {spell : Text.Spelling}

namespace ClassRule

variable {rule : ClassRule} {registry after later : Registry} {seed : Seed} {seeds : List Seed}

/-- A rule enlarges the registry. -/
theorem enlarged_of_entered (h : Entered spell registry seed rule after seeds) :
    registry.Enlarged after := by
  cases h with
  | noPaths => exact .refl registry
  | operations hschema =>
    refine .of_modifySchema hschema ⟨[], operationsOf seed.site, ?_, ?_⟩
    · exact fun c hc => absurd hc List.not_mem_nil
    · rw [Schema.extend, List.append_nil]
  | known => exact .refl registry
  | @added schema hschema hnew =>
    refine .of_modifySchema hschema
      ⟨[classOf (Identifier.ofClass spell seed.name) seed.site], [], ?_, ?_⟩
    · intro c hc
      rw [List.mem_singleton.1 hc]
      exact hnew
    · exact Schema.addClass_eq_extend fun hhas => hnew (Registry.hasClass_of_schema? hschema hhas)

/-- The rule for roots adds no class. -/
theorem holdings_of_documentRoot (h : Entered spell registry seed .documentRoot after seeds) :
    after.holdings = registry.holdings := by
  cases h with
  | noPaths => rfl
  | operations =>
    rw [Registry.holdings, Registry.modifySchema, Keyed.map_modify]
    · rfl
    · exact fun _ => rfl

/-- After the turn of the rule for object schemas the seed is a class. -/
theorem hasClass_of_objectSchema (h : Entered spell registry seed .objectSchema after seeds) :
    after.hasClass seed.site.reference := by
  rcases lists_of_objectSchema h with ⟨rfl, _, hknown⟩ | ⟨_, hlists⟩
  · exact hknown
  · exact Registry.hasClass_iff_lists.2 ⟨_, (hlists _).2 (Or.inr rfl), rfl⟩

/-- Where a rule has taken its turn at a seed, another turn fails neither, adds no class, and gives no
other seeds. -/
theorem enter_again (h : rule.enter spell registry seed = .ok (after, seeds))
    (hlater : after.Enlarged later) :
    ∃ again inner, rule.enter spell later seed = .ok (again, inner) ∧ later.Enlarged again ∧
      again.holdings = later.holdings ∧ inner ⊆ seeds := by
  have hentered := entered_of_enter h
  cases rule with
  | documentRoot =>
    have hseeds : seeds = schemaSeeds seed.site := by
      cases hentered with
      | noPaths => rfl
      | operations => rfl
    have hagain : ∃ again, enter spell later seed .documentRoot = .ok (again, schemaSeeds seed.site) := by
      simp only [enter, enterRoot] at h ⊢
      by_cases hpaths : (seed.site.node.entriesAt? "paths").isNone
      · exact ⟨later, if_pos hpaths⟩
      · rw [if_neg hpaths] at h ⊢
        have hschema : (registry.schemaOf? seed.site.reference).isSome := by
          cases hnone : registry.schemaOf? seed.site.reference with
          | none => rw [hnone] at h; cases h
          | some schema => rfl
        obtain ⟨schema, hsome⟩ := Option.isSome_iff_exists.1
          (((enlarged_of_entered hentered).trans hlater).schemaOf?_isSome hschema)
        rw [hsome]
        exact ⟨_, rfl⟩
    obtain ⟨again, hagain⟩ := hagain
    have hentered' := entered_of_enter hagain
    exact ⟨again, _, hagain, enlarged_of_entered hentered', holdings_of_documentRoot hentered',
      fun inner hinner => hseeds ▸ hinner⟩
  | objectSchema =>
    have hknown := hlater.hasClass (hasClass_of_objectSchema hentered)
    refine ⟨later, [], ?_, .refl later, rfl, List.nil_subset seeds⟩
    simp only [enter, enterSchema, hknown, if_true]

end ClassRule

/-! ## The whole search -/

namespace Discovery

/-- A search that ran into no error and added no class. -/
structure Repeats (registry : Registry) (reached : Discovery) : Prop where
  ok : reached.failure = none
  enlarged : registry.Enlarged reached.registry
  holdings : reached.registry.holdings = registry.holdings

/-- However the registry is enlarged, the search runs into no error and adds no class. -/
def Settled (search : Registry → Discovery) (registry : Registry) : Prop :=
  ∀ later, registry.Enlarged later → Repeats later (search later)

theorem Settled.of_enlarged {search : Registry → Discovery} {before after : Registry}
    (hlarger : before.Enlarged after) (h : Settled search before) : Settled search after :=
  fun later hlater => h later (hlarger.trans hlater)

/-- Steps that are settled one by one are settled together. -/
theorem settled_each {α : Type} {step : Registry → α → Discovery} {xs : List α}
    {registry : Registry} (h : ∀ x ∈ xs, Settled (step · x) registry) :
    Settled (each step · xs) registry := by
  induction xs with
  | nil => exact fun later _ => ⟨rfl, .refl later, rfl⟩
  | cons x xs ih =>
    intro later hlater
    have hfirst := h x List.mem_cons_self later hlater
    have hrest := ih (fun y hy => h y (List.mem_cons_of_mem x hy)) _ (hlater.trans hfirst.enlarged)
    show Repeats later (each step later (x :: xs))
    simp only [each, hfirst.ok]
    exact ⟨hrest.ok, hfirst.enlarged.trans hrest.enlarged, hrest.holdings.trans hfirst.holdings⟩

end Discovery

open Discovery in
/-- One rule's turn that ends without an error is settled, if the searches of the seeds that it gives are. -/
theorem ClassRule.settled_discover {rules : List ClassRule} {rule : ClassRule} {registry : Registry}
    {seed : Seed}
    (hinner : ∀ inner : Seed, sizeOf inner.site.node < sizeOf seed.site.node → ∀ registry,
      (ApiModel.discover spell rules registry inner).failure = none →
        registry.Enlarged (ApiModel.discover spell rules registry inner).registry ∧
          Settled (ApiModel.discover spell rules · inner)
            (ApiModel.discover spell rules registry inner).registry)
    (hok : (rule.discover spell rules registry seed).failure = none) :
    registry.Enlarged (rule.discover spell rules registry seed).registry ∧
      Settled (rule.discover spell rules · seed) (rule.discover spell rules registry seed).registry := by
  cases henter : rule.enter spell registry seed with
  | error error =>
    rw [ClassRule.discover, henter] at hok
    cases hok
  | ok result =>
    obtain ⟨after, seeds⟩ := result
    rw [discover_of_enter rules henter] at hok ⊢
    obtain ⟨hlarger, hseeds⟩ := each_settles
      (P := fun inner => Settled (ApiModel.discover spell rules · inner))
      Registry.Enlarged.refl (fun _ _ _ => Registry.Enlarged.trans)
      (fun inner hmem registry hok => hinner inner (sizeOf_enter_lt henter hmem) registry hok)
      (fun _ _ _ => Settled.of_enlarged) hok
    refine ⟨(enlarged_of_entered (entered_of_enter henter)).trans hlarger, fun later hlater => ?_⟩
    obtain ⟨again, inner, hagain, henlarged, hholdings, hsubset⟩ :=
      enter_again henter (hlarger.trans hlater)
    -- the seeds of the second turn are among those that are settled
    have hrest := settled_each (fun seed hseed => hseeds seed (hsubset hseed)) again
      (hlater.trans henlarged)
    dsimp only
    rw [discover_of_enter rules hagain]
    exact ⟨hrest.ok, henlarged.trans hrest.enlarged, hrest.holdings.trans hholdings⟩

/-- A search that ends without an error is settled. -/
theorem settled_discover {rules : List ClassRule} {registry : Registry} {seed : Seed}
    (hok : (discover spell rules registry seed).failure = none) :
    registry.Enlarged (discover spell rules registry seed).registry ∧
      Discovery.Settled (discover spell rules · seed) (discover spell rules registry seed).registry := by
  -- by induction on the size of the node: all seeds that a rule gives hold smaller ones
  induction hsize : sizeOf seed.site.node using Nat.strongRecOn generalizing registry seed with
  | ind size ih =>
    subst hsize
    simp only [discover_eq rules _ seed] at hok ⊢
    obtain ⟨hlarger, hturns⟩ := Discovery.each_settles
      (P := fun rule => Discovery.Settled (rule.discover spell rules · seed))
      Registry.Enlarged.refl (fun _ _ _ => Registry.Enlarged.trans)
      (fun rule _ registry hok => ClassRule.settled_discover
        (fun inner hlt registry hok => ih _ hlt hok rfl) hok)
      (fun _ _ _ => Discovery.Settled.of_enlarged) hok
    exact ⟨hlarger, Discovery.settled_each hturns⟩

/-- A search enlarges the registry, also when it ends with an error. -/
theorem enlarged_discover (rules : List ClassRule) (registry : Registry) (seed : Seed) :
    registry.Enlarged (discover spell rules registry seed).registry :=
  discover_preserves (S := fun _ => True)
    (fun _ _ _ _ _ _ hlarger _ hentered =>
      ⟨hlarger.trans (ClassRule.enlarged_of_entered hentered), fun _ _ => trivial⟩)
    (.refl registry) trivial

/-- A search keeps all schemas of the registry in their places. All classes that a schema held are still its
first ones, unchanged and in their order, and the classes behind them are under references that no class had.
If the search ends without an error, then another one for the same seed does so too, and after it every schema
holds the same classes as before it. -/
theorem Rules.discover_twice (rules : Rules) (registry : Registry) (seed : Seed) :
    registry.Enlarged (rules.discover registry seed).registry ∧
      ((rules.discover registry seed).failure = none →
        (rules.discover (rules.discover registry seed).registry seed).failure = none ∧
          (rules.discover (rules.discover registry seed).registry seed).registry.holdings =
            (rules.discover registry seed).registry.holdings) := by
  refine ⟨enlarged_discover rules.classes registry seed, fun hok => ?_⟩
  have hagain := (settled_discover hok).2 _ (.refl _)
  exact ⟨hagain.ok, hagain.holdings⟩

/-! ## A kitchen -/

namespace Kitchen

/-- A root with paths that is an object schema as well. -/
def plan : Document :=
  .map [
    ("openapi", .string "3.0.0"),
    ("paths", .map [("/meals", .map [("get", .map [])])]),
    ("properties", .map [
      ("oven", .map [("properties", .map [("tray", .map [("properties", .map [])])])]),
      ("sink", .map [("items", .map [("properties", .map [])])])])]

/-- The plan under its root. -/
def seed : Seed := ⟨"Kitchen", plan, "kitchen#"⟩

/-- Two schemas. The one of another document holds the class of the oven. -/
def start : Registry where
  schemas := [
    { origin := "stock", rootName := "Stock",
      classes := [{ reference := "kitchen#/properties/oven", name := "Stove", node := .null }] },
    { origin := "kitchen", rootName := "Kitchen" }]

end Kitchen

open Kitchen in
/-- The oven stays the class that it was, so nothing in it becomes a class, neither in the first search nor in
the second one. -/
theorem Rules.discover_twice_kitchen :
    let once := (Rules.standard Text.transliterate "DateTime" {}).discover start seed
    let again := (Rules.standard Text.transliterate "DateTime" {}).discover once.registry seed
    once.failure = none ∧
      once.registry.holdings.map (·.map fun c => (c.reference, c.name)) =
        [[("kitchen#/properties/oven", "Stove")],
          [("kitchen#", "Kitchen"), ("kitchen#/properties/sink/items", "KitchenSinkItem")]] ∧
      start.Enlarged once.registry ∧ again.failure = none ∧
        again.registry.holdings = once.registry.holdings := by
  have hok : ((Rules.standard Text.transliterate "DateTime" {}).discover start seed).failure = none := by
    decide +kernel
  obtain ⟨hlarger, hagain⟩ := discover_twice (Rules.standard Text.transliterate "DateTime" {}) start seed
  obtain ⟨hokAgain, hholdings⟩ := hagain hok
  exact ⟨hok, by decide +kernel, hlarger, hokAgain, hholdings⟩

end ApiModel
