import ApiModel.Class.Discovery
import ApiModel.Proofs.Registry.Placement

/-!
# What a search for classes keeps

A search is a walk over seeds in which every rule may change the registry. What one rule does at one
seed is said once (`ClassRule.Entered`), and what every such step keeps the whole search keeps, for one
registry (`discover_preserves`) and for two side by side (`discover_related`).
-/

namespace ApiModel

/-! ## One rule at one seed -/

/-- What a rule may do with a registry at a seed, and the seeds it gives. -/
inductive ClassRule.Entered (spell : Text.Spelling) (registry : Registry) (seed : Seed) :
    ClassRule → Registry → List Seed → Prop where
  /-- A root without paths has no operations to record. -/
  | noPaths : Entered spell registry seed .documentRoot registry (schemaSeeds seed.site)
  /-- The operations of a root are recorded in the schema of its document. -/
  | operations {schema : Schema} : registry.schemaOf? seed.site.reference = some schema →
    Entered spell registry seed .documentRoot
      (registry.modifySchema seed.site.origin fun schema =>
        { schema with operations := schema.operations ++ operationsOf seed.site })
      (schemaSeeds seed.site)
  /-- A class that is known already stays as it is, and nothing below it is looked at. -/
  | known : registry.hasClass seed.site.reference → Entered spell registry seed .objectSchema registry []
  /-- A class that is new is added to the schema of its document. -/
  | added {schema : Schema} : registry.schemaOf? seed.site.reference = some schema →
    ¬ registry.hasClass seed.site.reference →
    Entered spell registry seed .objectSchema
      (registry.modifySchema seed.site.origin
        (·.addClass (classOf (Identifier.ofClass spell seed.name) seed.site)))
      (nestedSeeds spell (Identifier.ofClass spell seed.name) seed.site)

variable {spell : Text.Spelling}

namespace ClassRule

theorem foldl_addOperation (operations : List Operation) (schema : Schema) :
    operations.foldl Schema.addOperation schema =
      { schema with operations := schema.operations ++ operations } := by
  induction operations generalizing schema with
  | nil => rw [List.append_nil]; rfl
  | cons operation rest ih =>
    rw [List.foldl_cons, ih, Schema.addOperation, List.append_assoc]
    rfl

theorem entered_of_enter {rule : ClassRule} {registry after : Registry} {seed : Seed}
    {seeds : List Seed} (h : rule.enter spell registry seed = .ok (after, seeds)) :
    Entered spell registry seed rule after seeds := by
  cases rule with
  | documentRoot =>
    simp only [enter, enterRoot] at h
    split at h
    · cases h; exact .noPaths
    · split at h
      · cases h
      · next schema hschema =>
        cases h
        have horigin : schema.origin = seed.site.origin := (Registry.mem_of_schema? hschema).2
        simp only [foldl_addOperation, horigin]
        exact .operations hschema
  | objectSchema =>
    simp only [enter, enterSchema] at h
    split at h
    · next hknown => cases h; exact .known hknown
    · next hnew =>
      split at h
      · cases h
      · next schema hschema =>
        cases h
        have horigin : schema.origin = seed.site.origin := (Registry.mem_of_schema? hschema).2
        rw [horigin]
        exact .added hschema hnew

/-- A rule fails only where the document of the seed has no schema. -/
theorem noSchema_of_enter {rule : ClassRule} {registry : Registry} {seed : Seed} {error : Error}
    (h : rule.enter spell registry seed = .error error) :
    error = .noSchema seed.site.reference ∧ registry.schemaOf? seed.site.reference = none := by
  cases rule with
  | documentRoot =>
    simp only [enter, enterRoot] at h
    split at h
    · cases h
    · split at h
      · next hnone => cases h; exact ⟨rfl, hnone⟩
      · cases h
  | objectSchema =>
    simp only [enter, enterSchema] at h
    split at h
    · cases h
    · split at h
      · next hnone => cases h; exact ⟨rfl, hnone⟩
      · cases h

end ClassRule

/-! ## The whole search -/

namespace Discovery

/-- Two searches came equally far: their registries are related and they failed alike. -/
def Related (R : Registry → Registry → Prop) (a b : Discovery) : Prop :=
  R a.registry b.registry ∧ a.failure = b.failure

theorem each_attach {α : Type} (step : Registry → α → Discovery) (registry : Registry)
    (xs : List α) : each (fun registry x => step registry x.1) registry xs.attach =
      each step registry xs := by
  have hmap : ∀ (ys : List { x // x ∈ xs }) (registry : Registry),
      each (fun registry x => step registry x.1) registry ys =
        each step registry (ys.map Subtype.val) := by
    intro ys
    induction ys with
    | nil => exact fun _ => rfl
    | cons y ys ih =>
      intro registry
      rw [List.map_cons, each, each]
      simp only [ih]
  rw [hmap, List.attach_map_subtype_val]

theorem each_related {α : Type} {R : Registry → Registry → Prop}
    {step step' : Registry → α → Discovery} {xs : List α}
    (hstep : ∀ x ∈ xs, ∀ a b, R a b → Related R (step a x) (step' b x)) {a b : Registry}
    (h : R a b) : Related R (each step a xs) (each step' b xs) := by
  induction xs generalizing a b with
  | nil => exact ⟨h, rfl⟩
  | cons x xs ih =>
    obtain ⟨hreg, hfail⟩ := hstep x List.mem_cons_self a b h
    rw [each, each, ← hfail]
    -- both go on from here, or both stop
    by_cases hnone : (step a x).failure.isNone
    · simp only [hnone, if_true]
      exact ih (fun y hy => hstep y (List.mem_cons_of_mem _ hy)) hreg
    · simp only [hnone]
      exact ⟨hreg, hfail⟩

/-- What every step keeps a search keeps, and it fails only as one of them does. -/
theorem each_keeps {α : Type} {P : Registry → Prop} {Q : Error → Prop}
    {step : Registry → α → Discovery} {xs : List α}
    (hstep : ∀ x ∈ xs, ∀ registry, P registry → P (step registry x).registry ∧
      ∀ error, (step registry x).failure = some error → Q error)
    {registry : Registry} (h : P registry) :
    P (each step registry xs).registry ∧
      ∀ error, (each step registry xs).failure = some error → Q error := by
  induction xs generalizing registry with
  | nil => exact ⟨h, fun error herror => nomatch herror⟩
  | cons x xs ih =>
    have hfirst := hstep x List.mem_cons_self registry h
    rw [each]
    by_cases hnone : (step registry x).failure.isNone
    · simp only [hnone, if_true]
      exact ih (fun y hy => hstep y (List.mem_cons_of_mem _ hy)) hfirst.1
    · simp only [hnone]
      exact hfirst

/-- Steps that each take the registry further, and establish something that stays so, together take it
further and establish it for all their elements. -/
theorem each_settles {α : Type} {R : Registry → Registry → Prop} {P : α → Registry → Prop}
    (hrefl : ∀ registry, R registry registry)
    (htrans : ∀ before between after, R before between → R between after → R before after)
    {step : Registry → α → Discovery} {xs : List α}
    (hstep : ∀ x ∈ xs, ∀ registry, (step registry x).failure = none →
      R registry (step registry x).registry ∧ P x (step registry x).registry)
    (hkeep : ∀ x before after, R before after → P x before → P x after)
    {registry : Registry} (hok : (each step registry xs).failure = none) :
    R registry (each step registry xs).registry ∧ ∀ x ∈ xs, P x (each step registry xs).registry := by
  induction xs generalizing registry with
  | nil => exact ⟨hrefl registry, fun x hx => absurd hx List.not_mem_nil⟩
  | cons x xs ih =>
    rw [each] at hok ⊢
    cases hfailure : (step registry x).failure with
    | some error =>
      -- the search would have stopped here
      rw [hfailure] at hok
      exact absurd hok (by simp [hfailure])
    | none =>
      rw [hfailure] at hok
      obtain ⟨hfirst, hx⟩ := hstep x List.mem_cons_self registry hfailure
      obtain ⟨hrest, hxs⟩ := ih (fun y hy => hstep y (List.mem_cons_of_mem _ hy)) hok
      refine ⟨htrans _ _ _ hfirst hrest, fun y hy => ?_⟩
      rcases List.mem_cons.1 hy with rfl | hy
      · exact hkeep y _ _ hrest hx
      · exact hxs y hy

end Discovery

/-- A search lets every rule that supports the node take its turn. -/
theorem discover_eq (rules : List ClassRule) (registry : Registry) (seed : Seed) :
    discover spell rules registry seed =
      Discovery.each (fun registry rule => rule.discover spell rules registry seed) registry
        (rules.filter (·.supports seed.site.node)) := by
  rw [discover]
  congr 1
  funext registry rule
  unfold ClassRule.discover
  split
  · next herror => rw [herror]
  · next hok =>
    rw [hok]
    exact Discovery.each_attach _ _ _

/-- What a rule finds at a seed is searched from what it leaves. -/
theorem ClassRule.discover_of_enter {rule : ClassRule} {registry after : Registry} {seed : Seed}
    {seeds : List Seed} (rules : List ClassRule) (h : rule.enter spell registry seed = .ok (after, seeds)) :
    rule.discover spell rules registry seed = Discovery.each (ApiModel.discover spell rules) after seeds := by
  rw [ClassRule.discover, h]

/-- One rule does the same to two registries: both turns fail with the same error, or both give the
same seeds and leave related registries. -/
def ClassRule.EnterRelated (spell : Text.Spelling) (R : Registry → Registry → Prop) (S : Seed → Prop)
    (rule : ClassRule) (a b : Registry) (seed : Seed) : Prop :=
  (∃ error, rule.enter spell a seed = .error error ∧ rule.enter spell b seed = .error error) ∨
    ∃ a' b' seeds, rule.enter spell a seed = .ok (a', seeds) ∧
      rule.enter spell b seed = .ok (b', seeds) ∧ R a' b' ∧ ∀ inner ∈ seeds, S inner

/-- Searches in two registries come equally far if every rule does the same to both. -/
theorem discover_related {R : Registry → Registry → Prop} {S : Seed → Prop}
    {rules : List ClassRule}
    (henter : ∀ (rule : ClassRule) a b seed, rule.supports seed.site.node → R a b → S seed →
      rule.EnterRelated spell R S a b seed)
    {a b : Registry} {seed : Seed} (h : R a b) (hseed : S seed) :
    Discovery.Related R (discover spell rules a seed) (discover spell rules b seed) := by
  -- by induction on the size of the node, for all seeds with smaller nodes at once
  induction hsize : sizeOf seed.site.node using Nat.strongRecOn generalizing a b seed with
  | ind size ih =>
    subst hsize
    rw [discover_eq, discover_eq]
    refine Discovery.each_related (fun rule hrule a b h => ?_) h
    unfold ClassRule.discover
    have hsupports : rule.supports seed.site.node := (List.mem_filter.1 hrule).2
    rcases henter rule a b seed hsupports h hseed with
      ⟨error, ha, hb⟩ | ⟨a', b', seeds, ha, hb, h', hseeds⟩
    · rw [ha, hb]
      exact ⟨h, rfl⟩
    · rw [ha, hb]
      refine Discovery.each_related (fun inner hinner a b h => ?_) h'
      exact ih _ (sizeOf_enter_lt ha hinner) h (hseeds inner hinner) rfl

/-- What every rule keeps at every seed, a search keeps, and it fails only as one of the rules does. -/
theorem discover_keeps {P : Registry → Prop} {S : Seed → Prop} {Q : Error → Prop}
    {rules : List ClassRule}
    (henter : ∀ (rule : ClassRule) registry seed, rule.supports seed.site.node →
      P registry → S seed →
        (∀ error, rule.enter spell registry seed = .error error → Q error) ∧
          ∀ after seeds, ClassRule.Entered spell registry seed rule after seeds →
            P after ∧ ∀ inner ∈ seeds, S inner)
    {registry : Registry} {seed : Seed} (h : P registry) (hseed : S seed) :
    P (discover spell rules registry seed).registry ∧
      ∀ error, (discover spell rules registry seed).failure = some error → Q error := by
  -- by induction on the size of the node, for all seeds with smaller nodes at once
  induction hsize : sizeOf seed.site.node using Nat.strongRecOn generalizing registry seed with
  | ind size ih =>
    subst hsize
    rw [discover_eq]
    refine Discovery.each_keeps (fun rule hrule registry h => ?_) h
    obtain ⟨hfails, hkeeps⟩ := henter rule registry seed (List.mem_filter.1 hrule).2 h hseed
    unfold ClassRule.discover
    cases hresult : rule.enter spell registry seed with
    | error error => exact ⟨h, fun other hother => Option.some.inj hother ▸ hfails error hresult⟩
    | ok result =>
      obtain ⟨after, seeds⟩ := result
      obtain ⟨hafter, hseeds⟩ := hkeeps after seeds (ClassRule.entered_of_enter hresult)
      refine Discovery.each_keeps (fun inner hinner registry h => ?_) hafter
      exact ih _ (sizeOf_enter_lt hresult hinner) h (hseeds inner hinner) rfl

/-- What every rule keeps at every seed, a search keeps. -/
theorem discover_preserves {P : Registry → Prop} {S : Seed → Prop} {rules : List ClassRule}
    (henter : ∀ (rule : ClassRule) registry after seed seeds, rule.supports seed.site.node →
      P registry → S seed → ClassRule.Entered spell registry seed rule after seeds →
        P after ∧ ∀ inner ∈ seeds, S inner)
    {registry : Registry} {seed : Seed} (h : P registry) (hseed : S seed) :
    P (discover spell rules registry seed).registry := by
  refine (discover_keeps (Q := fun _ => True) (fun rule registry seed hsupports h hseed => ?_)
    h hseed).1
  exact ⟨fun _ _ => trivial, fun after seeds hentered =>
    henter rule registry after seed seeds hsupports h hseed hentered⟩

end ApiModel
