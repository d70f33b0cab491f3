import ApiModel.Proofs.Registry.Evaluation
import ApiModel.Proofs.Registry.Separation
import ApiModel.Proofs.Registry.Whitelist
import ApiModel.Text.Transliteration

/-!
# The order of the documents

Two registries are rearranged if they hold the same schemas in another order. Nothing that is looked up in
a placed registry depends on that order, and every pass of a build keeps registries rearranged: documents
are read by themselves, members are read from what no pass changes, children hear of their unions from
one schema each, and marking visits the same references. So builds from two orders of the same
origins end alike.
-/

namespace ApiModel

/-- No class is listed as a child by unions of two documents. -/
def Registry.LoneUnions (registry : Registry) : Prop :=
  ∀ schema ∈ registry.schemas, ∀ other ∈ registry.schemas, ∀ union ∈ schema.classes,
    ∀ rival ∈ other.classes, ∀ child ∈ union.children, child ∈ rival.children →
      registry.hasClass child → schema.origin = other.origin

instance (registry : Registry) : Decidable registry.LoneUnions :=
  inferInstanceAs (Decidable (∀ schema ∈ registry.schemas, ∀ other ∈ registry.schemas,
    ∀ union ∈ schema.classes, ∀ rival ∈ other.classes, ∀ child ∈ union.children,
      child ∈ rival.children → registry.hasClass child → schema.origin = other.origin))

/-- Two placed registries with the same schemas, in any order. -/
structure Registry.Rearranged (a b : Registry) : Prop where
  left : a.Placed
  schemas : a.schemas.Perm b.schemas
  whitelist : a.whitelist = b.whitelist

/-- A concatenation does not depend on the order of its parts if at most one of them holds anything. -/
theorem flatMap_eq_of_perm {α β : Type} {f : α → List β} {xs ys : List α}
    (hperm : xs.Perm ys) (hlone : ∀ x ∈ xs, ∀ y ∈ xs, f x ≠ [] → f y ≠ [] → x = y) :
    xs.flatMap f = ys.flatMap f := by
  induction hperm with
  | nil => rfl
  | cons x _ ih =>
    rw [List.flatMap_cons, List.flatMap_cons, ih fun y hy z hz =>
      hlone y (List.mem_cons_of_mem _ hy) z (List.mem_cons_of_mem _ hz)]
  | swap x y rest =>
    have hboth := hlone x (List.mem_cons_of_mem _ List.mem_cons_self) y List.mem_cons_self
    rw [List.flatMap_cons, List.flatMap_cons, List.flatMap_cons, List.flatMap_cons,
      ← List.append_assoc, ← List.append_assoc]
    by_cases hx : f x = []
    · rw [hx, List.append_nil, List.nil_append]
    · by_cases hy : f y = []
      · rw [hy, List.append_nil, List.nil_append]
      · rw [hboth hx hy]
  | trans hfirst _ ihfirst ihsecond =>
    rw [ihfirst hlone, ihsecond fun y hy z hz =>
      hlone y (hfirst.mem_iff.2 hy) z (hfirst.mem_iff.2 hz)]

namespace Registry.Rearranged

variable {a b : Registry} (h : a.Rearranged b)
include h

theorem right : b.Placed := by
  refine ⟨(h.schemas.map Schema.origin).nodup_iff.1 h.left.nodup, fun schema hschema => ?_⟩
  exact h.left.housed schema (h.schemas.mem_iff.2 hschema)

theorem symm : b.Rearranged a := ⟨h.right, h.schemas.symm, h.whitelist.symm⟩

/-! ## Looking things up -/

theorem schema?_eq (origin : String) : a.schema? origin = b.schema? origin := by
  apply Option.ext
  intro schema
  rw [h.left.schema?_eq_some_iff, h.right.schema?_eq_some_iff, h.schemas.mem_iff]

theorem schemaOf?_eq (reference : String) : a.schemaOf? reference = b.schemaOf? reference :=
  h.schema?_eq _

theorem class?_eq (reference : String) : a.class? reference = b.class? reference := by
  rw [h.left.class?, h.right.class?, h.schemaOf?_eq]

theorem relations?_eq (reference : String) : a.relations? reference = b.relations? reference := by
  rw [relations?, relations?, h.left.owner?, h.right.owner?, h.schemaOf?_eq]

theorem node?_eq (reference : String) : a.node? reference = b.node? reference := by
  rw [node?, node?, h.schemaOf?_eq]

theorem hasClass_eq : a.hasClass = b.hasClass := by
  funext reference
  rw [hasClass, hasClass, h.class?_eq]

theorem mem_targets_iff (reference : String) : reference ∈ a.targets ↔ reference ∈ b.targets :=
  (h.schemas.flatMap_right _).mem_iff

theorem alike : a.Alike b where
  name reference := by rw [h.class?_eq]
  node := h.node?_eq
  target := h.mem_targets_iff

/-! ## Reading and resolving -/

/-- A pass that changes every schema by itself keeps registries rearranged. -/
theorem mapM {f : Schema → Except Error Schema} {after : Registry}
    (hpass : (a.schemas.mapM f).map (fun schemas => { a with schemas }) = .ok after)
    (hplaced : after.Placed) :
    ∃ after', (b.schemas.mapM f).map (fun schemas => { b with schemas }) = .ok after' ∧
      after.Rearranged after' := by
  obtain ⟨schemas, hschemas, rfl⟩ := Traversal.map_eq_ok.1 hpass
  obtain ⟨schemas', hschemas', hperm⟩ := Traversal.mapM_perm h.schemas hschemas
  exact ⟨_, Traversal.map_eq_ok.2 ⟨schemas', hschemas', rfl⟩, hplaced, hperm, h.whitelist⟩

theorem readDocuments {load : Loader} {rules : Rules} {read : Registry}
    (hfound : a.Found rules.spell fun _ => True)
    (hplain : ∀ schema ∈ a.schemas, '#' ∉ schema.origin.toList)
    (hread : a.readDocuments load rules = .ok read) :
    ∃ read', b.readDocuments load rules = .ok read' ∧ read.Rearranged read' := by
  have hfound' : b.Found rules.spell fun _ => True :=
    ⟨h.right, fun schema hschema => hfound.found schema (h.schemas.mem_iff.2 hschema)⟩
  have hplaced := (hfound.readDocuments_true hread).placed
  rw [hfound.readDocuments_eq hplain] at hread
  rw [hfound'.readDocuments_eq fun schema hschema =>
    hplain schema (h.schemas.mem_iff.2 hschema)]
  exact h.mapM hread hplaced

theorem resolveClasses {rules : Rules} {resolved : Registry}
    (hresolved : a.resolveClasses rules = .ok resolved) :
    ∃ resolved', b.resolveClasses rules = .ok resolved' ∧ resolved.Rearranged resolved' := by
  have hplaced := h.left.placed_of_resolveClasses hresolved
  have hsame : Schema.resolve rules a = Schema.resolve rules b := by
    funext schema
    have hclass : (fun c : Class => c.resolve rules a) = fun c => c.resolve rules b :=
      funext fun c => h.alike.resolve rules c
    unfold Schema.resolve
    rw [hclass]
  rw [h.left.resolveClasses] at hresolved
  rw [h.right.resolveClasses, ← hsame]
  exact h.mapM hresolved hplaced

/-! ## Linking and pruning -/

/-- With lone unions, every class goes through the same links in the same order. -/
theorem filter_unionLinks (hlone : a.LoneUnions) {reference : String}
    (hclass : a.hasClass reference) :
    (a.unionLinks.filter fun link => link.2 = reference) =
      b.unionLinks.filter fun link => link.2 = reference := by
  unfold unionLinks
  rw [List.filter_flatMap, List.filter_flatMap]
  apply flatMap_eq_of_perm h.schemas
  -- a schema with a link to the child has a union that lists it
  have hunion : ∀ schema : Schema, ((schema.classes.flatMap fun c =>
      c.children.map fun child => (c.reference, child)).filter
        fun link => link.2 = reference) ≠ [] →
      ∃ union ∈ schema.classes, reference ∈ union.children := by
    intro schema hne
    obtain ⟨link, hlink⟩ := List.exists_mem_of_ne_nil _ hne
    obtain ⟨hmem, href⟩ := List.mem_filter.1 hlink
    obtain ⟨union, hunion, hchild⟩ := List.mem_flatMap.1 hmem
    obtain ⟨child, hlisted, rfl⟩ := List.mem_map.1 hchild
    have hsame : child = reference := by simpa using href
    exact ⟨union, hunion, hsame ▸ hlisted⟩
  intro schema hschema other hother hne hne'
  obtain ⟨union, hunion₁, hchild⟩ := hunion schema hne
  obtain ⟨rival, hrival, hchild'⟩ := hunion other hne'
  have horigin := hlone schema hschema other hother union hunion₁ rival hrival reference hchild
    hchild' hclass
  have hfound := h.left.schema?_origin hschema
  rw [horigin, h.left.schema?_origin hother] at hfound
  exact (Option.some.inj hfound).symm

theorem linkUnions (hlone : a.LoneUnions) : a.linkUnions.Rearranged b.linkUnions := by
  -- only the links that name a class count for it, and those stand in one order
  have hadopt : ∀ schema ∈ b.schemas, ∀ c ∈ schema.classes,
      b.unionLinks.foldl Class.adopt c = a.unionLinks.foldl Class.adopt c := by
    intro schema hschema c hc
    have hclass : a.hasClass c.reference :=
      hasClass_iff.2 ⟨schema, h.schemas.mem_iff.2 hschema, c, hc, rfl⟩
    rw [← c.foldl_adopt_filter, ← h.filter_unionLinks hlone hclass, c.foldl_adopt_filter]
  refine ⟨h.left.placed_linkUnions, ?_, ?_⟩
  · rw [h.left.linkUnions, h.right.linkUnions]
    have hsame : (b.schemas.map fun schema =>
        { schema with classes := schema.classes.map fun c => b.unionLinks.foldl Class.adopt c }) =
        b.schemas.map fun schema =>
          { schema with classes := schema.classes.map fun c => a.unionLinks.foldl Class.adopt c } :=
      List.map_congr_left fun schema hschema => by
        rw [List.map_congr_left (hadopt schema hschema)]
    show (a.schemas.map _).Perm (b.schemas.map _)
    rw [hsame]
    exact h.schemas.map _
  · rw [h.left.linkUnions, h.right.linkUnions]
    exact h.whitelist

theorem successors_eq : a.successors = b.successors := by
  funext reference
  unfold successors
  rw [h.class?_eq, h.relations?_eq, h.node?_eq]

theorem mem_linked_iff (reference : String) : reference ∈ a.linked ↔ reference ∈ b.linked := by
  unfold linked
  rw [List.mem_append, List.mem_append, h.mem_targets_iff]
  exact or_congr_right (h.schemas.flatMap_right _).mem_iff

theorem marked_eq (schema : Schema) : a.marked schema = b.marked schema := by
  have hentry : a.entryPoints schema = b.entryPoints schema := by
    unfold entryPoints
    rw [h.whitelist]
  unfold marked
  rw [hentry, h.hasClass_eq, h.successors_eq]
  dsimp only
  congr 1
  refine visit_eq_of_closed (P := fun _ => True) (fun _ _ => ⟨rfl, fun _ _ => trivial⟩)
    (fun _ _ => trivial) fun reference _ => ?_
  rw [List.mem_append, List.mem_append, h.mem_linked_iff]

theorem mem_keptClasses_iff (reference : String) :
    reference ∈ a.keptClasses ↔ reference ∈ b.keptClasses := by
  have hmarked : a.marked = b.marked := funext h.marked_eq
  unfold keptClasses
  rw [hmarked]
  exact (h.schemas.flatMap_right _).mem_iff

theorem prune : a.prune.Rearranged b.prune := by
  refine ⟨h.left.prune, ?_, ?_⟩
  · unfold Registry.prune
    rw [h.whitelist]
    split
    · exact h.schemas
    · simp only [h.marked_eq, h.mem_keptClasses_iff]
      exact h.schemas.map _
  · unfold Registry.prune
    rw [h.whitelist]
    split
    · exact h.whitelist
    · rfl

end Registry.Rearranged

namespace Registry

/-! ## Builds -/

/-- The members that classes get say nothing of unions. -/
theorem LoneUnions.of_resolveClasses {read resolved : Registry} (h : read.LoneUnions)
    (hplaced : read.Placed) {rules : Rules}
    (hresolved : read.resolveClasses rules = .ok resolved) : resolved.LoneUnions := by
  have hbefore : ∀ schema ∈ resolved.schemas, ∃ before ∈ read.schemas,
      before.origin = schema.origin ∧ ∀ c ∈ schema.classes, ∃ unresolved ∈ before.classes,
        unresolved.children = c.children := by
    intro schema hschema
    obtain ⟨before, hmem, hstep⟩ := hplaced.schema_of_resolveClasses hresolved hschema
    refine ⟨before, hmem, ?_, fun c hc => ?_⟩
    · show before.outline.origin = schema.outline.origin
      rw [Schema.outline_of_resolve hstep]
    · obtain ⟨unresolved, hunresolved, hresolve⟩ := class_of_resolve hstep hc
      refine ⟨unresolved, hunresolved, ?_⟩
      show unresolved.outline.children = c.outline.children
      rw [Class.outline_of_resolve hresolve]
  have halike := alike_of_outline_eq (hplaced.outline_of_resolveClasses hresolved)
  intro schema hschema other hother union hunion rival hrival child hchild hchild' hclass
  obtain ⟨before, hmem, horigin, hclasses⟩ := hbefore schema hschema
  obtain ⟨before', hmem', horigin', hclasses'⟩ := hbefore other hother
  obtain ⟨unresolved, hunresolved, heq⟩ := hclasses union hunion
  obtain ⟨unresolved', hunresolved', heq'⟩ := hclasses' rival hrival
  rw [← horigin, ← horigin']
  exact h before hmem before' hmem' unresolved hunresolved unresolved' hunresolved' child
    (heq ▸ hchild) (heq' ▸ hchild') (halike.hasClass child ▸ hclass)

theorem Rearranged.loneUnions {a b : Registry} (h : a.Rearranged b) (hlone : a.LoneUnions) :
    b.LoneUnions := by
  unfold LoneUnions at hlone ⊢
  rw [← h.hasClass_eq]
  exact fun schema hschema other hother =>
    hlone schema (h.schemas.mem_iff.2 hschema) other (h.schemas.mem_iff.2 hother)

/-- A build of a rearranged registry succeeds too, with a rearranged result. -/
theorem Rearranged.build {a b : Registry} (h : a.Rearranged b) {load : Loader} {rules : Rules}
    (hfound : a.Found rules.spell fun _ => True)
    (hplain : ∀ schema ∈ a.schemas, '#' ∉ schema.origin.toList)
    (hlone : ∀ read, a.readDocuments load rules = .ok read → read.LoneUnions) {built : Registry}
    (hbuilt : a.build load rules = .ok built) :
    ∃ built', b.build load rules = .ok built' ∧ built.Rearranged built' := by
  obtain ⟨read, hread, hbuilt⟩ := Traversal.bind_eq_ok.1 hbuilt
  obtain ⟨resolved, hresolved, hbuilt⟩ := Traversal.bind_eq_ok.1 hbuilt
  cases hbuilt
  obtain ⟨read', hread', hreads⟩ := h.readDocuments hfound hplain hread
  obtain ⟨resolved', hresolved', hresolveds⟩ := hreads.resolveClasses hresolved
  have hlinks := (hlone read hread).of_resolveClasses hreads.left hresolved
  refine ⟨resolved'.linkUnions.prune, ?_, (hresolveds.linkUnions hlinks).prune⟩
  exact Traversal.bind_eq_ok.2 ⟨read', hread', Traversal.bind_eq_ok.2 ⟨resolved', hresolved', rfl⟩⟩

theorem rearranged_ofOrigins {origins origins' : List String} (hnodup : origins.Nodup)
    (hperm : origins.Perm origins') (rootName : String) (paths : List String) :
    ((ofOrigins origins rootName).setWhitelist paths).Rearranged
      ((ofOrigins origins' rootName).setWhitelist paths) := by
  refine ⟨(placed_ofOrigins origins rootName).setWhitelist paths, ?_, rfl⟩
  show (ofOrigins origins rootName).schemas.Perm (ofOrigins origins' rootName).schemas
  rw [schemas_ofOrigins hnodup, schemas_ofOrigins (hperm.nodup_iff.1 hnodup)]
  exact hperm.map _

/-- Distinct origins without `#`, no two of whose documents have unions that list one class, are built alike
in every order: one build succeeds if the other does, and every origin gets the same schema. -/
theorem build_perm {origins origins' : List String} (hnodup : origins.Nodup)
    (hplain : ∀ origin ∈ origins, '#' ∉ origin.toList) (hperm : origins.Perm origins')
    {rootName : String} {paths : List String} {load : Loader} {rules : Rules}
    (hlone : ∀ read, ((ofOrigins origins rootName).setWhitelist paths).readDocuments load rules =
      .ok read → read.LoneUnions) :
    ((∃ built, ((ofOrigins origins rootName).setWhitelist paths).build load rules = .ok built) ↔
      ∃ built, ((ofOrigins origins' rootName).setWhitelist paths).build load rules = .ok built) ∧
    ∀ built built',
      ((ofOrigins origins rootName).setWhitelist paths).build load rules = .ok built →
      ((ofOrigins origins' rootName).setWhitelist paths).build load rules = .ok built' →
        ∀ origin, built.schema? origin = built'.schema? origin := by
  have hstart := rearranged_ofOrigins hnodup hperm rootName paths
  have hfound := found_ofOrigins rules.spell (fun _ => True) origins rootName paths
  have hfound' := found_ofOrigins rules.spell (fun _ => True) origins' rootName paths
  have hschemas : ∀ schema ∈ ((ofOrigins origins rootName).setWhitelist paths).schemas,
      '#' ∉ schema.origin.toList := by
    intro schema hschema
    obtain ⟨origin, horigin, rfl⟩ := mem_ofOrigins hschema
    exact hplain origin horigin
  have hschemas' : ∀ schema ∈ ((ofOrigins origins' rootName).setWhitelist paths).schemas,
      '#' ∉ schema.origin.toList :=
    fun schema hschema => hschemas schema (hstart.schemas.mem_iff.2 hschema)
  -- what the other order reads is rearranged, and so its unions are lone as well
  have hlone' : ∀ read', ((ofOrigins origins' rootName).setWhitelist paths).readDocuments load
      rules = .ok read' → read'.LoneUnions := by
    intro read' hread'
    obtain ⟨read, hread, hreads⟩ := hstart.symm.readDocuments hfound' hschemas' hread'
    exact hreads.symm.loneUnions (hlone read hread)
  refine ⟨⟨?_, ?_⟩, ?_⟩
  · rintro ⟨built, hbuilt⟩
    obtain ⟨built', hbuilt', _⟩ := hstart.build hfound hschemas hlone hbuilt
    exact ⟨built', hbuilt'⟩
  · rintro ⟨built', hbuilt'⟩
    obtain ⟨built, hbuilt, _⟩ := hstart.symm.build hfound' hschemas' hlone' hbuilt'
    exact ⟨built, hbuilt⟩
  · intro built built' hbuilt hbuilt' origin
    obtain ⟨other, hother, hsame⟩ := hstart.build hfound hschemas hlone hbuilt
    rw [hbuilt'] at hother
    cases hother
    exact hsame.schema?_eq origin

theorem build_perm_sample :
    ∃ built built' : Registry,
      ((ofOrigins ["pets", "people"] "Root").setWhitelist ["/cats/\x7bid\x7d"]).build Sample.load
          (Rules.standard Text.transliterate "DateTime" {}) = .ok built ∧
        ((ofOrigins ["people", "pets"] "Root").setWhitelist ["/cats/\x7bid\x7d"]).build Sample.load
          (Rules.standard Text.transliterate "DateTime" {}) = .ok built' ∧
        ∀ origin, built.schema? origin = built'.schema? origin := by
  have hplain : ∀ origin ∈ ["pets", "people"], '#' ∉ origin.toList := by decide
  have hlone : ∀ read, ((ofOrigins ["pets", "people"] "Root").setWhitelist
      ["/cats/\x7bid\x7d"]).readDocuments Sample.load
        (Rules.standard Text.transliterate "DateTime" {}) = .ok read → read.LoneUnions := by
    have hchecked : (((ofOrigins ["pets", "people"] "Root").setWhitelist
        ["/cats/\x7bid\x7d"]).readDocuments Sample.load
          (Rules.standard Text.transliterate "DateTime" {})).toOption.all
            (fun read => read.LoneUnions) := by decide +kernel
    intro read hread
    rw [hread] at hchecked
    exact of_decide_eq_true hchecked
  obtain ⟨built, hbuilt⟩ := Sample.exists_build
  obtain ⟨hsucceeds, hsame⟩ := build_perm (by decide) hplain (List.Perm.swap "people" "pets" [])
    hlone
  obtain ⟨built', hbuilt'⟩ := hsucceeds.1 ⟨built, hbuilt⟩
  exact ⟨built, built', hbuilt, hbuilt', hsame built built' hbuilt hbuilt'⟩

end Registry

end ApiModel
