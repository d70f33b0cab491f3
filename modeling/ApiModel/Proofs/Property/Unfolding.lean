import ApiModel.Proofs.Registry.Evaluation
import ApiModel.Proofs.Registry.Following
import ApiModel.Text.Transliteration

/-!
# Properties are found by unfolding

The bases of a node are the members of its `allOf`, where a member that is a reference stands for what
it leads to. Unfolding a node goes on to its bases, their bases and so on, and lists the properties that
each node declares before those of its bases (`Site.Unfolds`).

The properties of a node are found exactly if this comes to an end and no reference is in the way, and
then they are the first of each name in the list (`Rules.propertiesOf_exact`). So the references that are
held back on the way stop nothing but unfoldings without end, and it makes no difference that names are
sorted out at every node on the way.
-/

namespace ApiModel

namespace Site

variable {registry : Registry} {site base : Site}

/-- What a member of a node's `allOf` stands for. -/
def base? (registry : Registry) (site member : Site) : Option Site :=
  match member.target? with
  | some text => (registry.node? (site.resolve text)).map fun node => ⟨node, site.resolve text⟩
  | none => some member

/-- The bases of a node, in the order of its `allOf`. -/
def bases (registry : Registry) (site : Site) : List Site :=
  (site.items "allOf").filterMap (site.base? registry)

/-- A node is a base of another one. -/
def IsBase (registry : Registry) (base site : Site) : Prop := base ∈ site.bases registry

/-- Every reference in the `allOf` of a node leads to a node. -/
def Resolves (registry : Registry) (site : Site) : Prop :=
  ∀ member ∈ site.items "allOf", ∀ text, member.target? = some text →
    (registry.node? (site.resolve text)).isSome

/-- The properties that are declared in the unfolding of a node: its own, and then those of each base. -/
inductive Unfolds (registry : Registry) : Site → List Property → Prop where
  | node {site : Site} {listing : Site → List Property} : site.Resolves registry →
    (∀ base ∈ site.bases registry, Unfolds registry base (listing base)) →
      Unfolds registry site (declaredProperties site ++ (site.bases registry).flatMap listing)

theorem base?_of_target? {member : Site} {text : String} (h : member.target? = some text) :
    site.base? registry member =
      (registry.node? (site.resolve text)).map fun node => ⟨node, site.resolve text⟩ := by
  simp only [base?, h]

theorem base?_of_not_target? {member : Site} (h : member.target? = none) :
    site.base? registry member = some member := by
  simp only [base?, h]

/-- Where every reference leads to a node, every member stands for a node. -/
theorem resolves_iff : site.Resolves registry ↔
    ∀ member ∈ site.items "allOf", (site.base? registry member).isSome := by
  unfold Resolves
  refine forall₂_congr fun member _ => ?_
  cases htarget : member.target? with
  | none => simp [base?_of_not_target? htarget]
  | some text => simp [base?_of_target? htarget]

theorem mem_bases {member : Site} (hmember : member ∈ site.items "allOf")
    (hbase : site.base? registry member = some base) : base ∈ site.bases registry :=
  List.mem_filterMap.2 ⟨member, hmember, hbase⟩

/-! ## Unfoldings -/

/-- An unfolding has one list. -/
theorem Unfolds.eq {some other : List Property} (h : site.Unfolds registry some)
    (hother : site.Unfolds registry other) : some = other := by
  induction h generalizing other with
  | @node site listing _ _ ih =>
    cases hother with
    | @node _ others _ hothers =>
      have hsame : ∀ base ∈ site.bases registry, listing base = others base :=
        fun base hbase => ih base hbase (hothers base hbase)
      rw [List.flatMap_congr hsame]

theorem Unfolds.acc {declarations : List Property} (h : site.Unfolds registry declarations) :
    Acc (IsBase registry) site := by
  induction h with
  | node _ _ ih => exact Acc.intro _ ih

theorem Unfolds.of_base {declarations : List Property} (h : site.Unfolds registry declarations)
    (hbase : IsBase registry base site) : ∃ inherited, base.Unfolds registry inherited := by
  cases h with
  | @node _ listing _ hbases => exact ⟨listing base, hbases base hbase⟩

/-- All references in an unfolding lead to nodes. -/
theorem Unfolds.resolves {declarations : List Property} (h : site.Unfolds registry declarations)
    (hpath : Relation.ReflTransGen (IsBase registry) base site) : base.Resolves registry := by
  have hbase : ∃ inherited, base.Unfolds registry inherited := by
    induction hpath using Relation.ReflTransGen.head_induction_on with
    | refl => exact ⟨declarations, h⟩
    | head hstep _ ih =>
      obtain ⟨_, hmiddle⟩ := ih
      exact hmiddle.of_base hstep
  obtain ⟨_, hbase⟩ := hbase
  cases hbase with
  | node hresolves _ => exact hresolves

/-- Unfoldings of what the members stand for make an unfolding of the node, and what is known of each of
them is known of its list in there. -/
theorem exists_listing {P : Site → List Property → Prop}
    (h : ∀ member ∈ site.items "allOf", ∃ base, site.base? registry member = some base ∧
      ∃ inherited, base.Unfolds registry inherited ∧ P member inherited) :
    ∃ listing : Site → List Property,
      site.Unfolds registry (declaredProperties site ++ (site.bases registry).flatMap listing) ∧
        ∀ member ∈ site.items "allOf", ∃ base, site.base? registry member = some base ∧
          P member (listing base) := by
  have hresolves : site.Resolves registry := by
    rw [resolves_iff]
    intro member hmember
    obtain ⟨base, hbase, _⟩ := h member hmember
    rw [hbase]
    rfl
  have hbases : ∀ base ∈ site.bases registry, ∃ inherited, base.Unfolds registry inherited := by
    intro base hmem
    obtain ⟨member, hmember, hbase⟩ := List.mem_filterMap.1 hmem
    obtain ⟨other, hother, inherited, hunfolds, _⟩ := h member hmember
    have heq : other = base := Option.some.inj (hother.symm.trans hbase)
    exact ⟨inherited, heq ▸ hunfolds⟩
  choose! listing hlisting using hbases
  refine ⟨listing, .node hresolves hlisting, ?_⟩
  intro member hmember
  obtain ⟨base, hbase, inherited, hunfolds, hmemberP⟩ := h member hmember
  have hsame := hunfolds.eq (hlisting base (mem_bases hmember hbase))
  exact ⟨base, hbase, hsame ▸ hmemberP⟩

/-- A node has an unfolding if there is an end to its bases and no reference is in the way. -/
theorem exists_unfolds (hacc : Acc (IsBase registry) site)
    (hresolves : ∀ base, Relation.ReflTransGen (IsBase registry) base site →
      base.Resolves registry) : ∃ declarations, site.Unfolds registry declarations := by
  induction hacc with
  | intro site _ ih =>
    have hbases : ∀ base ∈ site.bases registry, ∃ inherited, base.Unfolds registry inherited := by
      intro base hbase
      apply ih base hbase
      intro inner hpath
      exact hresolves inner (hpath.tail hbase)
    choose! listing hlisting using hbases
    exact ⟨_, .node (hresolves site .refl) hlisting⟩

/-- No node with an end to its bases comes back to itself. -/
theorem not_transGen_of_acc (h : Acc (IsBase registry) site) :
    ¬ Relation.TransGen (IsBase registry) site site := by
  have hbelow := h.transGen
  clear h
  induction hbelow with
  | intro site _ ih =>
    intro hcycle
    exact ih site hcycle hcycle

end Site

/-! ## The standard rules -/

/-- Finding the properties of a node calls for those of another one. -/
inductive PropertyCalls (rules : List PropertyRule) (registry : Registry) : Walk → Walk → Prop where
  | member {followed : List String} {site inner : Site} :
    .member inner ∈ propertyParts rules site →
      PropertyCalls rules registry ⟨followed, site⟩ ⟨followed, inner⟩
  /-- A reference leads to a node, and it is not being followed already. -/
  | inherited {followed : List String} {site : Site} {text : String} {node : Document} :
    .inherited text ∈ propertyParts rules site → registry.node? (site.resolve text) = some node →
      site.resolve text ∉ followed →
        PropertyCalls rules registry ⟨followed, site⟩
          ⟨site.resolve text :: followed, ⟨node, site.resolve text⟩⟩

/-- A part that is not declared is an inline member of `allOf`, or the text of one that is a reference. -/
theorem PropertyPart.of_mem_propertyParts {rules : List PropertyRule} {site : Site}
    {part : PropertyPart} (h : part ∈ propertyParts rules site) :
    part = .declared (declaredProperties site) ∨
      ∃ member ∈ site.items "allOf", part = PropertyPart.ofMember member := by
  obtain ⟨rule, _, hpart⟩ := List.mem_flatMap.1 h
  cases rule with
  | declared => exact Or.inl (List.mem_singleton.1 hpart)
  | allOf =>
    obtain ⟨member, hmember, rfl⟩ := List.mem_map.1 hpart
    exact Or.inr ⟨member, hmember, rfl⟩

/-- The text of a part that is a reference stands in the node. -/
theorem PropertyPart.mem_refs_of_inherited {rules : List PropertyRule} {site : Site} {text : String}
    (h : .inherited text ∈ propertyParts rules site) : text ∈ site.node.refs := by
  obtain hpart | ⟨member, hmember, hpart⟩ := PropertyPart.of_mem_propertyParts h
  · cases hpart
  · unfold PropertyPart.ofMember at hpart
    split at hpart
    · next htarget =>
      cases hpart
      have hinside := Site.inside_items (by decide) hmember
      exact hinside.refs _ (Site.mem_refs_of_target? htarget)
    · cases hpart

/-- Every call is a move of a walk that follows references. -/
theorem PropertyCalls.moves {rules : List PropertyRule} {registry : Registry} {walk next : Walk}
    (h : PropertyCalls rules registry walk next) : Walk.Moves registry walk next := by
  cases h with
  | @member followed site inner hpart =>
    obtain hpart | ⟨member, hmember, hpart⟩ := PropertyPart.of_mem_propertyParts hpart
    · cases hpart
    · unfold PropertyPart.ofMember at hpart
      split at hpart
      · cases hpart
      · cases hpart
        exact Walk.Moves.inside (Site.inside_items (by decide) hmember)
  | inherited hpart hnode hnew =>
    exact Walk.Moves.follow (PropertyPart.mem_refs_of_inherited hpart) hnode hnew

namespace Rules

variable {spell : Text.Spelling} {wrapper : String} {format : DateTimeFormat} {registry : Registry}
  {followed : List String} {site : Site}

theorem propertyParts_standard :
    propertyParts (standard spell wrapper format).properties site =
      (if (site.node.entriesAt? "properties").isSome then [.declared (declaredProperties site)]
        else []) ++ (site.items "allOf").map PropertyPart.ofMember := by
  have hmembers : (if (site.node.itemsAt? "allOf").isSome then PropertyRule.parts site .allOf else []) =
      (site.items "allOf").map PropertyPart.ofMember := by
    cases hitems : site.node.itemsAt? "allOf" with
    | none => simp [Site.items, hitems]
    | some items => rfl
  rw [← hmembers]
  unfold propertyParts
  simp only [standard, List.filter_cons, List.filter_nil, PropertyRule.supports]
  split
  · split
    · simp [PropertyRule.parts]
    · simp [PropertyRule.parts]
  · split
    · simp [PropertyRule.parts]
    · simp [PropertyRule.parts]

/-- What a member of the `allOf` of a node adds to its properties. -/
def inherit (rules : Rules) (registry : Registry) (followed : List String) (site member : Site) :
    Except Error (List Property) :=
  (PropertyPart.ofMember member).properties rules.properties registry followed site

/-- With the standard rules the properties of a node are those it declares and then those of the members
of its `allOf`, the first of each name. -/
theorem propertiesAt_standard :
    propertiesAt (standard spell wrapper format).properties registry followed site =
      ((site.items "allOf").mapM ((standard spell wrapper format).inherit registry followed site)).map
        fun lists => Keyed.firsts Property.name (declaredProperties site ++ lists.flatten) := by
  rw [propertiesAt_eq, propertyParts_standard]
  have hmembers : ((site.items "allOf").map PropertyPart.ofMember).mapM
      (PropertyPart.properties (standard spell wrapper format).properties registry followed site) =
        (site.items "allOf").mapM ((standard spell wrapper format).inherit registry followed site) :=
    List.mapM_map
  cases hdeclared : site.node.entriesAt? "properties" with
  | none =>
    have hnone : declaredProperties site = [] := by simp [declaredProperties, Site.entries, hdeclared]
    rw [hnone]
    exact congrArg (Except.map _) hmembers
  | some entries =>
    rw [Option.isSome_some, if_pos rfl, List.singleton_append, List.mapM_cons, hmembers]
    cases (site.items "allOf").mapM ((standard spell wrapper format).inherit registry followed site) with
    | error error => rfl
    | ok lists => rfl

theorem inherit_of_not_target? {rules : Rules} {member : Site} (h : member.target? = none) :
    rules.inherit registry followed site member =
      propertiesAt rules.properties registry followed member := by
  simp only [inherit, PropertyPart.ofMember, h, PropertyPart.properties]

/-- On a walk from a start a base is held back only if it is being followed already. -/
theorem inherit_of_target? {rules : Rules} (hsettled : Walk.Settled registry ⟨followed, site⟩)
    {member : Site} (hmember : member ∈ site.items "allOf") {text : String} {node : Document}
    (htarget : member.target? = some text) (hnode : registry.node? (site.resolve text) = some node)
    (hnew : site.resolve text ∉ followed) :
    rules.inherit registry followed site member =
      propertiesAt rules.properties registry (site.resolve text :: followed)
        ⟨node, site.resolve text⟩ := by
  have hinside : member.Inside site := Site.inside_items (by decide) hmember
  have hgo := hsettled.follow? (hinside.refs _ (Site.mem_refs_of_target? htarget))
  simp only [if_neg hnew] at hgo
  simp only [inherit, PropertyPart.ofMember, htarget, PropertyPart.properties, inheritedFrom, hnode, hgo]

/-- What a member adds was found at its base, and a reference to it has been followed for that. -/
theorem exists_base?_of_inherit {rules : Rules} {member : Site} {list : List Property}
    (h : rules.inherit registry followed site member = .ok list) :
    ∃ base, site.base? registry member = some base ∧
      (member.target? = none ∧ base = member ∧
          propertiesAt rules.properties registry followed base = .ok list ∨
        ∃ longer, registry.follow? followed base.reference = some longer ∧
          propertiesAt rules.properties registry longer base = .ok list) := by
  cases htarget : member.target? with
  | none =>
    rw [inherit_of_not_target? htarget] at h
    exact ⟨member, Site.base?_of_not_target? htarget, Or.inl ⟨rfl, rfl, h⟩⟩
  | some text =>
    simp only [inherit, PropertyPart.ofMember, htarget, PropertyPart.properties, inheritedFrom] at h
    cases hnode : registry.node? (site.resolve text) with
    | none => rw [hnode] at h; cases h
    | some node =>
      simp only [hnode] at h
      cases hgo : registry.follow? followed (site.resolve text) with
      | none => rw [hgo] at h; cases h
      | some longer =>
        simp only [hgo] at h
        refine ⟨⟨node, site.resolve text⟩, ?_, Or.inr ⟨longer, hgo, h⟩⟩
        rw [Site.base?_of_target? htarget, hnode]
        rfl

/-! ### What is found is an unfolding -/

/-- Properties that are found are the first of each name in an unfolding. -/
theorem exists_unfolds_of_propertiesAt {properties : List Property}
    (h : propertiesAt (standard spell wrapper format).properties registry followed site = .ok properties) :
    ∃ declarations, site.Unfolds registry declarations ∧
      properties = Keyed.firsts Property.name declarations := by
  -- the recursion of `propertiesAt` itself: into inline members and along references
  induction followed, site using propertiesAt.induct (standard spell wrapper format).properties registry
    generalizing properties with
  | case1 followed site ihmember ihbase =>
    rw [propertiesAt_standard] at h
    obtain ⟨lists, hlists, rfl⟩ := Traversal.map_eq_ok.1 h
    have hmembers : ∀ member ∈ site.items "allOf", ∃ base, site.base? registry member = some base ∧
        ∃ declarations, base.Unfolds registry declarations ∧
          (standard spell wrapper format).inherit registry followed site member =
            .ok (Keyed.firsts Property.name declarations) := by
      intro member hmember
      obtain ⟨list, _, hlist⟩ := Traversal.exists_of_mapM_mem hlists hmember
      obtain ⟨base, hbase, ⟨htarget, rfl, hfound⟩ | ⟨longer, hgo, hfound⟩⟩ :=
        exists_base?_of_inherit hlist
      · have hpart : PropertyPart.member base ∈
            propertyParts (standard spell wrapper format).properties site := by
          rw [propertyParts_standard]
          refine List.mem_append_right _ (List.mem_map.2 ⟨base, hmember, ?_⟩)
          simp only [PropertyPart.ofMember, htarget]
        obtain ⟨declarations, hunfolds, rfl⟩ := ihmember _ hpart base rfl hfound
        exact ⟨base, hbase, declarations, hunfolds, hlist⟩
      · obtain ⟨declarations, hunfolds, rfl⟩ := ihbase base longer hgo hfound
        exact ⟨base, hbase, declarations, hunfolds, hlist⟩
    obtain ⟨listing, hunfolds, hinherited⟩ := Site.exists_listing hmembers
    have hall : (site.items "allOf").mapM ((standard spell wrapper format).inherit registry followed site) =
        .ok ((site.bases registry).map fun base => Keyed.firsts Property.name (listing base)) :=
      Traversal.mapM_eq_ok_of_filterMap hinherited
    have heq := Except.ok.inj (hlists.symm.trans hall)
    refine ⟨_, hunfolds, ?_⟩
    rw [heq, ← List.flatMap_def, Keyed.firsts_append_flatMap_firsts]

end Rules

/-! ### An unfolding is found -/

/-- What is being followed leads to nodes that the node of the walk is a base of, at any depth. -/
def Walk.Above (registry : Registry) (walk : Walk) : Prop :=
  ∀ reference ∈ walk.followed, ∀ node, registry.node? reference = some node →
    Relation.ReflTransGen (Site.IsBase registry) walk.site ⟨node, reference⟩

namespace Walk.Above

variable {registry : Registry} {followed : List String} {site inner : Site}

theorem base (h : Walk.Above registry ⟨followed, site⟩) (hbase : inner.IsBase registry site) :
    Walk.Above registry ⟨followed, inner⟩ := by
  intro reference hmem node hnode
  exact .head hbase (h reference hmem node hnode)

theorem follow (h : Walk.Above registry ⟨followed, inner⟩)
    (hnode : registry.node? inner.reference = some inner.node) :
    Walk.Above registry ⟨inner.reference :: followed, inner⟩ := by
  intro reference hmem node hfound
  rcases List.mem_cons.1 hmem with rfl | hmem
  · have heq : inner.node = node := Option.some.inj (hnode.symm.trans hfound)
    subst heq
    exact .refl
  · exact h reference hmem node hfound

/-- Where there is an end to the bases, no base is being followed already. -/
theorem not_mem (h : Walk.Above registry ⟨followed, site⟩) (hacc : Acc (Site.IsBase registry) site)
    (hbase : inner.IsBase registry site) (hnode : registry.node? inner.reference = some inner.node) :
    inner.reference ∉ followed := by
  intro hmem
  have hback := h _ hmem _ hnode
  have hcycle : Relation.TransGen (Site.IsBase registry) inner inner := .head' hbase hback
  exact Site.not_transGen_of_acc (hacc.inv hbase) hcycle

end Walk.Above

namespace Rules

variable {spell : Text.Spelling} {wrapper : String} {format : DateTimeFormat} {registry : Registry}
  {followed : List String} {site : Site}

/-- An unfolding of a node is found, the first property of each name. -/
theorem propertiesAt_of_unfolds {declarations : List Property}
    (h : site.Unfolds registry declarations) (hsettled : Walk.Settled registry ⟨followed, site⟩)
    (habove : Walk.Above registry ⟨followed, site⟩) :
    propertiesAt (standard spell wrapper format).properties registry followed site =
      .ok (Keyed.firsts Property.name declarations) := by
  induction h generalizing followed with
  | @node site listing hresolves hbases ih =>
    have hacc := (Site.Unfolds.node hresolves hbases).acc
    have hmembers : ∀ member ∈ site.items "allOf", ∃ base, site.base? registry member = some base ∧
        (standard spell wrapper format).inherit registry followed site member =
          .ok (Keyed.firsts Property.name (listing base)) := by
      intro member hmember
      have hinside : member.Inside site := Site.inside_items (by decide) hmember
      cases htarget : member.target? with
      | none =>
        have hfind : site.base? registry member = some member := Site.base?_of_not_target? htarget
        have hbase := Site.mem_bases hmember hfind
        refine ⟨member, hfind, ?_⟩
        rw [inherit_of_not_target? htarget]
        exact ih member hbase (hsettled.moves (.inside hinside)) (habove.base hbase)
      | some text =>
        obtain ⟨node, hnode⟩ := Option.isSome_iff_exists.1 (hresolves member hmember text htarget)
        have hfind : site.base? registry member = some ⟨node, site.resolve text⟩ := by
          rw [Site.base?_of_target? htarget, hnode]
          rfl
        have hbase := Site.mem_bases hmember hfind
        have hnew := habove.not_mem hacc hbase hnode
        have hmove := Walk.Moves.follow (hinside.refs _ (Site.mem_refs_of_target? htarget)) hnode hnew
        refine ⟨_, hfind, ?_⟩
        rw [inherit_of_target? hsettled hmember htarget hnode hnew]
        exact ih _ hbase (hsettled.moves hmove) ((habove.base hbase).follow hnode)
    have hall : (site.items "allOf").mapM ((standard spell wrapper format).inherit registry followed site) =
        .ok ((site.bases registry).map fun base => Keyed.firsts Property.name (listing base)) :=
      Traversal.mapM_eq_ok_of_filterMap hmembers
    rw [propertiesAt_standard, hall, Except.map, ← List.flatMap_def,
      Keyed.firsts_append_flatMap_firsts]

/-- Properties are found exactly where a node has an unfolding. -/
theorem propertiesOf_iff {properties : List Property} :
    (standard spell wrapper format).propertiesOf registry site = .ok properties ↔
      ∃ declarations, site.Unfolds registry declarations ∧
        properties = Keyed.firsts Property.name declarations := by
  constructor
  · intro h
    exact exists_unfolds_of_propertiesAt h
  · rintro ⟨declarations, h, rfl⟩
    have hnone : Walk.Above registry ⟨[], site⟩ := by
      intro reference hmem
      cases hmem
    exact propertiesAt_of_unfolds h (Or.inl rfl) hnone

/-- With the standard rules all chains of calls for the properties of a node end. The properties are
found exactly if there is an end to the bases of the node and all references in their `allOf` lead to
nodes, and then they are the first of each name in its unfolding. -/
theorem propertiesOf_exact (spell : Text.Spelling) (wrapper : String) (format : DateTimeFormat)
    (registry : Registry) (site : Site) :
    Acc (fun next walk => PropertyCalls (standard spell wrapper format).properties registry walk next)
        ⟨[], site⟩ ∧
      ((∃ properties, (standard spell wrapper format).propertiesOf registry site = .ok properties) ↔
        Acc (Site.IsBase registry) site ∧
          ∀ base, Relation.ReflTransGen (Site.IsBase registry) base site →
            base.Resolves registry) ∧
      ∀ properties, (standard spell wrapper format).propertiesOf registry site = .ok properties ↔
        ∃ declarations, site.Unfolds registry declarations ∧
          properties = Keyed.firsts Property.name declarations := by
  refine ⟨?_, ?_, fun properties => propertiesOf_iff⟩
  · exact Subrelation.accessible (fun h => PropertyCalls.moves h) (Walk.acc_moves registry _)
  · constructor
    · rintro ⟨properties, h⟩
      obtain ⟨declarations, hunfolds, _⟩ := propertiesOf_iff.1 h
      exact ⟨hunfolds.acc, fun base hpath => hunfolds.resolves hpath⟩
    · rintro ⟨hacc, hresolves⟩
      obtain ⟨declarations, hunfolds⟩ := Site.exists_unfolds hacc hresolves
      exact ⟨_, propertiesOf_iff.2 ⟨declarations, hunfolds, rfl⟩⟩

namespace Shared

/-- A node that inherits from a cat and from a dog. -/
def catDog : Site where
  node := .map [
    ("allOf", .list [.map [("$ref", .string "#/Cat")], .map [("$ref", .string "#/Dog")]]),
    ("properties", .map [("name", .map [])])]
  reference := "a#/CatDog"

/-- Cats and dogs share a base, and a name of their own each. -/
def animals : Registry where
  schemas := [{
    origin := "a"
    rootName := "Root"
    parsed := some (.map [
      ("Animal", .map [("properties", .map [("legs", .map []), ("name", .map [])])]),
      ("Cat", .map [
        ("allOf", .list [.map [("$ref", .string "#/Animal")]]),
        ("properties", .map [("meows", .map [])])]),
      ("Dog", .map [
        ("allOf", .list [.map [("$ref", .string "#/Animal")]]),
        ("properties", .map [("barks", .map [])])])]) }]

end Shared

open Shared in
/-- A base that is come to twice stops nothing, and its properties stand where it is come to first. -/
theorem propertiesOf_exact_shared :
    Acc (Site.IsBase animals) catDog ∧
      ∃ properties, (standard Text.transliterate "DateTime" {}).propertiesOf animals catDog = .ok properties ∧
        properties.map Property.name = ["name", "meows", "legs", "barks"] := by
  have hnames :
      (propertiesWithin (standard Text.transliterate "DateTime" {}).properties animals 3 []
        catDog).toOption.map (List.map Property.name) = some ["name", "meows", "legs", "barks"] := by
    decide +kernel
  obtain ⟨-, hends, -⟩ := propertiesOf_exact Text.transliterate "DateTime" {} animals catDog
  cases hwithin :
      propertiesWithin (standard Text.transliterate "DateTime" {}).properties animals 3 [] catDog with
  | error error => rw [hwithin] at hnames; cases hnames
  | ok properties =>
    have hfound : (standard Text.transliterate "DateTime" {}).propertiesOf animals catDog = .ok properties :=
      propertiesAt_of_propertiesWithin hwithin
    rw [hwithin] at hnames
    exact ⟨(hends.1 ⟨properties, hfound⟩).1, properties, hfound, Option.some.inj hnames⟩

end Rules

end ApiModel
