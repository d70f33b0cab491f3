import ApiModel.Proofs.DataType.Rule
import ApiModel.Proofs.Registry.Following
import ApiModel.Proofs.Registry.Likeness
import ApiModel.Rules
import ApiModel.Text.Transliteration

/-!
# Finding a type ends

Finding the type of a node calls itself for other nodes: for what a reference leads to, unless it is
being followed already, and for the nodes that a rule combines (`TypeCalls`). A call for a variant of a
list of types stays at its reference with a changed node, and a call along a reference may lead to any
node of any document. All chains of calls end, because they are walks that follow references.

`TypeFound` states what type is found without saying that it ends, and holds only the references on the
way back. Every node has exactly one type in this sense, the one that `typeAt` computes.
-/

namespace ApiModel

namespace TypeRule

variable {registry : Registry} {site inner : Site} {rule : TypeRule}

/-- A variant stands for its node: only the list of types gives way to one of them. -/
theorem inside_of_mem_variants {types : List Document} (htypes : site.node.itemsAt? "type" = some types)
    (h : inner ∈ variants site types) : inner.Inside site := by
  have hsmaller := sizeOf_variants_lt htypes h
  obtain ⟨type, htype, rfl⟩ := List.mem_map.1 h
  have hnone : type.refs = [] := by
    cases type with
    | string _ => rfl
    | _ => cases (List.mem_filter.1 htype).2
  refine ⟨hsmaller, ?_, fun hfragment => hfragment, fun _ => rfl⟩
  intro text htext
  exact Document.mem_refs_of_mem_refs_set (by decide) hnone htext

/-- The nodes that a rule combines stand inside the node that they are combined for. -/
theorem inside_of_combine {sites : List Site} {build : List DataType → DataType}
    (hplan : rule.plan registry site = .ok (.combine sites build)) (h : inner ∈ sites) :
    inner.Inside site := by
  cases planned_of_plan hplan with
  | types htypes => exact inside_of_mem_variants htypes h
  | members =>
    rcases List.mem_append.1 h with h | h
    · exact Site.inside_items (by decide) h
    · exact Site.inside_items (by decide) h
  | items hitems =>
    have heq := List.mem_singleton.1 h
    subst heq
    exact Site.inside_object? (by decide) hitems
  | tuple => exact Site.inside_items (by decide) h
  | values hvalues =>
    have heq := List.mem_singleton.1 h
    subst heq
    exact Site.inside_object? (by decide) hvalues

/-- A rule follows the text under `$ref`, to a node that is no class. -/
theorem target_of_follow {target : Site} (hsupports : rule.supports registry site)
    (hplan : rule.plan registry site = .ok (.follow target)) :
    ∃ text, site.target? = some text ∧ target.reference = site.resolve text ∧
      registry.class? target.reference = none ∧
        registry.node? target.reference = some target.node := by
  cases planned_of_plan hplan with
  | followed hclass hnode =>
    obtain ⟨text, htext⟩ := Option.isSome_iff_exists.1 hsupports
    rw [htext, Option.getD_some] at hclass hnode ⊢
    exact ⟨text, rfl, rfl, hclass, hnode⟩

end TypeRule

/-- The first rule that supports a node makes a plan for it. -/
def TypePlanned (rules : List TypeRule) (registry : Registry) (site : Site)
    (plan : Except Error TypePlan) : Prop :=
  ∃ rule, rules.find? (·.supports registry site) = some rule ∧ rule.plan registry site = plan

/-- Finding the type of a node calls for the type of another one. -/
inductive TypeCalls (rules : List TypeRule) (registry : Registry) : Walk → Walk → Prop where
  /-- A reference leads to a node, and it is not being followed already. -/
  | follow {followed : List String} {site target : Site} :
    TypePlanned rules registry site (.ok (.follow target)) → target.reference ∉ followed →
      TypeCalls rules registry ⟨followed, site⟩ ⟨target.reference :: followed, target⟩
  /-- A node is one of those that are combined. -/
  | combine {followed : List String} {site inner : Site} {sites : List Site}
    {build : List DataType → DataType} :
    TypePlanned rules registry site (.ok (.combine sites build)) → inner ∈ sites →
      TypeCalls rules registry ⟨followed, site⟩ ⟨followed, inner⟩

/-- What type is found for a node that was reached by following some references. -/
inductive TypeFound (rules : List TypeRule) (registry : Registry) :
    List String → Site → Except Error DataType → Prop where
  /-- No rule supports the node. -/
  | unsupported {followed : List String} {site : Site} :
    rules.find? (·.supports registry site) = none →
      TypeFound rules registry followed site (.ok .mixed)
  | failed {followed : List String} {site : Site} {error : Error} :
    TypePlanned rules registry site (.error error) →
      TypeFound rules registry followed site (.error error)
  | known {followed : List String} {site : Site} {type : DataType} :
    TypePlanned rules registry site (.ok (.known type)) →
      TypeFound rules registry followed site (.ok type)
  /-- A reference that is met again while it is being followed. -/
  | again {followed : List String} {site target : Site} :
    TypePlanned rules registry site (.ok (.follow target)) → target.reference ∈ followed →
      TypeFound rules registry followed site (.ok .mixed)
  | follow {followed : List String} {site target : Site} {result : Except Error DataType} :
    TypePlanned rules registry site (.ok (.follow target)) → target.reference ∉ followed →
      TypeFound rules registry (target.reference :: followed) target result →
        TypeFound rules registry followed site result
  | combine {followed : List String} {site : Site} {sites : List Site}
    {build : List DataType → DataType} {results : Site → Except Error DataType} :
    TypePlanned rules registry site (.ok (.combine sites build)) →
      (∀ inner ∈ sites, TypeFound rules registry followed inner (results inner)) →
        TypeFound rules registry followed site ((sites.mapM results).map build)

section

variable {rules : List TypeRule} {registry : Registry} {followed : List String} {site target : Site}

theorem TypePlanned.follow (h : TypePlanned rules registry site (.ok (.follow target))) :
    ∃ text, site.target? = some text ∧ target.reference = site.resolve text ∧
      registry.class? target.reference = none ∧
        registry.node? target.reference = some target.node := by
  obtain ⟨rule, hrule, hplan⟩ := h
  have hsupports : rule.supports registry site := by simpa using List.find?_some hrule
  exact TypeRule.target_of_follow hsupports hplan

/-- What the rule for references plans, if it is tried first and the text leads to a node. -/
theorem typePlanned_of_target? {text reference : String} {node : Document}
    (hrule : rules.find? (·.supports registry site) = some .reference)
    (htarget : site.target? = some text) (hresolve : site.resolve text = reference)
    (hclass : registry.class? reference = none) (hnode : registry.node? reference = some node) :
    TypePlanned rules registry site (.ok (.follow ⟨node, reference⟩)) := by
  subst hresolve
  refine ⟨.reference, hrule, ?_⟩
  simp only [TypeRule.plan, TypeRule.planReference, htarget, Option.getD_some, hclass, hnode]

/-- Every call is a move of a walk that follows references. -/
theorem TypeCalls.moves {walk next : Walk} (h : TypeCalls rules registry walk next) :
    Walk.Moves registry walk next := by
  cases h with
  | @follow followed site target hplanned hnew =>
    obtain ⟨text, htarget, heq, _, hnode⟩ := hplanned.follow
    have htext := Site.mem_refs_of_target? htarget
    obtain ⟨node, reference⟩ := target
    subst heq
    exact Walk.Moves.follow htext hnode hnew
  | combine hplanned hinner =>
    obtain ⟨rule, _, hplan⟩ := hplanned
    exact Walk.Moves.inside (TypeRule.inside_of_combine hplan hinner)

/-- Every chain of calls ends, wherever it begins. -/
theorem acc_typeCalls (walk : Walk) :
    Acc (fun next walk => TypeCalls rules registry walk next) walk :=
  Subrelation.accessible (fun h => TypeCalls.moves h) (Walk.acc_moves registry walk)

/-! ## The type that is found -/

/-- What the first rule plans is carried out. -/
theorem typeAt_of_planned {plan : Except Error TypePlan} :
    TypePlanned rules registry site plan →
      typeAt rules registry followed site =
        match plan with
        | .error error => .error error
        | .ok (.known type) => .ok type
        | .ok (.follow target) =>
          match registry.follow? followed target.reference with
          | none => .ok .mixed
          | some longer => typeAt rules registry longer target
        | .ok (.combine sites build) => (sites.mapM (typeAt rules registry followed)).map build := by
  rintro ⟨rule, hrule, rfl⟩
  rewrite [typeAt_eq, hrule]
  rfl

/-- On a walk from a start only a reference that is being followed already stops the search. -/
theorem typeAt_of_follow (hsettled : Walk.Settled registry ⟨followed, site⟩)
    (h : TypePlanned rules registry site (.ok (.follow target))) :
    typeAt rules registry followed site =
      if target.reference ∈ followed then .ok .mixed
      else typeAt rules registry (target.reference :: followed) target := by
  obtain ⟨text, htarget, heq, -, -⟩ := h.follow
  have hgo : registry.follow? followed target.reference =
      if target.reference ∈ followed then none else some (target.reference :: followed) := by
    rw [heq]
    exact hsettled.follow? (Site.mem_refs_of_target? htarget)
  rw [typeAt_of_planned h]
  simp only [hgo]
  by_cases hmem : target.reference ∈ followed
  · simp only [if_pos hmem]
  · simp only [if_neg hmem]

/-- Nothing but `typeAt` is found, on a walk from a start. -/
theorem typeAt_of_typeFound {result : Except Error DataType}
    (h : TypeFound rules registry followed site result)
    (hsettled : Walk.Settled registry ⟨followed, site⟩) :
    typeAt rules registry followed site = result := by
  -- on the derivation: each premise is about a walk that is called for
  induction h with
  | unsupported hnone => rw [typeAt_eq, hnone]
  | failed hplanned => exact typeAt_of_planned hplanned
  | known hplanned => exact typeAt_of_planned hplanned
  | again hplanned hmem => rw [typeAt_of_follow hsettled hplanned, if_pos hmem]
  | follow hplanned hnew _ ih =>
    have hnext := hsettled.moves (TypeCalls.follow hplanned hnew).moves
    rw [typeAt_of_follow hsettled hplanned, if_neg hnew]
    exact ih hnext
  | combine hplanned _ ih =>
    rw [typeAt_of_planned hplanned]
    refine congrArg (Except.map _) (Traversal.mapM_congr ?_)
    intro inner hinner
    exact ih inner hinner (hsettled.moves (TypeCalls.combine hplanned hinner).moves)

/-- `typeAt` is found, on a walk from a start. -/
theorem typeFound_typeAt {walk : Walk} (hsettled : walk.Settled registry) :
    TypeFound rules registry walk.followed walk.site
      (typeAt rules registry walk.followed walk.site) := by
  -- the calls end, so what holds of a walk once it holds of all its calls holds of every walk
  have hacc : Acc (fun next walk => TypeCalls rules registry walk next) walk := acc_typeCalls walk
  induction hacc with
  | intro walk _ ih =>
    obtain ⟨followed, site⟩ := walk
    cases hrule : rules.find? (·.supports registry site) with
    | none =>
      rw [typeAt_eq, hrule]
      exact .unsupported hrule
    | some rule =>
      cases hplan : rule.plan registry site with
      | error error =>
        have hplanned : TypePlanned rules registry site (.error error) := ⟨rule, hrule, hplan⟩
        rw [typeAt_of_planned hplanned]
        exact .failed hplanned
      | ok plan =>
        have hplanned : TypePlanned rules registry site (.ok plan) := ⟨rule, hrule, hplan⟩
        cases plan with
        | known type =>
          rw [typeAt_of_planned hplanned]
          exact .known hplanned
        | follow target =>
          rw [typeAt_of_follow hsettled hplanned]
          by_cases hmem : target.reference ∈ followed
          · rw [if_pos hmem]
            exact .again hplanned hmem
          · rw [if_neg hmem]
            have hcall := TypeCalls.follow hplanned hmem
            exact .follow hplanned hmem (ih _ hcall (hsettled.moves hcall.moves))
        | combine sites build =>
          rw [typeAt_of_planned hplanned]
          refine .combine hplanned ?_
          intro inner hinner
          have hcall : TypeCalls rules registry ⟨followed, site⟩ ⟨followed, inner⟩ :=
            .combine hplanned hinner
          exact ih _ hcall (hsettled.moves hcall.moves)

theorem typeFound_iff (hsettled : Walk.Settled registry ⟨followed, site⟩)
    {result : Except Error DataType} :
    TypeFound rules registry followed site result ↔ typeAt rules registry followed site = result := by
  constructor
  · intro h
    exact typeAt_of_typeFound h hsettled
  · intro h
    rw [← h]
    exact typeFound_typeAt hsettled

/-- A reference to no class that is met again while it is being followed is mixed. -/
theorem typeAt_of_mem_followed (hsettled : Walk.Settled registry ⟨followed, site⟩)
    (hresolved : Walk.Resolved registry ⟨followed, site⟩)
    (hrule : rules.find? (·.supports registry site) = some .reference) {text : String}
    (htarget : site.target? = some text) (hclass : registry.class? (site.resolve text) = none)
    (hmem : site.resolve text ∈ followed) : typeAt rules registry followed site = .ok .mixed := by
  obtain ⟨node, hnode⟩ := Option.isSome_iff_exists.1 (hresolved _ hmem)
  rw [typeAt_of_follow hsettled (typePlanned_of_target? hrule htarget rfl hclass hnode)]
  exact if_pos hmem

end

/-! ## The standard rules -/

namespace Rules

/-- Of the standard rules the one for references is tried first. -/
theorem find?_standard_of_target? {spell : Text.Spelling} {wrapper : String} {format : DateTimeFormat}
    {registry : Registry} {site : Site} {text : String} (h : site.target? = some text) :
    (standard spell wrapper format).types.find? (·.supports registry site) = some .reference := by
  have hsupports : TypeRule.supports registry site .reference = true := by
    simp [TypeRule.supports, h]
  simp [standard, hsupports]

/-- With the standard rules the type of every node is found, in any registry: all chains of calls end,
and exactly one result is found. A reference that leads to no class, and that is being followed already,
is mixed wherever a chain of calls meets it. -/
theorem typeOf_ends (spell : Text.Spelling) (wrapper : String) (format : DateTimeFormat)
    (registry : Registry) (start : Site) :
    Acc (fun next walk => TypeCalls (standard spell wrapper format).types registry walk next) ⟨[], start⟩ ∧
      (∀ result, TypeFound (standard spell wrapper format).types registry [] start result ↔
        (standard spell wrapper format).typeOf registry start = result) ∧
      ∀ walk,
        Relation.ReflTransGen (TypeCalls (standard spell wrapper format).types registry) ⟨[], start⟩ walk →
          (∀ result,
            TypeFound (standard spell wrapper format).types registry walk.followed walk.site result ↔
              typeAt (standard spell wrapper format).types registry walk.followed walk.site = result) ∧
          ∀ text, walk.site.target? = some text →
            registry.class? (walk.site.resolve text) = none →
              walk.site.resolve text ∈ walk.followed →
                typeAt (standard spell wrapper format).types registry walk.followed walk.site =
                  .ok .mixed := by
  have hstart : Walk.Settled registry ⟨[], start⟩ := Or.inl rfl
  have hnone : Walk.Resolved registry ⟨[], start⟩ := by
    intro reference hreference
    cases hreference
  refine ⟨acc_typeCalls _, fun result => typeFound_iff hstart, ?_⟩
  intro walk hpath
  have hmoves : ∀ a b, TypeCalls (standard spell wrapper format).types registry a b →
      Walk.Moves registry a b := fun _ _ hcall => hcall.moves
  have hsettled : walk.Settled registry :=
    Walk.of_reached hmoves (fun _ _ h hmove => h.moves hmove) hstart hpath
  have hresolved : walk.Resolved registry :=
    Walk.of_reached hmoves (fun _ _ h hmove => h.moves hmove) hnone hpath
  refine ⟨fun result => typeFound_iff hsettled, ?_⟩
  intro text htarget hclass hmem
  exact typeAt_of_mem_followed hsettled hresolved (find?_standard_of_target? htarget) htarget hclass
    hmem

namespace Nested

/-- A list of names. -/
def names : Document :=
  .map [("type", .string "array"), ("items", .map [("$ref", .string "b#/Name")])]

/-- A name is a text, or a list of names in the other document. -/
def name : Document :=
  .map [("anyOf", .list [.map [("type", .string "string")], .map [("$ref", .string "a#/Names")]])]

/-- Two documents that refer to each other. -/
def documents : Registry where
  schemas := [
    { origin := "a", rootName := "Root", parsed := some (.map [("Names", names)]) },
    { origin := "b", rootName := "Root", parsed := some (.map [("Name", name)]) }]

/-- A reference to the names, in a document that is not read. -/
def start : Site := ⟨.map [("$ref", .string "a#/Names")], "c#/Start"⟩

/-- Where the search for its type is led back to the names. -/
def back : Walk where
  followed := ["b#/Name", "a#/Names"]
  site := ⟨.map [("$ref", .string "a#/Names")], "b#/Name/anyOf/1"⟩

end Nested

open Nested in
/-- The search goes through both documents, and the names are mixed where it comes back to them. -/
theorem typeOf_ends_nested :
    Relation.ReflTransGen (TypeCalls (standard Text.transliterate "DateTime" {}).types documents)
        ⟨[], start⟩ back ∧
      typeAt (standard Text.transliterate "DateTime" {}).types documents back.followed back.site =
        .ok .mixed := by
  have hnames : documents.node? "a#/Names" = some names := by with_unfolding_all rfl
  have hname : documents.node? "b#/Name" = some name := by with_unfolding_all rfl
  have hnamesClass : documents.class? "a#/Names" = none := by with_unfolding_all rfl
  have hnameClass : documents.class? "b#/Name" = none := by with_unfolding_all rfl
  have hback : back.site.resolve "a#/Names" = "a#/Names" := by decide +kernel
  -- what is planned on the way from the start back to the names
  have hstart : TypePlanned (standard Text.transliterate "DateTime" {}).types documents start
      (.ok (.follow ⟨names, "a#/Names"⟩)) :=
    typePlanned_of_target? (find?_standard_of_target? rfl) rfl (by decide +kernel) hnamesClass hnames
  have hitems : TypePlanned (standard Text.transliterate "DateTime" {}).types documents ⟨names, "a#/Names"⟩
      (.ok (.combine [⟨.map [("$ref", .string "b#/Name")], "a#/Names/items"⟩]
        fun types => .array (types.headD .mixed))) :=
    ⟨.array, by decide +kernel, by with_unfolding_all rfl⟩
  have hitem : TypePlanned (standard Text.transliterate "DateTime" {}).types documents
      ⟨.map [("$ref", .string "b#/Name")], "a#/Names/items"⟩ (.ok (.follow ⟨name, "b#/Name"⟩)) :=
    typePlanned_of_target? (find?_standard_of_target? rfl) rfl (by decide +kernel) hnameClass hname
  have hmembers : TypePlanned (standard Text.transliterate "DateTime" {}).types documents ⟨name, "b#/Name"⟩
      (.ok (.combine [⟨.map [("type", .string "string")], "b#/Name/anyOf/0"⟩, back.site]
        .multiple)) :=
    ⟨.multiple, by decide +kernel, by with_unfolding_all rfl⟩
  have hpath : Relation.ReflTransGen (TypeCalls (standard Text.transliterate "DateTime" {}).types documents)
      ⟨[], start⟩ back := by
    refine .head (.follow hstart (by decide)) ?_
    refine .head (.combine hitems List.mem_cons_self) ?_
    refine .head (.follow hitem (by decide)) ?_
    exact .single (.combine hmembers (List.mem_cons_of_mem _ List.mem_cons_self))
  obtain ⟨-, -, hreached⟩ := typeOf_ends Text.transliterate "DateTime" {} documents start
  refine ⟨hpath, (hreached back hpath).2 "a#/Names" rfl ?_ ?_⟩
  · rw [hback]
    exact hnamesClass
  · rw [hback]
    decide

end Rules

end ApiModel
