import ApiModel.Proofs.DataType.Objects

/-!
# Where a type comes from

A node with a `$ref` to something that is no class has its type from there, and this again may refer to
something else. The node that such a chain comes to decides the type (`Site.DecidedBy`): it has no `$ref`, or
one to a class. There is one for every node whose chain ends, and with the standard rules the type of the node
is what is found there (`typeOf_of_decidedBy`). A chain that does not end comes back to one of its references,
and gives a type that is mixed.

Whether a list of types holds `null` makes no difference to the type (`typeAt_withoutNull`).
-/

namespace ApiModel

/-! ## Chains of references -/

namespace Site

/-- What a `$ref` leads to, if it leads to a node that is no class. -/
def alias? (registry : Registry) (site : Site) : Option Site :=
  site.target?.bind fun text =>
    if registry.hasClass (site.resolve text) then none
    else (registry.node? (site.resolve text)).map fun node => ⟨node, site.resolve text⟩

/-- The site that decides the type of another one, with the references that lead there. -/
inductive DecidedBy (registry : Registry) : Site → List String → Site → Prop where
  | here {site : Site} : site.alias? registry = none → DecidedBy registry site [] site
  | follow {site next decider : Site} {followed : List String} : site.alias? registry = some next →
    DecidedBy registry next followed decider →
      DecidedBy registry site (next.reference :: followed) decider

variable {registry : Registry} {site next decider other : Site} {followed others : List String}

theorem alias?_eq_some_iff : site.alias? registry = some next ↔
    ∃ text, site.target? = some text ∧ site.resolve text = next.reference ∧
      registry.class? next.reference = none ∧ registry.node? next.reference = some next.node := by
  unfold alias?
  rw [Option.bind_eq_some_iff]
  constructor
  · rintro ⟨text, htarget, hnext⟩
    split at hnext
    · cases hnext
    · next hclass =>
      obtain ⟨node, hnode, rfl⟩ := Option.map_eq_some_iff.1 hnext
      exact ⟨text, htarget, rfl, Option.not_isSome_iff_eq_none.1 hclass, hnode⟩
  · rintro ⟨text, htarget, heq, hclass, hnode⟩
    refine ⟨text, htarget, ?_⟩
    rw [heq, Registry.hasClass, hclass, hnode]
    rfl

/-- A chain has one end. -/
theorem DecidedBy.unique (h : site.DecidedBy registry followed decider)
    (hother : site.DecidedBy registry others other) : followed = others ∧ decider = other := by
  induction h generalizing others other with
  | here hnone =>
    cases hother with
    | here _ => exact ⟨rfl, rfl⟩
    | follow halias _ =>
      rw [hnone] at halias
      cases halias
  | follow halias _ ih =>
    cases hother with
    | here hnone =>
      rw [hnone] at halias
      cases halias
    | follow hagain hrest =>
      cases halias.symm.trans hagain
      obtain ⟨rfl, rfl⟩ := ih hrest
      exact ⟨rfl, rfl⟩

/-- Each reference of a chain leads to the rest of it. -/
theorem DecidedBy.exists_rest (h : site.DecidedBy registry followed decider) {reference : String}
    (hreference : reference ∈ followed) :
    ∃ node rest, registry.node? reference = some node ∧ rest.length < followed.length ∧
      DecidedBy registry ⟨node, reference⟩ rest decider := by
  induction h with
  | here _ => cases hreference
  | @follow site next decider followed halias hrest ih =>
    obtain ⟨_, _, _, _, hnode⟩ := alias?_eq_some_iff.1 halias
    rcases List.mem_cons.1 hreference with rfl | hreference
    · exact ⟨next.node, followed, hnode, Nat.lt_succ_self _, hrest⟩
    · obtain ⟨node, rest, hfound, hlt, hdecided⟩ := ih hreference
      exact ⟨node, rest, hfound, Nat.lt_succ_of_lt hlt, hdecided⟩

/-- A chain that ends does not come back to any of its references. -/
theorem DecidedBy.nodup (h : site.DecidedBy registry followed decider) : followed.Nodup := by
  induction h with
  | here _ => exact List.nodup_nil
  | follow halias hrest ih =>
    refine List.nodup_cons.2 ⟨fun hagain => ?_, ih⟩
    -- the same site would have a rest that is shorter than itself
    obtain ⟨node, rest, hfound, hlt, hdecided⟩ := hrest.exists_rest hagain
    obtain ⟨_, _, _, _, hnode⟩ := alias?_eq_some_iff.1 halias
    cases hfound.symm.trans hnode
    have heq := (hrest.unique hdecided).1
    rw [← heq] at hlt
    exact Nat.lt_irrefl _ hlt

end Site

/-! ## The type at the end of a chain -/

section

variable {registry : Registry} {site next decider : Site} {before followed : List String}
  {spell : Text.Spelling} {wrapper : String} {format : DateTimeFormat}

/-- The standard rules follow a chain step by step. -/
theorem typePlanned_of_alias? (h : site.alias? registry = some next) :
    TypePlanned (Rules.standard spell wrapper format).types registry site (.ok (.follow next)) := by
  obtain ⟨text, htarget, hresolve, hclass, hnode⟩ := Site.alias?_eq_some_iff.1 h
  exact typePlanned_of_target? (Rules.find?_standard_of_target? htarget) htarget hresolve hclass hnode

theorem typeAt_of_decidedBy (h : site.DecidedBy registry followed decider)
    (hsettled : Walk.Settled registry ⟨before, site⟩)
    (hnew : ∀ reference ∈ followed, reference ∉ before) :
    typeAt (Rules.standard spell wrapper format).types registry before site =
      typeAt (Rules.standard spell wrapper format).types registry (followed.reverse ++ before) decider := by
  induction h generalizing before with
  | here _ => rfl
  | @follow site next decider followed halias hrest ih =>
    have hplanned : TypePlanned (Rules.standard spell wrapper format).types registry site
        (.ok (.follow next)) := typePlanned_of_alias? halias
    have hfirst := hnew next.reference List.mem_cons_self
    have hdistinct := (List.nodup_cons.1 (Site.DecidedBy.follow halias hrest).nodup).1
    rw [typeAt_of_follow hsettled hplanned, if_neg hfirst, List.reverse_cons, List.append_assoc]
    refine ih (hsettled.moves (TypeCalls.follow hplanned hfirst).moves) fun reference hreference => ?_
    rw [List.mem_cons, not_or]
    exact ⟨fun heq => hdistinct (heq ▸ hreference),
      hnew reference (List.mem_cons_of_mem _ hreference)⟩

/-- The type of a site is what is found for the one that decides it. -/
theorem typeOf_of_decidedBy (h : site.DecidedBy registry followed decider) :
    (Rules.standard spell wrapper format).typeOf registry site =
      typeAt (Rules.standard spell wrapper format).types registry followed.reverse decider := by
  rw [Rules.typeOf, typeAt_of_decidedBy h (Or.inl rfl) fun _ _ => List.not_mem_nil, List.append_nil]

theorem exists_decidedBy_or_typeAt_mixed {walk : Walk} (hsettled : walk.Settled registry) :
    (∃ followed decider, walk.site.DecidedBy registry followed decider) ∨
      typeAt (Rules.standard spell wrapper format).types registry walk.followed walk.site = .ok .mixed := by
  -- a reference is followed or met again, and calls that follow references end
  have hacc : Acc (fun next walk => TypeCalls (Rules.standard spell wrapper format).types registry walk next)
      walk := acc_typeCalls walk
  induction hacc with
  | intro walk _ ih =>
    obtain ⟨before, site⟩ := walk
    cases halias : site.alias? registry with
    | none => exact Or.inl ⟨[], site, .here halias⟩
    | some next =>
      have hplanned : TypePlanned (Rules.standard spell wrapper format).types registry site
          (.ok (.follow next)) := typePlanned_of_alias? halias
      have htype := typeAt_of_follow hsettled hplanned
      by_cases hmem : next.reference ∈ before
      · exact Or.inr (htype.trans (if_pos hmem))
      · have hcall := TypeCalls.follow hplanned hmem
        rcases ih _ hcall (hsettled.moves hcall.moves) with ⟨followed, decider, hdecided⟩ | hmixed
        · exact Or.inl ⟨_, decider, .follow halias hdecided⟩
        · exact Or.inr (htype.trans ((if_neg hmem).trans hmixed))

/-- A site has one that decides its type, or its chain does not end and it is mixed. -/
theorem exists_decidedBy_or_mixed (spell : Text.Spelling) (wrapper : String) (format : DateTimeFormat)
    (registry : Registry) (site : Site) :
    (∃ followed decider, site.DecidedBy registry followed decider) ∨
      (Rules.standard spell wrapper format).typeOf registry site = .ok .mixed := by
  have hstart : Walk.Settled registry ⟨[], site⟩ := Or.inl rfl
  exact exists_decidedBy_or_typeAt_mixed hstart

end

/-! ## Lists of types without null -/

namespace Document

/-- The node without `null` in its list of types, if it has such a list. -/
def withoutNull (node : Document) : Document :=
  match node.itemsAt? "type" with
  | some types => node.set "type" (.list (types.filter fun type => type.text? ≠ some "null"))
  | none => node

end Document

namespace Site

/-- The site without `null` in its list of types. -/
def withoutNull (site : Site) : Site := { site with node := site.node.withoutNull }

variable {site : Site} {types : List Document}

theorem target?_withoutNull (site : Site) : site.withoutNull.target? = site.target? := by
  unfold target? withoutNull Document.withoutNull Document.textAt?
  cases site.node.itemsAt? "type" with
  | none => rfl
  | some types =>
    have hkey : "type" ≠ "$ref" := by decide
    exact congrArg (·.bind Document.text?) (Document.get?_set_of_ne hkey _ _)

theorem types_withoutNull (h : site.node.itemsAt? "type" = some types) :
    site.withoutNull.node.itemsAt? "type" = some (types.filter fun type => type.text? ≠ some "null") := by
  show (site.node.withoutNull.get? "type").bind Document.items? = _
  rw [Document.withoutNull, h]
  dsimp only
  rw [Document.get?_set_self (Option.isSome_of_eq_some (Document.get?_of_itemsAt? h))]
  rfl

end Site

/-- Null is no variant, so a list without it has the same variants. -/
theorem TypeRule.variants_withoutNull {site : Site} {types : List Document}
    (h : site.node.itemsAt? "type" = some types) :
    variants site.withoutNull (types.filter fun type => type.text? ≠ some "null") =
      variants site types := by
  have hkept : (types.filter fun type => type.text? ≠ some "null").filter
      (fun type => type.text?.any (· ≠ "null")) =
        types.filter fun type => type.text?.any (· ≠ "null") := by
    rw [List.filter_filter]
    refine List.filter_congr fun type _ => ?_
    cases type.text? with
    | none => rfl
    | some text => simp
  unfold variants
  rw [hkept]
  refine List.map_congr_left fun type _ => ?_
  show Site.mk (site.node.withoutNull.set "type" type) site.reference = _
  rw [Document.withoutNull, h, Document.set_set]

section

variable {registry : Registry} {site : Site} {followed : List String} {types : List Document}
  {spell : Text.Spelling} {wrapper : String} {format : DateTimeFormat}

/-- A node with a list of types that is no class has the type of its variants. -/
theorem typeAt_of_types (hinline : site.target? = none) (hclass : registry.class? site.reference = none)
    (htypes : site.node.itemsAt? "type" = some types) :
    typeAt (Rules.standard spell wrapper format).types registry followed site =
      ((TypeRule.variants site types).mapM
        (typeAt (Rules.standard spell wrapper format).types registry followed)).map DataType.ofVariants := by
  have htext : site.node.textAt? "type" = none := by
    rw [Document.textAt?, Document.get?_of_itemsAt? htypes]
    rfl
  have hfind : (Rules.standard spell wrapper format).types.find? (·.supports registry site) =
      some .multiple := by
    simp [Rules.standard, TypeRule.supports, Registry.hasClass, isDateTime, hinline, hclass, htext, htypes]
  have hplan : TypeRule.multiple.plan registry site =
      .ok (.combine (TypeRule.variants site types) DataType.ofVariants) := by
    rw [TypeRule.plan, TypeRule.planMultiple, htypes]
  exact typeAt_of_planned ⟨.multiple, hfind, hplan⟩

/-- The type of a node is the same without `null` in its list of types. -/
theorem typeAt_withoutNull (registry : Registry) (followed : List String) (site : Site) :
    typeAt (Rules.standard spell wrapper format).types registry followed site.withoutNull =
      typeAt (Rules.standard spell wrapper format).types registry followed site := by
  have htarget := site.target?_withoutNull
  cases htypes : site.node.itemsAt? "type" with
  | none =>
    have hsame : site.withoutNull = site := by
      rw [Site.withoutNull, Document.withoutNull, htypes]
    rw [hsame]
  | some types =>
    cases hinline : site.target? with
    | some text =>
      -- only what stands under `$ref` counts
      have hplan : TypeRule.planReference registry site.withoutNull =
          TypeRule.planReference registry site := by
        unfold TypeRule.planReference
        rw [htarget]
        rfl
      rw [typeAt_of_planned ⟨.reference, Rules.find?_standard_of_target? hinline, rfl⟩,
        typeAt_of_planned ⟨.reference, Rules.find?_standard_of_target? (htarget.trans hinline), hplan⟩]
      rfl
    | none =>
      cases hclass : registry.class? site.reference with
      | some c =>
        rw [typeAt_of_class hinline hclass]
        exact typeAt_of_class (htarget.trans hinline) hclass
      | none =>
        rw [typeAt_of_types hinline hclass htypes, ← TypeRule.variants_withoutNull htypes]
        exact typeAt_of_types (htarget.trans hinline) hclass (Site.types_withoutNull htypes)

end

end ApiModel
