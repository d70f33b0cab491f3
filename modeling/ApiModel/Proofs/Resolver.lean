import ApiModel.Proofs.DataType.Termination
import ApiModel.Proofs.Property.Unfolding
import ApiModel.Resolver

/-!
# A resolver is as good as new after every call

For a call that is given some list of references there is a depth that is enough. With it the call comes to
its result, and with less to nothing; the list is left as it was given, however deep the call fails
(`Following.Gives`). A reference that is put on the list is taken off on every way out, and the calls in
between leave the list alone. So the answers of a resolver do not depend on what it was asked before, and
they are those of the rules themselves (`Resolver.answers_fresh`).
-/

namespace ApiModel

namespace Following

variable {α β : Type} {followed : List String} {reference : String}

/-- With enough depth a call ends with a result, and leaves the references that are being followed as they
were. With less nothing comes of it. -/
def Gives (call : Nat → Following α) (followed : List String) (result : Except Error α) : Prop :=
  ∃ enough, ∀ depth, (call depth).run.run followed =
    if depth < enough then none else some (result, followed)

theorem gives_pure (value : α) : Gives (fun _ => pure value) followed (.ok value) :=
  ⟨0, fun _ => rfl⟩

theorem gives_throw (error : Error) : Gives (α := α) (fun _ => throw error) followed (.error error) :=
  ⟨0, fun _ => rfl⟩

/-- A call nests one deeper than what it is made of. -/
theorem gives_of_succ {call body : Nat → Following α} {result : Except Error α}
    (hzero : (call 0).run.run followed = none) (hsucc : ∀ depth, call (depth + 1) = body depth)
    (hbody : Gives body followed result) : Gives call followed result := by
  obtain ⟨enough, hbody⟩ := hbody
  refine ⟨enough + 1, fun depth => ?_⟩
  cases depth with
  | zero => exact hzero
  | succ depth =>
    rw [hsucc, hbody]
    simp only [Nat.add_lt_add_iff_right]

/-- Where a call fails, what comes behind it is left out. -/
theorem gives_bind {call : Nat → Following α} {next : Nat → α → Following β}
    {result : Except Error α} {results : α → Except Error β} (hcall : Gives call followed result)
    (hnext : ∀ value, result = .ok value →
      Gives (fun depth => next depth value) followed (results value)) :
    Gives (fun depth => call depth >>= next depth) followed (result.bind results) := by
  obtain ⟨enough, hcall⟩ := hcall
  have hrun : ∀ depth, (call depth >>= next depth).run.run followed =
      if depth < enough then none
      else (ExceptT.bindCont (next depth) result).run followed := by
    intro depth
    show ((call depth).run >>= ExceptT.bindCont (next depth)).run followed = _
    rw [StateT.run_bind, hcall]
    split <;> rfl
  cases result with
  | error error => exact ⟨enough, hrun⟩
  | ok value =>
    obtain ⟨more, hnext⟩ := hnext value rfl
    refine ⟨max enough more, fun depth => ?_⟩
    rw [hrun]
    show (if depth < enough then none else (next depth value).run.run followed) = _
    rw [hnext]
    by_cases hless : depth < enough
    · rw [if_pos hless, if_pos (Nat.lt_of_lt_of_le hless (Nat.le_max_left enough more))]
    · have hmore : depth < max enough more ↔ depth < more := by omega
      simp only [if_neg hless, hmore]
      rfl

theorem gives_map {call : Nat → Following α} {result : Except Error α}
    (hcall : Gives call followed result) (f : α → β) :
    Gives (fun depth => do return f (← call depth)) followed (result.map f) := by
  have hbind : Gives (fun depth => call depth >>= fun value => pure (f value)) followed
      (result.bind fun value => .ok (f value)) :=
    gives_bind hcall fun value _ => gives_pure (f value)
  cases result with
  | error error => exact hbind
  | ok value => exact hbind

/-- Calls in turn leave the references alone if each of them does. -/
theorem gives_mapM {call : Nat → α → Following β} {result : α → Except Error β} {xs : List α}
    (h : ∀ x ∈ xs, Gives (fun depth => call depth x) followed (result x)) :
    Gives (fun depth => xs.mapM (call depth)) followed (xs.mapM result) := by
  induction xs with
  | nil => exact gives_pure []
  | cons x xs ih =>
    have hrest := ih fun y hy => h y (List.mem_cons_of_mem x hy)
    simp only [List.mapM_cons]
    refine gives_bind (h x List.mem_cons_self) fun value _ => ?_
    exact gives_bind hrest fun values _ => gives_pure (value :: values)

/-- Nothing is looked behind where a reference is being followed already. -/
theorem gives_following_again {again : Except Error α} {call : Nat → Following α}
    (hmem : reference ∈ followed) :
    Gives (fun depth => following reference again (call depth).run) followed again := by
  refine ⟨0, fun depth => ?_⟩
  show ((following reference again (call depth).run).run followed) = _
  simp [following, hmem]

/-- A reference is taken off the list again, whatever comes of the call. -/
theorem gives_following {again result : Except Error α} {call : Nat → Following α}
    (hnew : reference ∉ followed) (hcall : Gives call (reference :: followed) result) :
    Gives (fun depth => following reference again (call depth).run) followed result := by
  obtain ⟨enough, hcall⟩ := hcall
  refine ⟨enough, fun depth => ?_⟩
  have hrun : (call depth).run.run (reference :: followed) =
    if depth < enough then none else some (result, reference :: followed) := hcall depth
  show ((following reference again (call depth).run).run followed) = _
  by_cases hless : depth < enough
  · simp [following, hnew, hrun, hless]
  · simp [following, hnew, hrun, hless]

end Following

open Following

/-! ## Types -/

section

variable {rules : List TypeRule} {registry : Registry} {followed : List String} {site : Site}

/-- What the first rule plans is carried out, one deeper. -/
theorem resolveType_of_planned {plan : Except Error TypePlan} (depth : Nat) :
    TypePlanned rules registry site plan →
      resolveType rules registry (depth + 1) site =
        match plan with
        | .error error => throw error
        | .ok (.known type) => return type
        | .ok (.follow target) =>
          following target.reference (.ok .mixed) (resolveType rules registry depth target)
        | .ok (.combine sites build) => do
          return build (← sites.mapM (resolveType rules registry depth)) := by
  rintro ⟨rule, hrule, rfl⟩
  rewrite [resolveType, hrule]
  rfl

/-- A resolver finds the type that is to be found. -/
theorem gives_resolveType {result : Except Error DataType}
    (h : TypeFound rules registry followed site result) :
    Gives (resolveType rules registry · site) followed result := by
  induction h with
  | unsupported hnone =>
    refine gives_of_succ rfl (fun depth => ?_) (gives_pure _)
    rw [resolveType, hnone]
  | failed hplanned =>
    exact gives_of_succ rfl (resolveType_of_planned · hplanned) (gives_throw _)
  | known hplanned =>
    exact gives_of_succ rfl (resolveType_of_planned · hplanned) (gives_pure _)
  | again hplanned hmem =>
    exact gives_of_succ rfl (resolveType_of_planned · hplanned) (gives_following_again hmem)
  | follow hplanned hnew _ ih =>
    exact gives_of_succ rfl (resolveType_of_planned · hplanned) (gives_following hnew ih)
  | combine hplanned _ ih =>
    exact gives_of_succ rfl (resolveType_of_planned · hplanned) (gives_map (gives_mapM ih) _)

/-- Whatever references are being followed, there is a type to be found, or a failure. -/
theorem exists_typeFound (rules : List TypeRule) (registry : Registry) (walk : Walk) :
    ∃ result, TypeFound rules registry walk.followed walk.site result := by
  -- all chains of calls end
  have hacc : Acc (fun next walk => TypeCalls rules registry walk next) walk := acc_typeCalls walk
  induction hacc with
  | intro walk _ ih =>
    obtain ⟨followed, site⟩ := walk
    cases hrule : rules.find? (·.supports registry site) with
    | none => exact ⟨_, .unsupported hrule⟩
    | some rule =>
      have hplanned : TypePlanned rules registry site (rule.plan registry site) := ⟨rule, hrule, rfl⟩
      cases hplan : rule.plan registry site with
      | error error => exact ⟨_, .failed (hplan ▸ hplanned)⟩
      | ok plan =>
        rw [hplan] at hplanned
        cases plan with
        | known type => exact ⟨_, .known hplanned⟩
        | follow target =>
          by_cases hmem : target.reference ∈ followed
          · exact ⟨_, .again hplanned hmem⟩
          · obtain ⟨result, hresult⟩ := ih _ (.follow hplanned hmem)
            exact ⟨result, .follow hplanned hmem hresult⟩
        | combine sites build =>
          have hinner : ∀ inner ∈ sites, ∃ result, TypeFound rules registry followed inner result :=
            fun inner hmem => ih _ (.combine hplanned hmem)
          have hnonempty : Nonempty (Except Error DataType) := ⟨.ok .mixed⟩
          choose! results hresults using hinner
          exact ⟨_, .combine hplanned hresults⟩

end

/-! ## Properties -/

section

variable {rules : List PropertyRule} {registry : Registry}

/-- What a resolver does for a part of a node. -/
def resolvePart (rules : List PropertyRule) (registry : Registry) (site : Site) (depth : Nat) :
    PropertyPart → Following (List Property)
  | .declared properties => return properties
  | .member inner => resolveProperties rules registry depth inner
  | .inherited target =>
    match inheritedFrom registry site target with
    | .error error => throw error
    | .ok base =>
      following base.reference (.error (.cyclicAllOf target site.reference))
        (resolveProperties rules registry depth base)

theorem resolveProperties_succ (rules : List PropertyRule) (registry : Registry) (site : Site)
    (depth : Nat) :
    resolveProperties rules registry (depth + 1) site = do
      let lists ← (propertyParts rules site).mapM (resolvePart rules registry site depth)
      return Keyed.firsts Property.name lists.flatten := by
  rw [resolveProperties]
  refine congrArg (· >>= _) (congrArg (List.mapM · _) (funext fun part => ?_))
  cases part <;> rfl

/-- Where all that a part calls for comes to a result, the part does, and on a walk from a start it is the
one that the rules find. -/
theorem exists_gives_resolvePart {followed : List String} {site : Site} {part : PropertyPart}
    (hpart : part ∈ propertyParts rules site)
    (hcalls : ∀ next, PropertyCalls rules registry ⟨followed, site⟩ next →
      ∃ result, Gives (resolveProperties rules registry · next.site) next.followed result ∧
        (next.Settled registry →
          result = propertiesAt rules registry next.followed next.site)) :
    ∃ result, Gives (resolvePart rules registry site · part) followed result ∧
      (Walk.Settled registry ⟨followed, site⟩ →
        result = part.properties rules registry followed site) := by
  cases part with
  | declared properties => exact ⟨.ok properties, gives_pure properties, fun _ => rfl⟩
  | member inner =>
    have hcall : PropertyCalls rules registry ⟨followed, site⟩ ⟨followed, inner⟩ := .member hpart
    obtain ⟨result, hgives, hsame⟩ := hcalls _ hcall
    exact ⟨result, hgives, fun hsettled => hsame (hsettled.moves hcall.moves)⟩
  | inherited text =>
    cases hnode : registry.node? (site.resolve text) with
    | none =>
      have hbase : inheritedFrom registry site text =
          .error (.unresolvableAllOf text site.reference) := by rw [inheritedFrom, hnode]
      refine ⟨.error (.unresolvableAllOf text site.reference), ?_, fun _ => ?_⟩
      · simp only [resolvePart, hbase]
        exact gives_throw _
      · rw [PropertyPart.properties, hbase]
    | some node =>
      have hbase : inheritedFrom registry site text = .ok ⟨node, site.resolve text⟩ := by
        rw [inheritedFrom, hnode]
      simp only [resolvePart, PropertyPart.properties, hbase]
      have hgo := fun hsettled : Walk.Settled registry ⟨followed, site⟩ =>
        hsettled.follow? (PropertyPart.mem_refs_of_inherited hpart)
      by_cases hmem : site.resolve text ∈ followed
      · refine ⟨_, gives_following_again hmem, fun hsettled => ?_⟩
        simp only [hgo hsettled, if_pos hmem]
      · have hcall : PropertyCalls rules registry ⟨followed, site⟩
            ⟨site.resolve text :: followed, ⟨node, site.resolve text⟩⟩ :=
          .inherited hpart hnode hmem
        obtain ⟨result, hgives, hsame⟩ := hcalls _ hcall
        refine ⟨result, gives_following hmem hgives, fun hsettled => ?_⟩
        simp only [hgo hsettled, if_neg hmem]
        exact hsame (hsettled.moves hcall.moves)

/-- Whatever references are being followed, a resolver comes to properties or to a failure. On a walk from a
start that is what the rules find. -/
theorem exists_gives_resolveProperties (rules : List PropertyRule) (registry : Registry) (walk : Walk) :
    ∃ result, Gives (resolveProperties rules registry · walk.site) walk.followed result ∧
      (walk.Settled registry → result = propertiesAt rules registry walk.followed walk.site) := by
  -- all chains of calls end
  have hacc : Acc (fun next walk => PropertyCalls rules registry walk next) walk :=
    Subrelation.accessible (fun h => PropertyCalls.moves h) (Walk.acc_moves registry walk)
  induction hacc with
  | intro walk _ ih =>
    obtain ⟨followed, site⟩ := walk
    have hparts : ∀ part ∈ propertyParts rules site, ∃ result,
        Gives (resolvePart rules registry site · part) followed result ∧
          (Walk.Settled registry ⟨followed, site⟩ →
            result = part.properties rules registry followed site) :=
      fun part hpart => exists_gives_resolvePart hpart ih
    choose! results hgives hsame using hparts
    refine ⟨((propertyParts rules site).mapM results).map fun lists =>
      Keyed.firsts Property.name lists.flatten, ?_, fun hsettled => ?_⟩
    · exact gives_of_succ rfl (resolveProperties_succ rules registry site)
        (gives_map (gives_mapM hgives) _)
    · have hlists := Traversal.mapM_congr fun part hpart => hsame part hpart hsettled
      rw [propertiesAt_eq, hlists]

end

/-! ## Answers -/

namespace Resolver

/-- The answer that the rules give by themselves. -/
def answerOf (rules : Rules) : Question → Answer
  | .type registry site => .type (rules.typeOf registry site)
  | .properties registry site => .properties (rules.propertiesOf registry site)

/-- With enough depth a new resolver answers with its rules, and is as good as new again. -/
theorem answer_fresh (rules : Rules) (question : Question) :
    ∃ enough, ∀ depth, (answer question).run { rules, depth } =
      if depth < enough then none else some (answerOf rules question, { rules, depth }) := by
  cases question with
  | type registry site =>
    obtain ⟨result, hfound⟩ := exists_typeFound rules.types registry ⟨[], site⟩
    have htype : rules.typeOf registry site = result := typeAt_of_typeFound hfound (Or.inl rfl)
    obtain ⟨enough, hrun⟩ := gives_resolveType hfound
    refine ⟨enough, fun depth => ?_⟩
    show ((resolveType rules.types registry depth site).run.run []).map _ = _
    rw [hrun, answerOf, htype]
    split <;> rfl
  | properties registry site =>
    obtain ⟨result, hgives, hsame⟩ :=
      exists_gives_resolveProperties rules.properties registry ⟨[], site⟩
    have hproperties : rules.propertiesOf registry site = result := (hsame (Or.inl rfl)).symm
    obtain ⟨enough, hrun⟩ := hgives
    refine ⟨enough, fun depth => ?_⟩
    show ((resolveProperties rules.properties registry depth site).run.run []).map _ = _
    rw [hrun, answerOf, hproperties]
    split <;> rfl

/-- A question needs some depth, which does not depend on what was asked before. With it, questions that a
resolver is asked in turn, about any registries, get the answers that each of them gets from a new resolver,
and the resolver is as good as new afterwards. For every call, also one inside another, the references that
are being followed are the same at its end as at its beginning, on success and on failure. -/
theorem answers_fresh (rules : Rules) :
    (∃ enough : Question → Nat, ∀ depth,
      (∀ question, (answer question).run { rules, depth } =
        if depth < enough question then none
        else some (answerOf rules question, { rules, depth })) ∧
      ∀ questions, (answers questions).run { rules, depth } =
        if ∃ question ∈ questions, depth < enough question then none
        else some (questions.map (answerOf rules), { rules, depth })) ∧
    ∀ (registry : Registry) (site : Site) (followed : List String),
      (∃ enough result, ∀ depth, (resolveType rules.types registry depth site).run followed =
        if depth < enough then none else some (result, followed)) ∧
      ∃ enough result, ∀ depth, (resolveProperties rules.properties registry depth site).run followed =
        if depth < enough then none else some (result, followed) := by
  refine ⟨?_, ?_⟩
  · choose enough hanswer using answer_fresh rules
    refine ⟨enough, fun depth => ⟨fun question => hanswer question depth, fun questions => ?_⟩⟩
    induction questions with
    | nil => rfl
    | cons question rest ih =>
      unfold answers at ih ⊢
      rw [List.mapM_cons, StateT.run_bind, hanswer]
      by_cases hless : depth < enough question
      · simp [hless]
      · by_cases hrest : ∃ question ∈ rest, depth < enough question
        · simp [hless, hrest, ih]
        · simp [hless, hrest, ih]
  · intro registry site followed
    obtain ⟨type, hfound⟩ := exists_typeFound rules.types registry ⟨followed, site⟩
    obtain ⟨enough, htype⟩ := gives_resolveType hfound
    obtain ⟨properties, ⟨more, hproperties⟩, -⟩ :=
      exists_gives_resolveProperties rules.properties registry ⟨followed, site⟩
    exact ⟨⟨enough, type, htype⟩, more, properties, hproperties⟩

end Resolver

end ApiModel
