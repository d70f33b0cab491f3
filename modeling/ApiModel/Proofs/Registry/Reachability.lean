import ApiModel.Proofs.Registry.Lookup
import ApiModel.Registry.Reachability
import Mathlib.Logic.Function.Iterate
import Mathlib.Logic.Relation

/-!
# Marking is reachability

`Registry.marked` lists the classes that the whitelisted operations of a schema lead to. Here it is
compared with two descriptions of its own:

* `Registry.Reaches`, the paths in the graph of references, which says nothing of an order;
* `Marking.turn`, one turn of a loop over a stack of references with one set for the classes it
  needs and one for the other nodes it has seen. Nothing bounds that loop from outside.

The loop comes to an empty stack and has then listed what `marked` lists (`exists_turns`), and that is
exactly what is reached (`mem_marked_iff`), each class once (`nodup_marked`).
-/

namespace ApiModel

/-! ## Visiting -/

/-- What a visit meets: references on the stack, and what they lead to, as long as every reference on
the way is among the unvisited ones. -/
inductive Met (successors : String → List String) (unvisited pending : List String) :
    String → Prop where
  | start {reference : String} :
    reference ∈ pending → reference ∈ unvisited → Met successors unvisited pending reference
  | next {reference target : String} :
    Met successors unvisited pending reference → target ∈ successors reference →
      target ∈ unvisited → Met successors unvisited pending target

namespace Met

variable {successors : String → List String} {unvisited pending : List String} {reference : String}

theorem mem_unvisited {target : String} (h : Met successors unvisited pending target) :
    target ∈ unvisited := by
  cases h with
  | start _ h => exact h
  | next _ _ h => exact h

theorem mono {fewer : List String} (hsub : ∀ x ∈ fewer, x ∈ unvisited)
    {waiting : List String}
    (hwaiting : ∀ x ∈ waiting, x ∈ fewer → Met successors unvisited pending x) {target : String}
    (h : Met successors fewer waiting target) : Met successors unvisited pending target := by
  induction h with
  | start hmem hfew => exact hwaiting _ hmem hfew
  | next _ hsucc hfew ih => exact ih.next hsucc (hsub _ hfew)

/-- What is met besides the first reference is met without going through it again. -/
theorem of_ne {target : String} (h : Met successors unvisited (reference :: pending) target)
    (hne : target ≠ reference) :
    Met successors (without reference unvisited) (successors reference ++ pending) target := by
  have hkeep : ∀ {x}, x ∈ unvisited → x ≠ reference → x ∈ without reference unvisited := by
    intro x hx hxne
    exact List.mem_filter.2 ⟨hx, by simpa using hxne⟩
  induction h with
  | start hmem hun =>
    rcases List.mem_cons.1 hmem with rfl | hmem
    · exact absurd rfl hne
    · exact .start (List.mem_append_right _ hmem) (hkeep hun hne)
  | @next source target _ hsucc hun ih =>
    -- a path that comes back to `reference` starts anew from what that leads to
    by_cases hsource : source = reference
    · subst hsource
      exact .start (List.mem_append_left _ hsucc) (hkeep hun hne)
    · exact (ih hsource).next hsucc (hkeep hun hne)

end Met

/-- A visit lists what is met and nothing else. -/
theorem mem_visit_iff (successors : String → List String) (unvisited pending : List String)
    (target : String) :
    target ∈ visit successors unvisited pending ↔ Met successors unvisited pending target := by
  -- the recursion of `visit`: an empty stack, a first visit, or a reference to pass over
  induction unvisited, pending using visit.induct successors with
  | case1 unvisited =>
    rw [visit]
    constructor
    · intro h
      cases h
    · intro h
      induction h with
      | start h _ => cases h
      | next _ _ _ ih => cases ih
  | case2 unvisited reference pending hun ih =>
    have hfirst : Met successors unvisited (reference :: pending) reference :=
      .start List.mem_cons_self hun
    rw [visit, if_pos hun, List.mem_cons, ih]
    constructor
    · rintro (rfl | h)
      · exact hfirst
      · -- what the rest of the visit starts from is met through `reference` or waited below it
        refine h.mono (fun x hx => (List.mem_filter.1 hx).1) fun x hx hfew => ?_
        have hxun : x ∈ unvisited := (List.mem_filter.1 hfew).1
        rcases List.mem_append.1 hx with hx | hx
        · exact hfirst.next hx hxun
        · exact .start (List.mem_cons_of_mem _ hx) hxun
    · intro h
      by_cases hne : target = reference
      · exact Or.inl hne
      · exact Or.inr (h.of_ne hne)
  | case3 unvisited reference pending hseen ih =>
    rw [visit, if_neg hseen, ih]
    constructor
    · exact fun h => h.mono (fun _ hx => hx) fun x hx hun => .start (List.mem_cons_of_mem _ hx) hun
    · refine fun h => h.mono (fun _ hx => hx) fun x hx hun => ?_
      rcases List.mem_cons.1 hx with rfl | hx
      · exact absurd hun hseen
      · exact .start hx hun

theorem nodup_visit (successors : String → List String) (unvisited pending : List String) :
    (visit successors unvisited pending).Nodup := by
  induction unvisited, pending using visit.induct successors with
  | case1 unvisited => rw [visit]; exact List.nodup_nil
  | case2 unvisited reference pending hun ih =>
    rw [visit, if_pos hun, List.nodup_cons]
    refine ⟨fun hmem => ?_, ih⟩
    -- what comes later is taken from a list without `reference`
    have hrest := ((mem_visit_iff _ _ _ _).1 hmem).mem_unvisited
    simpa using (List.mem_filter.1 hrest).2
  | case3 unvisited reference pending hseen ih => rw [visit, if_neg hseen]; exact ih

/-- A visit depends only on what can be met: on the successors there, and on which references there are
unvisited, not on the order they are listed in. -/
theorem visit_eq_of_closed {P : String → Prop} {successors others : String → List String}
    {unvisited rest pending : List String}
    (hclosed : ∀ x, P x → others x = successors x ∧ ∀ target ∈ successors x, P target)
    (hpending : ∀ x ∈ pending, P x) (hsame : ∀ x, P x → (x ∈ rest ↔ x ∈ unvisited)) :
    visit others rest pending = visit successors unvisited pending := by
  induction unvisited, pending using visit.induct successors generalizing rest with
  | case1 unvisited => rw [visit, visit]
  | case2 unvisited reference pending hun ih =>
    have hfirst : P reference := hpending reference List.mem_cons_self
    obtain ⟨hsucc, htargets⟩ := hclosed reference hfirst
    have hlonger : ∀ x ∈ successors reference ++ pending, P x := by
      intro x hx
      rcases List.mem_append.1 hx with hx | hx
      · exact htargets x hx
      · exact hpending x (List.mem_cons_of_mem _ hx)
    have hfewer : ∀ x, P x → (x ∈ without reference rest ↔ x ∈ without reference unvisited) := by
      intro x hx
      rw [without, without, List.mem_filter, List.mem_filter, hsame x hx]
    have hnext := ih hlonger hfewer
    rw [visit, visit, if_pos hun, if_pos ((hsame reference hfirst).2 hun), hsucc, hnext]
  | case3 unvisited reference pending hseen ih =>
    have hfirst : P reference := hpending reference List.mem_cons_self
    have hnext := ih (fun x hx => hpending x (List.mem_cons_of_mem _ hx)) hsame
    rw [visit, visit, if_neg hseen, if_neg fun hmem => hseen ((hsame reference hfirst).1 hmem), hnext]

namespace Registry

/-! ## The graph of references -/

/-- One reference leads to another: a class to its relations, its children and its union, and a node
that is no class to what the references under it mean in its document. -/
inductive Leads (registry : Registry) : String → String → Prop where
  | relation {reference target : String} {c : Class} {known : List String} :
    registry.class? reference = some c → registry.relations? reference = some known →
      target ∈ known → Leads registry reference target
  | child {reference target : String} {c : Class} :
    registry.class? reference = some c → target ∈ c.children → Leads registry reference target
  | union {reference target : String} {c : Class} :
    registry.class? reference = some c → c.unionParent? = some target →
      Leads registry reference target
  | below {reference text : String} {node : Document} :
    registry.class? reference = none → registry.node? reference = some node → text ∈ node.refs →
      Leads registry reference (Reference.resolve (Reference.document reference) text)

/-- What the whitelisted operations of a schema refer to themselves. -/
def Enters (registry : Registry) (schema : Schema) (reference : String) : Prop :=
  ∃ operation ∈ schema.operations, operation.path ∈ registry.whitelist ∧
    ∃ text ∈ operation.node.refs, Reference.resolve schema.origin text = reference

/-- What the whitelisted operations of a schema lead to, over any number of references. -/
def Reaches (registry : Registry) (schema : Schema) (reference : String) : Prop :=
  ∃ start, registry.Enters schema start ∧ Relation.ReflTransGen registry.Leads start reference

theorem mem_successors_iff {registry : Registry} {reference target : String} :
    target ∈ registry.successors reference ↔ registry.Leads reference target := by
  unfold successors
  cases hclass : registry.class? reference with
  | none =>
    constructor
    · intro h
      obtain ⟨text, htext, rfl⟩ := List.mem_map.1 h
      obtain ⟨node, hnode, hrefs⟩ := List.mem_flatMap.1 htext
      exact .below hclass (Option.mem_toList.1 hnode) hrefs
    · intro h
      cases h with
      | relation h _ _ => rw [hclass] at h; cases h
      | child h _ => rw [hclass] at h; cases h
      | union h _ => rw [hclass] at h; cases h
      | below _ hnode htext =>
        refine List.mem_map.2 ⟨_, List.mem_flatMap.2 ⟨_, ?_, htext⟩, rfl⟩
        exact Option.mem_toList.2 hnode
  | some c =>
    -- for a class the three lists are its three kinds of edges
    show target ∈ (registry.relations? reference).getD [] ++ c.children ++ c.unionParent?.toList ↔ _
    rw [List.mem_append, List.mem_append]
    constructor
    · rintro ((h | h) | h)
      · cases hknown : registry.relations? reference with
        | none => rw [hknown] at h; cases h
        | some known => rw [hknown] at h; exact .relation hclass hknown h
      · exact .child hclass h
      · exact .union hclass (Option.mem_toList.1 h)
    · intro h
      cases h with
      | relation _ hknown hmem => rw [hknown]; exact Or.inl (Or.inl hmem)
      | child h hmem => rw [hclass] at h; cases h; exact Or.inl (Or.inr hmem)
      | union h hparent =>
        rw [hclass] at h; cases h
        exact Or.inr (Option.mem_toList.2 hparent)
      | below h _ _ => rw [hclass] at h; cases h

theorem mem_entryPoints_iff {registry : Registry} {schema : Schema} {reference : String} :
    reference ∈ registry.entryPoints schema ↔ registry.Enters schema reference := by
  unfold entryPoints Enters
  simp only [List.mem_flatMap, List.mem_filter, decide_eq_true_eq, List.mem_map, and_assoc]

/-- Whatever a reference leads to is one of the finitely many linked references. -/
theorem mem_linked_of_leads {registry : Registry} {reference target : String}
    (h : registry.Leads reference target) : target ∈ registry.linked := by
  unfold linked
  rw [List.mem_append]
  cases h with
  | below _ hnode htext => exact Or.inl (mem_targets_of_node? hnode htext)
  | relation _ hknown hmem =>
    obtain ⟨owner, howner, hrelations⟩ := Option.bind_eq_some_iff.1 hknown
    refine Or.inr (List.mem_flatMap.2 ⟨owner, (mem_of_owner? howner).1, ?_⟩)
    exact List.mem_append_left _ (List.mem_flatMap.2 ⟨_, Schema.mem_of_relations? hrelations, hmem⟩)
  | child hclass hmem =>
    obtain ⟨schema, hschema, hc, _⟩ := mem_of_class? hclass
    refine Or.inr (List.mem_flatMap.2 ⟨schema, hschema, List.mem_append_right _ ?_⟩)
    exact List.mem_flatMap.2 ⟨_, hc, List.mem_append_left _ hmem⟩
  | union hclass hparent =>
    obtain ⟨schema, hschema, hc, _⟩ := mem_of_class? hclass
    refine Or.inr (List.mem_flatMap.2 ⟨schema, hschema, List.mem_append_right _ ?_⟩)
    exact List.mem_flatMap.2 ⟨_, hc, List.mem_append_right _ (Option.mem_toList.2 hparent)⟩

/-! ## What is marked -/

/-- Among the references that `marked` may visit, what is met is what is reached. -/
theorem met_iff_reaches {registry : Registry} {schema : Schema} {reference : String} :
    Met (fun x => (registry.successors x).reverse)
        ((registry.entryPoints schema).reverse ++ registry.linked)
        (registry.entryPoints schema).reverse reference ↔
      registry.Reaches schema reference := by
  constructor
  · intro h
    induction h with
    | start hmem _ =>
      exact ⟨_, mem_entryPoints_iff.1 (List.mem_reverse.1 hmem), .refl⟩
    | next _ hsucc _ ih =>
      obtain ⟨start, hstart, hpath⟩ := ih
      exact ⟨start, hstart, hpath.tail (mem_successors_iff.1 (List.mem_reverse.1 hsucc))⟩
  · rintro ⟨start, hstart, hpath⟩
    induction hpath with
    | refl =>
      have hmem := List.mem_reverse.2 (mem_entryPoints_iff.2 hstart)
      exact .start hmem (List.mem_append_left _ hmem)
    | tail _ hleads ih =>
      refine ih.next (List.mem_reverse.2 (mem_successors_iff.2 hleads)) ?_
      exact List.mem_append_right _ (mem_linked_of_leads hleads)

theorem mem_marked_iff {registry : Registry} {schema : Schema} {reference : String} :
    reference ∈ registry.marked schema ↔
      registry.hasClass reference ∧ registry.Reaches schema reference := by
  unfold marked
  rw [List.mem_filter, mem_visit_iff, met_iff_reaches, and_comm]

theorem nodup_marked (registry : Registry) (schema : Schema) : (registry.marked schema).Nodup :=
  (nodup_visit _ _ _).filter _

end Registry

/-! ## The marking loop -/

/-- Where the marking loop stands: its stack, the top first, the references seen so far that are no
classes, and the classes needed so far, in the order they were met. -/
structure Marking where
  pending : List String
  seen : List String := []
  needed : List String := []

namespace Marking

/-- The loop begins with what the whitelisted operations of a schema refer to, the last on top. -/
def start (registry : Registry) (schema : Schema) : Marking where
  pending := (registry.entryPoints schema).reverse

/-- Whether a reference has not been on top of the stack before. -/
def IsNew (registry : Registry) (state : Marking) (reference : String) : Prop :=
  if registry.hasClass reference then reference ∉ state.needed else reference ∉ state.seen

/-- One turn of the loop: the top of the stack is taken, and if it is new it is noted and all it leads
to is put on the stack. With an empty stack nothing happens. -/
def turn (registry : Registry) (state : Marking) : Marking :=
  match state.pending with
  | [] => state
  | reference :: pending =>
    let longer := (registry.successors reference).reverse ++ pending
    if registry.hasClass reference then
      if reference ∈ state.needed then { state with pending }
      else { state with pending := longer, needed := state.needed ++ [reference] }
    else if reference ∈ state.seen then { state with pending }
    else { state with pending := longer, seen := reference :: state.seen }

variable {registry : Registry} {state : Marking} {reference : String} {pending : List String}

theorem turn_of_not_isNew (hstack : state.pending = reference :: pending)
    (hold : ¬ state.IsNew registry reference) : state.turn registry = { state with pending } := by
  unfold turn
  rw [hstack]
  unfold IsNew at hold
  by_cases hclass : registry.hasClass reference
  · rw [if_pos hclass, not_not] at hold
    simp [hclass, hold]
  · rw [if_neg hclass, not_not] at hold
    simp [hclass, hold]

/-- After a turn with a new reference on top, the same references are new but that one. -/
theorem turn_of_isNew (hstack : state.pending = reference :: pending)
    (hnew : state.IsNew registry reference) :
    (state.turn registry).pending = (registry.successors reference).reverse ++ pending ∧
      (state.turn registry).needed = state.needed ++ [reference].filter registry.hasClass ∧
      ∀ x, (state.turn registry).IsNew registry x ↔ state.IsNew registry x ∧ x ≠ reference := by
  unfold IsNew at hnew
  by_cases hclass : registry.hasClass reference
  · rw [if_pos hclass] at hnew
    have hturn : state.turn registry =
        { state with
          pending := (registry.successors reference).reverse ++ pending
          needed := state.needed ++ [reference] } := by
      unfold turn
      simp only [hstack, hclass, hnew, if_true, if_false]
    rw [hturn]
    refine ⟨rfl, by simp [hclass], fun x => ?_⟩
    unfold IsNew
    -- being a class decides which of the two sets counts, and only one of them has grown
    by_cases hx : registry.hasClass x
    · simp [hx]
    · have hne : x ≠ reference := fun h => hx (h ▸ hclass)
      simp [hx, hne]
  · rw [if_neg hclass] at hnew
    have hturn : state.turn registry =
        { state with
          pending := (registry.successors reference).reverse ++ pending
          seen := reference :: state.seen } := by
      unfold turn
      simp only [hstack, hclass, hnew, if_false, Bool.false_eq_true]
    rw [hturn]
    refine ⟨rfl, by simp [hclass], fun x => ?_⟩
    unfold IsNew
    by_cases hx : registry.hasClass x
    · have hne : x ≠ reference := fun h => hclass (h ▸ hx)
      simp [hx, hne]
    · simp [hx, and_comm]

/-- The loop ends from every state, and then it has added the classes that a visit lists. The visit may
go wherever a new reference can come from: the stack and the linked references. -/
theorem exists_turns_of_visit (registry : Registry) (unvisited pending : List String)
    (state : Marking) (hstack : state.pending = pending)
    (hsound : ∀ x ∈ unvisited, state.IsNew registry x)
    (hstackIn : ∀ x ∈ pending, state.IsNew registry x → x ∈ unvisited)
    (hlinkedIn : ∀ x ∈ registry.linked, state.IsNew registry x → x ∈ unvisited) :
    ∃ turns, ((turn registry)^[turns] state).pending = [] ∧
      ((turn registry)^[turns] state).needed =
        state.needed ++
          (visit (fun x => (registry.successors x).reverse) unvisited pending).filter
            registry.hasClass := by
  induction unvisited, pending using visit.induct (fun x => (registry.successors x).reverse)
    generalizing state with
  | case1 unvisited => exact ⟨0, hstack, by simp [visit]⟩
  | case2 unvisited reference pending hun ih =>
    obtain ⟨hpending, hneeded, hisNew⟩ := turn_of_isNew hstack (hsound _ hun)
    have hkeep : ∀ x, (state.turn registry).IsNew registry x →
        (state.IsNew registry x → x ∈ unvisited) → x ∈ without reference unvisited := by
      intro x hx hmem
      obtain ⟨hold, hne⟩ := (hisNew x).1 hx
      exact List.mem_filter.2 ⟨hmem hold, by simpa using hne⟩
    -- the new stack holds what was below the top, and linked references that the top leads to
    obtain ⟨turns, hend, hlist⟩ := ih (state.turn registry) hpending
      (fun x hx => by
        obtain ⟨hmem, hne⟩ := List.mem_filter.1 hx
        exact (hisNew x).2 ⟨hsound x hmem, by simpa using hne⟩)
      (fun x hx hnew => hkeep x hnew fun hold => by
        rcases List.mem_append.1 hx with hx | hx
        · have hleads := Registry.mem_successors_iff.1 (List.mem_reverse.1 hx)
          exact hlinkedIn x (Registry.mem_linked_of_leads hleads) hold
        · exact hstackIn x (List.mem_cons_of_mem _ hx) hold)
      (fun x hx hnew => hkeep x hnew (hlinkedIn x hx))
    refine ⟨turns + 1, ?_, ?_⟩
    · rw [Function.iterate_succ_apply]
      exact hend
    · rw [Function.iterate_succ_apply, hlist, hneeded, visit, if_pos hun, List.append_assoc,
        ← List.filter_append, List.singleton_append]
  | case3 unvisited reference pending hseen ih =>
    -- a reference that the visit passes over is not new to the loop either
    have hold : ¬ state.IsNew registry reference :=
      fun hnew => hseen (hstackIn _ List.mem_cons_self hnew)
    have hturn := turn_of_not_isNew hstack hold
    obtain ⟨turns, hend, hlist⟩ := ih { state with pending } rfl hsound
      (fun x hx => hstackIn x (List.mem_cons_of_mem _ hx)) hlinkedIn
    refine ⟨turns + 1, ?_, ?_⟩
    · rw [Function.iterate_succ_apply, hturn]
      exact hend
    · rw [Function.iterate_succ_apply, hturn, hlist, visit, if_neg hseen]

/-- From the operations of a schema on, the loop ends and has then listed the marked classes. -/
theorem exists_turns (registry : Registry) (schema : Schema) :
    ∃ turns, ((turn registry)^[turns] (start registry schema)).pending = [] ∧
      ((turn registry)^[turns] (start registry schema)).needed = registry.marked schema := by
  have hnew : ∀ x, (start registry schema).IsNew registry x := by
    intro x
    unfold IsNew start
    split <;> exact List.not_mem_nil
  obtain ⟨turns, hend, hlist⟩ := exists_turns_of_visit registry
    ((registry.entryPoints schema).reverse ++ registry.linked) (registry.entryPoints schema).reverse
    (start registry schema) rfl (fun x _ => hnew x) (fun x hx _ => List.mem_append_left _ hx)
    (fun x hx _ => List.mem_append_right _ hx)
  exact ⟨turns, hend, by rw [hlist]; rfl⟩

end Marking

namespace Registry

/-- Marking a schema comes to an end, with a list in which no reference stands twice and in which
exactly those classes stand that its whitelisted operations reach. -/
theorem marking_exact {registry : Registry} {origin : String} {schema : Schema}
    (h : registry.schema? origin = some schema) :
    (∃ turns, ((Marking.turn registry)^[turns] (Marking.start registry schema)).pending = [] ∧
      ((Marking.turn registry)^[turns] (Marking.start registry schema)).needed =
        registry.marked schema) ∧
      (registry.marked schema).Nodup ∧
      ∀ reference, reference ∈ registry.marked schema ↔
        registry.hasClass reference ∧
          ∃ start, (∃ operation ∈ schema.operations, operation.path ∈ registry.whitelist ∧
              ∃ text ∈ operation.node.refs, Reference.resolve origin text = start) ∧
            Relation.ReflTransGen registry.Leads start reference := by
  refine ⟨Marking.exists_turns registry schema, nodup_marked registry schema, fun reference => ?_⟩
  rw [mem_marked_iff, Reaches, ← (mem_of_schema? h).2]
  rfl

/-- A document with one class of a ring, and with an operation that leads into the ring by a node that is
no class. -/
def ringEntry : Schema where
  origin := "a"
  rootName := "Root"
  parsed := some (.map [("shared", .map [("$ref", .string "#/A")])])
  classes := [⟨"a#/A", "A", .null, [], [], [], .plain none⟩]
  operations := [⟨"get", "/x", "a#", .map [("$ref", .string "#/shared")]⟩]
  relations := [("a#/A", ["b#/B"])]

/-- The ring: its other class is a union of another document, and one class there is not needed. -/
def ring : Registry where
  schemas := [
    ringEntry,
    { origin := "b"
      rootName := "Root"
      classes := [
        ⟨"b#/B", "B", .null, [], [], [], .union "kind" ["a#/A"]⟩,
        ⟨"b#/C", "C", .null, [], [], [], .plain none⟩] }]
  whitelist := ["/x"]

theorem marking_exact_ring :
    ring.schema? "a" = some ringEntry ∧ (ring.marked ringEntry).Nodup ∧
      "b#/B" ∈ ring.marked ringEntry := by
  have hentry : ring.schema? "a" = some ringEntry := rfl
  obtain ⟨_, hnodup, hexact⟩ := marking_exact hentry
  have hstart : ∃ operation ∈ ringEntry.operations, operation.path ∈ ring.whitelist ∧
      ∃ text ∈ operation.node.refs, Reference.resolve "a" text = "a#/shared" :=
    ⟨_, List.mem_cons_self, by decide, "#/shared", by decide +kernel, by decide +kernel⟩
  have hshared : ring.Leads "a#/shared" "a#/A" := mem_successors_iff.1 (by decide +kernel)
  have hring : ring.Leads "a#/A" "b#/B" := mem_successors_iff.1 (by decide +kernel)
  exact ⟨hentry, hnodup, (hexact "b#/B").2
    ⟨by decide +kernel, "a#/shared", hstart, .tail (.single hshared) hring⟩⟩

end Registry

end ApiModel
