import ApiModel.Proofs.Document
import ApiModel.Proofs.Yaml.Node
import ApiModel.Yaml.Graph

/-!
# YAML texts give well-formed documents

Numbering the aliases of a document leaves the lengths of its sequences alone. Following an alias comes to a
node of the same document, so an array has no more items than a sequence of the document, and hence than the
text has characters. An object is made from its keys and values in turn, which leaves each key in it once
(`wellFormed_parse?`).
-/

namespace ApiModel.Yaml

open Document (wellFormed_list wellFormed_ofEntries)

variable {bound : Nat}

/-! ## Scalars -/

theorem wellFormed_float? {text : String} {value : Document} (h : float? text = some value) :
    value.WellFormed := by
  unfold float? at h
  split at h
  · cases h
    trivial
  · obtain ⟨magnitude, -, h⟩ := Option.bind_eq_some_iff.1 h
    obtain ⟨-, h⟩ := Option.ite_none_right_eq_some.1 h
    cases h
    trivial

theorem wellFormed_ofInteger? {n : Int} {value : Document} (h : ofInteger? n = some value) :
    value.WellFormed := by
  obtain ⟨-, h⟩ := Option.ite_none_right_eq_some.1 h
  cases h
  trivial

theorem wellFormed_plainValue? {text : String} {value : Document} (h : plainValue? text = some value) :
    value.WellFormed := by
  unfold plainValue? at h
  split at h
  · cases h
    trivial
  split at h
  · cases h
    trivial
  split at h
  · exact wellFormed_ofInteger? h
  split at h
  · cases h
    trivial
  · cases hfloat : float? text with
    | none =>
      rw [hfloat] at h
      cases h
      trivial
    | some number =>
      rw [hfloat] at h
      cases h
      exact wellFormed_float? hfloat

theorem wellFormed_scalarValue? {props : Props} {style : Style} {text : String} {value : Document}
    (h : scalarValue? props style text = some value) : value.WellFormed := by
  unfold scalarValue? at h
  split at h
  · split at h
    · exact wellFormed_plainValue? h
    · cases h
      trivial
  split at h
  · cases h
  split at h
  · obtain ⟨_, -, rfl⟩ := Option.map_eq_some_iff.1 h
    trivial
  split at h
  · obtain ⟨_, -, h⟩ := Option.bind_eq_some_iff.1 h
    exact wellFormed_ofInteger? h
  split at h
  · exact wellFormed_float? h
  split at h
  · obtain ⟨-, h⟩ := Option.ite_none_right_eq_some.1 h
    cases h
    trivial
  · cases h
    trivial

/-! ## Numbered aliases -/

namespace Node

/-- All targets are bounded. -/
def BoundedTargets (bound : Nat) (targets : Targets) : Prop :=
  ∀ target ∈ targets, target.2.Bounded bound

theorem boundedTargets_target (number : Option Nat) {node : Node Nat} (h : node.Bounded bound) :
    BoundedTargets bound (target number node) := by
  intro pair hpair
  obtain ⟨n, -, rfl⟩ := Option.map_eq_some_iff.1 (Option.mem_toList.1 hpair)
  exact h

theorem BoundedTargets.append {before after : Targets} (hbefore : BoundedTargets bound before)
    (hafter : BoundedTargets bound after) : BoundedTargets bound (before ++ after) :=
  fun target htarget => (List.mem_append.1 htarget).elim (hbefore target) (hafter target)

mutual

theorem bounded_link? {names : Names} :
    ∀ {node : Node String} {linked : Node Nat × Targets × Names}, node.Bounded bound →
      link? names node = some linked → linked.1.Bounded bound ∧ BoundedTargets bound linked.2.1
  | .alias name, linked, _, h => by
    rw [link?] at h
    obtain ⟨n, -, rfl⟩ := Option.map_eq_some_iff.1 h
    exact ⟨.aliased n, by simp [BoundedTargets]⟩
  | .scalar props style text, linked, _, h => by
    rw [link?] at h
    cases h
    exact ⟨.scalar props style text, boundedTargets_target _ (.scalar props style text)⟩
  | .sequence props items, linked, .sequence _ hcount hitems, h => by
    rw [link?] at h
    obtain ⟨⟨others, targets, after⟩, hlink, rfl⟩ := Option.map_eq_some_iff.1 h
    obtain ⟨hlength, hall, htargets⟩ := bounded_linkItems? hitems hlink
    have hnode : (Node.sequence props others).Bounded bound := .sequence props (hlength ▸ hcount) hall
    exact ⟨hnode, (boundedTargets_target _ hnode).append htargets⟩
  | .mapping props entries, linked, .mapping _ hkeys hvalues, h => by
    rw [link?] at h
    obtain ⟨⟨others, targets, after⟩, hlink, rfl⟩ := Option.map_eq_some_iff.1 h
    obtain ⟨hkeys', hvalues', htargets⟩ := bounded_linkEntries? hkeys hvalues hlink
    have hnode : (Node.mapping props others).Bounded bound := .mapping props hkeys' hvalues'
    exact ⟨hnode, (boundedTargets_target _ hnode).append htargets⟩

theorem bounded_linkItems? {names : Names} :
    ∀ {items : List (Node String)} {linked : List (Node Nat) × Targets × Names},
      (∀ item ∈ items, item.Bounded bound) → linkItems? names items = some linked →
        linked.1.length = items.length ∧ (∀ item ∈ linked.1, item.Bounded bound) ∧
          BoundedTargets bound linked.2.1
  | [], linked, _, h => by
    rw [linkItems?] at h
    cases h
    exact ⟨rfl, by simp, by simp [BoundedTargets]⟩
  | item :: rest, linked, hitems, h => by
    rw [linkItems?] at h
    obtain ⟨⟨first, before, names'⟩, hfirst, h⟩ := Option.bind_eq_some_iff.1 h
    obtain ⟨⟨others, after, names''⟩, hothers, rfl⟩ := Option.map_eq_some_iff.1 h
    obtain ⟨hitem, hrest⟩ := List.forall_mem_cons.1 hitems
    obtain ⟨hnode, hbefore⟩ := bounded_link? hitem hfirst
    obtain ⟨hlength, hall, hafter⟩ := bounded_linkItems? hrest hothers
    exact ⟨congrArg (· + 1) hlength, List.forall_mem_cons.2 ⟨hnode, hall⟩, hbefore.append hafter⟩

theorem bounded_linkEntries? {names : Names} :
    ∀ {entries : List (Node String × Node String)}
      {linked : List (Node Nat × Node Nat) × Targets × Names},
      (∀ entry ∈ entries, entry.1.Bounded bound) → (∀ entry ∈ entries, entry.2.Bounded bound) →
        linkEntries? names entries = some linked →
          (∀ entry ∈ linked.1, entry.1.Bounded bound) ∧ (∀ entry ∈ linked.1, entry.2.Bounded bound) ∧
            BoundedTargets bound linked.2.1
  | [], linked, _, _, h => by
    rw [linkEntries?] at h
    cases h
    exact ⟨by simp, by simp, by simp [BoundedTargets]⟩
  | (key, value) :: rest, linked, hkeys, hvalues, h => by
    rw [linkEntries?] at h
    obtain ⟨⟨key', ofKey, names'⟩, hkey, h⟩ := Option.bind_eq_some_iff.1 h
    obtain ⟨⟨value', ofValue, names''⟩, hvalue, h⟩ := Option.bind_eq_some_iff.1 h
    obtain ⟨⟨others, after, _⟩, hothers, rfl⟩ := Option.map_eq_some_iff.1 h
    obtain ⟨hfirstKey, hrestKeys⟩ := List.forall_mem_cons.1 hkeys
    obtain ⟨hfirstValue, hrestValues⟩ := List.forall_mem_cons.1 hvalues
    obtain ⟨hnodeKey, hofKey⟩ := bounded_link? hfirstKey hkey
    obtain ⟨hnodeValue, hofValue⟩ := bounded_link? hfirstValue hvalue
    obtain ⟨hallKeys, hallValues, hafter⟩ := bounded_linkEntries? hrestKeys hrestValues hothers
    exact ⟨List.forall_mem_cons.2 ⟨hnodeKey, hallKeys⟩, List.forall_mem_cons.2 ⟨hnodeValue, hallValues⟩,
      (hofKey.append hofValue).append hafter⟩

end

end Node

/-! ## Values -/

namespace Graph

variable {graph : Graph} {depth : Nat}

/-- The root and all that aliases stand for are bounded. -/
structure Bounded (bound : Nat) (graph : Graph) : Prop where
  root : graph.root.Bounded bound
  targets : Node.BoundedTargets bound graph.targets

theorem bounded_ofNode? {node : Node String} (hnode : node.Bounded bound) (h : ofNode? node = some graph) :
    graph.Bounded bound := by
  obtain ⟨linked, hlink, rfl⟩ := Option.map_eq_some_iff.1 h
  obtain ⟨hroot, htargets⟩ := Node.bounded_link? hnode hlink
  exact ⟨hroot, htargets⟩

theorem Bounded.follow? (hgraph : graph.Bounded bound) {node : Node Nat} {jumps : Nat}
    {followed : Node Nat × Nat} (hnode : node.Bounded bound)
    (h : graph.follow? node jumps = some followed) : followed.1.Bounded bound := by
  unfold Graph.follow? at h
  split at h
  · next number =>
    obtain ⟨-, h⟩ := Option.ite_none_right_eq_some.1 h
    obtain ⟨target, hlookup, rfl⟩ := Option.map_eq_some_iff.1 h
    obtain ⟨before, after, hsplit, -⟩ := List.lookup_eq_some_iff.1 hlookup
    have hmem : (number, target) ∈ graph.targets.reverse :=
      hsplit ▸ List.mem_append_right before List.mem_cons_self
    exact hgraph.targets _ (List.mem_reverse.1 hmem)
  · cases h
    exact hnode

/-- All that bounded nodes stand for at a depth is well-formed. -/
def ValuesWellFormed (bound : Nat) (graph : Graph) (depth : Nat) : Prop :=
  ∀ node jumps, node.Bounded bound → ∀ result ∈ graph.value? depth node jumps, result.1.WellFormed

theorem ValuesWellFormed.values? (h : graph.ValuesWellFormed bound depth) {items : List (Node Nat)}
    (hitems : ∀ item ∈ items, item.Bounded bound) {jumps : Nat} {result : List Document × Nat}
    (hvalues : graph.values? depth items jumps = some result) :
    result.1.length = items.length ∧ ∀ value ∈ result.1, value.WellFormed := by
  induction items generalizing jumps result with
  | nil =>
    rw [Graph.values?] at hvalues
    cases hvalues
    exact ⟨rfl, by simp⟩
  | cons item rest ih =>
    rw [Graph.values?] at hvalues
    obtain ⟨⟨first, jumps'⟩, hfirst, hvalues⟩ := Option.bind_eq_some_iff.1 hvalues
    obtain ⟨⟨others, jumps''⟩, hothers, rfl⟩ := Option.map_eq_some_iff.1 hvalues
    obtain ⟨hitem, hrest⟩ := List.forall_mem_cons.1 hitems
    obtain ⟨hlength, hall⟩ := ih hrest hothers
    exact ⟨congrArg (· + 1) hlength, List.forall_mem_cons.2 ⟨h item jumps hitem _ hfirst, hall⟩⟩

theorem ValuesWellFormed.pairs? (h : graph.ValuesWellFormed bound depth)
    {entries : List (Node Nat × Node Nat)} (hentries : ∀ entry ∈ entries, entry.2.Bounded bound)
    {jumps : Nat} {result : List (String × Document) × Nat}
    (hpairs : graph.pairs? depth entries jumps = some result) :
    ∀ pair ∈ result.1, pair.2.WellFormed := by
  induction entries generalizing jumps result with
  | nil =>
    rw [Graph.pairs?] at hpairs
    cases hpairs
    simp
  | cons entry rest ih =>
    rw [Graph.pairs?] at hpairs
    obtain ⟨⟨key, jumps'⟩, -, hpairs⟩ := Option.bind_eq_some_iff.1 hpairs
    obtain ⟨⟨value, jumps''⟩, hvalue, hpairs⟩ := Option.bind_eq_some_iff.1 hpairs
    obtain ⟨⟨others, _⟩, hothers, rfl⟩ := Option.map_eq_some_iff.1 hpairs
    obtain ⟨hentry, hrest⟩ := List.forall_mem_cons.1 hentries
    exact List.forall_mem_cons.2 ⟨h entry.2 jumps' hentry _ hvalue, ih hrest hothers⟩

/-- The values at a depth are well-formed if those one level down are. -/
theorem Bounded.valuesWellFormed_of_inner (hgraph : graph.Bounded bound) (hbound : bound ≤ 2 ^ 64)
    (hinner : ∀ inner, depth = inner + 1 → graph.ValuesWellFormed bound inner) :
    graph.ValuesWellFormed bound depth := by
  intro node jumps hnode result h
  unfold Graph.value? at h
  split at h
  · cases h
  · cases h
  · obtain ⟨value, hvalue, rfl⟩ := Option.map_eq_some_iff.1 h
    exact wellFormed_scalarValue? hvalue
  · next hfollow =>
    obtain ⟨⟩ | ⟨⟩ | ⟨_, hcount, hitems⟩ := hgraph.follow? hnode hfollow
    split at h
    · cases h
    · next inner =>
      obtain ⟨-, h⟩ := Option.ite_none_left_eq_some.1 h
      obtain ⟨⟨items, _⟩, hvalues, rfl⟩ := Option.map_eq_some_iff.1 h
      obtain ⟨hlength, hall⟩ := (hinner inner rfl).values? hitems hvalues
      exact wellFormed_list.2 ⟨by dsimp only at hlength; omega, hall⟩
  · next hfollow =>
    obtain ⟨⟩ | ⟨⟩ | ⟨⟩ | ⟨_, hkeys, hvalues⟩ := hgraph.follow? hnode hfollow
    split at h
    · cases h
    · next inner =>
      obtain ⟨-, h⟩ := Option.ite_none_left_eq_some.1 h
      obtain ⟨⟨pairs, _⟩, hpairs, rfl⟩ := Option.map_eq_some_iff.1 h
      exact wellFormed_ofEntries ((hinner inner rfl).pairs? hvalues hpairs)

/-- All values are well-formed. The induction is on how deep collections may nest and not on the node, since
an alias may lead back to a node around it. -/
theorem Bounded.valuesWellFormed (hgraph : graph.Bounded bound) (hbound : bound ≤ 2 ^ 64) (depth : Nat) :
    graph.ValuesWellFormed bound depth := by
  induction depth with
  | zero => exact hgraph.valuesWellFormed_of_inner hbound (by omega)
  | succ depth ih =>
    refine hgraph.valuesWellFormed_of_inner hbound fun inner heq => ?_
    cases heq
    exact ih

end Graph

/-! ## Texts -/

/-- The document that is read from a YAML text is well-formed. -/
theorem wellFormed_parse? {text : String} (hlength : text.length ≤ 2 ^ 64) {value : Document}
    (h : parse? text = some value) : value.WellFormed := by
  obtain ⟨found, hgraph, h⟩ := Option.bind_eq_some_iff.1 h
  obtain ⟨read, hread, hgraph⟩ := Option.bind_eq_some_iff.1 hgraph
  obtain ⟨tokens, htokens, hread⟩ := Option.bind_eq_some_iff.1 hread
  have hmarks := marks_of_tokens? htokens
  cases read with
  | none =>
    cases hgraph
    cases h
    trivial
  | some node =>
    obtain ⟨graph, hnode, rfl⟩ := Option.map_eq_some_iff.1 hgraph
    obtain ⟨result, hvalue, rfl⟩ := Option.map_eq_some_iff.1 h
    have hbounded := Graph.bounded_ofNode? (Node.bounded_of_ofTokens? hread) hnode
    exact hbounded.valuesWellFormed (Nat.le_trans hmarks hlength) maxDepth graph.root 0 hbounded.root
      result hvalue

end ApiModel.Yaml
