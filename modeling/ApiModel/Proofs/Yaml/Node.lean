import ApiModel.Proofs.Yaml.Tokens
import ApiModel.Yaml.Node

/-!
# How many items the sequences of a text have

Each item of a sequence takes a mark from the tokens, and a reader leaves no more marks than it meets. So no
sequence that is read, at whatever depth, has more items than the tokens have marks (`bounded_of_ofTokens?`).
-/

namespace ApiModel.Yaml.Node

/-! ## Bounded nodes -/

/-- No sequence in a node has more items than `bound`. -/
inductive Bounded {α : Type} (bound : Nat) : Node α → Prop where
  | aliased (target : α) : Bounded bound (.alias target)
  | scalar (props : Props) (style : Style) (text : String) : Bounded bound (.scalar props style text)
  | sequence (props : Props) {items : List (Node α)} (hcount : items.length ≤ bound)
      (hitems : ∀ item ∈ items, Bounded bound item) : Bounded bound (.sequence props items)
  | mapping (props : Props) {entries : List (Node α × Node α)}
      (hkeys : ∀ entry ∈ entries, Bounded bound entry.1)
      (hvalues : ∀ entry ∈ entries, Bounded bound entry.2) : Bounded bound (.mapping props entries)

variable {bound more : Nat}

theorem Bounded.mono {α : Type} {node : Node α} (h : node.Bounded bound) (hle : bound ≤ more) :
    node.Bounded more := by
  induction h with
  | aliased target => exact .aliased target
  | scalar props style text => exact .scalar props style text
  | sequence props hcount _ ih => exact .sequence props (Nat.le_trans hcount hle) ih
  | mapping props _ _ ihkeys ihvalues => exact .mapping props ihkeys ihvalues

section

variable {node item key value : Node String} {items : List (Node String)}
  {entries : List (Node String × Node String)} {rest : List Token}

/-- A node is bounded, and no more marks come after it. -/
structure NodeWithin (bound : Nat) (node : Node String) (rest : List Token) : Prop where
  marks : marks rest ≤ bound
  node : node.Bounded bound

/-- Items are bounded, and so are their number and the marks after them taken together. The first item may
have its mark from the tokens that have been `passed`. -/
structure ItemsWithin (bound passed : Nat) (items : List (Node String)) (rest : List Token) : Prop where
  marks : items.length + marks rest ≤ bound + passed
  items : ∀ item ∈ items, item.Bounded bound

/-- Keys and values are bounded, and no more marks come after them. -/
structure EntriesWithin (bound : Nat) (entries : List (Node String × Node String))
    (rest : List Token) : Prop where
  marks : marks rest ≤ bound
  keys : ∀ entry ∈ entries, entry.1.Bounded bound
  values : ∀ entry ∈ entries, entry.2.Bounded bound

theorem NodeWithin.mono (h : NodeWithin bound node rest) (hle : bound ≤ more) : NodeWithin more node rest :=
  ⟨Nat.le_trans h.marks hle, h.node.mono hle⟩

theorem NodeWithin.empty (props : Props) (h : Yaml.marks rest ≤ bound) :
    NodeWithin bound (empty props) rest :=
  ⟨h, .scalar props .plain ""⟩

theorem ItemsWithin.mono {passed spare : Nat} (h : ItemsWithin bound passed items rest) (hle : bound ≤ more)
    (hcount : bound + passed ≤ more + spare) : ItemsWithin more spare items rest :=
  ⟨Nat.le_trans h.marks hcount, fun item hitem => (h.items item hitem).mono hle⟩

theorem ItemsWithin.nil {passed : Nat} (h : Yaml.marks rest ≤ bound) : ItemsWithin bound passed [] rest :=
  ⟨by rw [List.length_nil]; omega, by simp⟩

/-- An item, whose mark has been passed, and the items behind it. -/
theorem ItemsWithin.cons {after : List Token} (h : ItemsWithin (Yaml.marks after) 0 items rest)
    (hitem : NodeWithin bound item after) : ItemsWithin bound 1 (item :: items) rest := by
  have hmarks := h.marks
  have hafter := hitem.marks
  refine ⟨by rw [List.length_cons]; omega, List.forall_mem_cons.2 ⟨hitem.node, ?_⟩⟩
  exact fun other hother => (h.items other hother).mono hafter

theorem ItemsWithin.sequence {passed : Nat} (h : ItemsWithin bound passed items rest) (props : Props)
    (hle : bound + passed ≤ more) : NodeWithin more (.sequence props items) rest := by
  have hmarks := h.marks
  exact ⟨by omega, .sequence props (by omega) fun item hitem => (h.items item hitem).mono (by omega)⟩

theorem EntriesWithin.mono (h : EntriesWithin bound entries rest) (hle : bound ≤ more) :
    EntriesWithin more entries rest where
  marks := Nat.le_trans h.marks hle
  keys := fun entry hentry => (h.keys entry hentry).mono hle
  values := fun entry hentry => (h.values entry hentry).mono hle

theorem EntriesWithin.nil (h : Yaml.marks rest ≤ bound) : EntriesWithin bound [] rest :=
  ⟨h, by simp, by simp⟩

/-- A key, the value behind it, and the entries behind that. -/
theorem EntriesWithin.cons {afterKey afterValue : List Token}
    (h : EntriesWithin (Yaml.marks afterValue) entries rest) (hkey : NodeWithin bound key afterKey)
    (hvalue : NodeWithin (Yaml.marks afterKey) value afterValue) :
    EntriesWithin bound ((key, value) :: entries) rest := by
  have hafter := Nat.le_trans hvalue.marks hkey.marks
  have hmore := h.mono hafter
  exact ⟨hmore.marks, List.forall_mem_cons.2 ⟨hkey.node, hmore.keys⟩,
    List.forall_mem_cons.2 ⟨hvalue.node.mono hkey.marks, hmore.values⟩⟩

theorem EntriesWithin.mapping (h : EntriesWithin bound entries rest) (props : Props)
    (hle : bound ≤ more) : NodeWithin more (.mapping props entries) rest :=
  NodeWithin.mono ⟨h.marks, .mapping props h.keys h.values⟩ hle

end

/-! ## Readers -/

/-- Whatever is read has a property, together with the tokens after it. -/
def Reads {β : Type} {tokens : List Token} (P : β → List Token → Prop) (reading : Reading β tokens) : Prop :=
  ∀ value rest hle, reading = some ⟨(value, rest), hle⟩ → P value rest

section

variable {β γ : Type} {tokens inner : List Token} {P : β → List Token → Prop} {Q : γ → List Token → Prop}

theorem Reads.some {value : β} {rest : List Token} {hle : rest.length ≤ tokens.length} (h : P value rest) :
    Reads P (some ⟨(value, rest), hle⟩ : Reading β tokens) := by
  intro value rest hle heq
  cases heq
  exact h

theorem Reads.none : Reads P (none : Reading β tokens) := by
  intro value rest hle h
  cases h

theorem Reads.bind {reading : Reading β inner}
    {next : { taken : β × List Token // taken.2.length ≤ inner.length } → Reading γ tokens}
    (h : Reads P reading) (hnext : ∀ value rest hle, P value rest → Reads Q (next ⟨(value, rest), hle⟩)) :
    Reads Q (reading >>= next) := by
  intro value rest hle hbind
  obtain ⟨⟨⟨before, after⟩, hless⟩, hreading, hafter⟩ := Option.bind_eq_some_iff.1 hbind
  exact hnext before after hless (h before after hless hreading) value rest hle hafter

/-- The comma between two entries is a mark. -/
theorem Reads.separated {isFirst : Bool}
    {next : { start : List Token // start.length + (if isFirst then 0 else 1) ≤ tokens.length } →
      Reading γ tokens}
    (hnext : ∀ start hle, marks start + (if isFirst then 0 else 1) ≤ marks tokens →
      Reads Q (next ⟨start, hle⟩)) : Reads Q (separated? isFirst tokens >>= next) := by
  intro value rest hle hbind
  obtain ⟨⟨start, hstart⟩, hseparated, hafter⟩ := Option.bind_eq_some_iff.1 hbind
  refine hnext start hstart ?_ value rest hle hafter
  unfold separated? at hseparated
  split at hseparated
  · cases hseparated
    exact Nat.le_refl _
  · cases hseparated
    exact Nat.le_of_eq (marks_cons_of_isMark rfl).symm
  · cases hseparated

theorem reads_props? (handles : List (String × String)) :
    Reads (fun _ rest => marks rest ≤ marks tokens) (props? handles tokens) := by
  intro props rest hle h
  unfold props? at h
  split at h
  · obtain ⟨tag, -, h⟩ := Option.map_eq_some_iff.1 h
    cases h
    exact Nat.le_trans marks_le_cons marks_le_cons
  · obtain ⟨tag, -, h⟩ := Option.map_eq_some_iff.1 h
    cases h
    exact Nat.le_trans marks_le_cons marks_le_cons
  · cases h
    exact marks_le_cons
  · obtain ⟨tag, -, h⟩ := Option.map_eq_some_iff.1 h
    cases h
    exact marks_le_cons
  · cases h
    exact Nat.le_refl _

theorem reads_bare? (props : Props) : Reads (NodeWithin (marks tokens)) (bare? props tokens) := by
  unfold bare?
  split
  · exact .some (.empty props (Nat.le_refl _))
  · exact .none

end

/-- What the readers take is bounded by the marks of their tokens. The cases are those of the readers. -/
theorem reads_within (handles : List (String × String)) :
    (∀ position tokens, Reads (NodeWithin (marks tokens)) (read? handles position tokens)) ∧
    (∀ position props tokens,
      Reads (NodeWithin (marks tokens)) (content? handles position props tokens)) ∧
    (∀ tokens, Reads (ItemsWithin (marks tokens) 1) (bareItems? handles tokens)) ∧
    (∀ position ends tokens, Reads (NodeWithin (marks tokens)) (part? handles position ends tokens)) ∧
    (∀ tokens, Reads (EntriesWithin (marks tokens)) (blockEntries? handles tokens)) ∧
    (∀ position ends tokens, Reads (NodeWithin (marks tokens)) (value? handles position ends tokens)) ∧
    (∀ tokens, Reads (ItemsWithin (marks tokens) 0) (blockItems? handles tokens)) ∧
    (∀ isFirst tokens, Reads (EntriesWithin (marks tokens)) (flowEntries? handles isFirst tokens)) ∧
    (∀ isFirst tokens,
      Reads (ItemsWithin (marks tokens) (if isFirst then 1 else 0)) (flowItems? handles isFirst tokens)) ∧
    (∀ tokens, Reads (NodeWithin (marks tokens)) (itemKey? handles tokens)) := by
  refine read?.mutual_induct _ _ _ _ _ _ _ _ _ _
    ?aliased ?node ?scalar ?flowSequence ?flowMapping ?noBlockSequence ?blockSequence ?noBlockMapping
    ?blockMapping ?bareSequence ?noBareSequence ?bare ?bareItems ?emptyPart ?part ?blockEntry
    ?blockEntriesEnd ?noBlockEntry ?value ?emptyValue ?blockItem ?blockItemsEnd ?noBlockItem
    ?flowEntriesEnd ?flowEntry ?flowItemsEnd ?flowItem ?emptyKey ?itemKey
  -- nodes
  case aliased =>
    intro position name rest
    rw [read?]
    exact .some ⟨marks_le_cons, .aliased name⟩
  case node =>
    intro position tokens hother ih
    rw [read?]
    · refine (reads_props? handles).bind fun props after hless hafter => ?_
      exact (ih props after hless).bind fun node rest _ hnode => .some (hnode.mono hafter)
    · exact hother
  case scalar =>
    intro position props style text rest
    rw [content?]
    exact .some ⟨marks_le_cons, .scalar props style text⟩
  case flowSequence =>
    intro position props inner ih
    rw [content?]
    exact ih.bind fun items rest _ hitems =>
      .some (hitems.sequence props (Nat.le_of_eq (marks_cons_of_isMark rfl).symm))
  case flowMapping =>
    intro position props inner ih
    rw [content?]
    exact ih.bind fun entries rest _ hentries => .some (hentries.mapping props marks_le_cons)
  case noBlockSequence =>
    intro props inner
    rw [content?, if_pos rfl]
    exact reads_bare? props
  case blockSequence =>
    intro position props inner hposition ih
    rw [content?, if_neg hposition]
    exact ih.bind fun items rest _ hitems => .some (hitems.sequence props marks_le_cons)
  case noBlockMapping =>
    intro props inner
    rw [content?, if_pos rfl]
    exact reads_bare? props
  case blockMapping =>
    intro position props inner hposition ih
    rw [content?, if_neg hposition]
    exact ih.bind fun entries rest _ hentries => .some (hentries.mapping props marks_le_cons)
  case bareSequence =>
    intro props inner ih
    rw [content?, if_pos rfl]
    exact ih.bind fun items rest _ hitems =>
      .some (hitems.sequence props (Nat.le_of_eq (marks_cons_of_isMark rfl).symm))
  case noBareSequence =>
    intro position props inner hposition
    rw [content?, if_neg hposition]
    exact reads_bare? props
  case bare =>
    intro position props tokens hscalar hflowItems hflowEntries hblockItems hblockEntries hbareItems
    rw [content?]
    · exact reads_bare? props
    all_goals assumption
  -- parts of block collections
  case bareItems =>
    intro tokens ihitem ihitems
    rw [bareItems?]
    refine ihitem.bind fun item after hless hitem => ?_
    dsimp only
    split
    · next inner hinner =>
      refine (ihitems item inner hinner).bind fun items rest _ hitems => ?_
      -- the mark of the next item stands right behind this one
      have hmark : marks (.blockEntry :: inner) = marks inner + 1 := marks_cons_of_isMark rfl
      exact .some (.cons (hitems.mono marks_le_cons (Nat.le_of_eq hmark.symm)) hitem)
    · exact .some (.cons (.nil (Nat.le_refl _)) hitem)
  case emptyPart =>
    intro position ends tokens hends
    rw [part?, if_pos hends]
    exact .some (.empty {} (Nat.le_refl _))
  case part =>
    intro position ends tokens hends ih
    rwa [part?, if_neg hends]
  case blockEntry =>
    intro inner ends ihkey ihvalue ihentries
    rw [blockEntries?]
    refine ihkey.bind fun key afterKey hless hkey => ?_
    refine (ihvalue key afterKey hless).bind fun value afterValue hless' hvalue => ?_
    refine (ihentries key afterKey hless value afterValue hless').bind fun entries rest _ hentries => ?_
    exact .some ((hentries.cons hkey hvalue).mono marks_le_cons)
  case blockEntriesEnd =>
    intro rest
    rw [blockEntries?]
    exact .some (.nil marks_le_cons)
  case noBlockEntry =>
    intro tokens hkey hend
    rw [blockEntries?]
    · exact .none
    all_goals assumption
  case value =>
    intro position ends inner ih
    rw [value?]
    exact ih.bind fun node rest _ hnode => .some (hnode.mono marks_le_cons)
  case emptyValue =>
    intro position ends tokens hother
    rw [value?]
    · exact .some (.empty {} (Nat.le_refl _))
    · exact hother
  case blockItem =>
    intro inner ihitem ihitems
    rw [blockItems?]
    refine ihitem.bind fun item after hless hitem => ?_
    refine (ihitems item after hless).bind fun items rest _ hitems => ?_
    have hmark : marks (.blockEntry :: inner) = marks inner + 1 := marks_cons_of_isMark rfl
    exact .some ((hitems.cons hitem).mono marks_le_cons (Nat.le_of_eq hmark.symm))
  case blockItemsEnd =>
    intro rest
    rw [blockItems?]
    exact .some (.nil marks_le_cons)
  case noBlockItem =>
    intro tokens hentry hend
    rw [blockItems?]
    · exact .none
    all_goals assumption
  -- parts of flow collections
  case flowEntriesEnd =>
    intro isFirst rest
    rw [flowEntries?]
    exact .some (.nil marks_le_cons)
  case flowEntry =>
    intro isFirst tokens hend ihpart ihvalue ihmore ihkey ihentries
    rw [flowEntries?]
    · refine .separated fun start hle hmarks => ?_
      dsimp only
      split
      · next rest _ =>
        have hrest := @marks_le_cons .flowMappingEnd rest
        exact .some (.nil (by omega))
      · next inner hinner =>
        refine (ihpart inner hinner).bind fun key afterKey hless hkey => ?_
        refine (ihvalue inner hinner key afterKey hless).bind fun value afterValue hless' hvalue => ?_
        refine (ihmore inner hinner key afterKey hless value afterValue hless').bind
          fun entries rest _ hentries => ?_
        have hinner := @marks_le_cons .key inner
        exact .some ((hentries.cons hkey hvalue).mono (by omega))
      · refine (ihkey start hle).bind fun key after hless hkey => ?_
        refine (ihentries start hle key after hless).bind fun entries rest _ hentries => ?_
        exact .some ((hentries.cons hkey (.empty {} (Nat.le_refl _))).mono (by omega))
    · exact hend
  case flowItemsEnd =>
    intro isFirst rest
    rw [flowItems?]
    exact .some (.nil marks_le_cons)
  case flowItem =>
    intro isFirst tokens hend ihkey ihvalue ihmore ihitem ihitems
    -- an item takes its mark either with the comma before it or as the first one
    have hone : (if isFirst then 0 else 1) + (if isFirst then 1 else 0) = 1 := by cases isFirst <;> rfl
    rw [flowItems?]
    · generalize (if isFirst then 1 else 0) = passed at hone ⊢
      refine .separated fun start hle hmarks => ?_
      dsimp only
      split
      · next rest _ =>
        have hrest := @marks_le_cons .flowSequenceEnd rest
        exact .some (.nil (by omega))
      · next inner hinner =>
        refine (ihkey inner hinner).bind fun key afterKey hless hkey => ?_
        refine (ihvalue inner hinner key afterKey hless).bind fun value afterValue hless' hvalue => ?_
        refine (ihmore inner hinner key afterKey hless value afterValue hless').bind
          fun items rest _ (hitems : ItemsWithin (marks afterValue) 0 items rest) => ?_
        have hinner := @marks_le_cons .key inner
        have hpair : EntriesWithin (marks inner) [(key, value)] afterValue :=
          .cons (.nil (Nat.le_refl _)) hkey hvalue
        exact .some ((hitems.cons (hpair.mapping {} (Nat.le_refl _))).mono (by omega) (by omega))
      · refine (ihitem start hle).bind fun item after hless hitem => ?_
        refine (ihitems start hle item after hless).bind
          fun items rest _ (hitems : ItemsWithin (marks after) 0 items rest) => ?_
        exact .some ((hitems.cons hitem).mono (by omega) (by omega))
    · exact hend
  case emptyKey =>
    intro tokens hends
    rw [itemKey?, if_pos hends]
    exact .some (.empty {} (List.tail_sublist tokens).countP_le)
  case itemKey =>
    intro tokens hends ih
    rwa [itemKey?, if_neg hends]

theorem bounded_read? {handles : List (String × String)} {tokens : List Token} {node : Node String}
    {rest : List Token}
    (h : (read? handles .block tokens).map Subtype.val = some (node, rest)) :
    node.Bounded (marks tokens) := by
  obtain ⟨⟨taken, hle⟩, hread, rfl⟩ := Option.map_eq_some_iff.1 h
  exact ((reads_within handles).1 .block tokens node rest hle hread).node

theorem marks_directives? {versionSeen : Bool} {handles handles' : List (String × String)}
    {tokens rest : List Token} (h : directives? versionSeen handles tokens = some (handles', rest)) :
    marks rest ≤ marks tokens := by
  fun_induction directives? versionSeen handles tokens with
  | case1 => cases h
  | case2 _ _ _ _ _ _ ih => exact Nat.le_trans (ih h) marks_le_cons
  | case3 => cases h
  | case4 _ _ _ _ _ _ ih => exact Nat.le_trans (ih h) marks_le_cons
  | case5 =>
    cases h
    exact Nat.le_refl _

/-- The sequences of a document have no more items than its tokens have marks. -/
theorem bounded_of_ofTokens? {tokens : List Token} {node : Node String}
    (h : ofTokens? tokens = some (some node)) : node.Bounded (marks tokens) := by
  unfold ofTokens? at h
  split at h
  · cases h
  · next first later =>
    extract_lets reading at h
    have hreading : ∀ node rest, reading = some (node, rest) → node.Bounded (marks (first :: later)) := by
      intro node rest hread
      unfold reading at hread
      split at hread
      · split at hread
        · next handles inner hdirectives =>
          have hinner := Nat.le_trans marks_le_cons (marks_directives? hdirectives)
          split at hread
          · cases hread
            exact .scalar {} .plain ""
          · exact (bounded_read? hread).mono hinner
        · cases hread
      · exact bounded_read? hread
    cases hread : reading with
    | none =>
      rw [hread] at h
      cases h
    | some taken =>
      rw [hread] at h
      obtain ⟨-, h⟩ := Option.ite_none_right_eq_some.1 h
      cases h
      exact hreading taken.1 taken.2 hread

end ApiModel.Yaml.Node
