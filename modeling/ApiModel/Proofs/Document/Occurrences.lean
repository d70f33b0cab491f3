import ApiModel.Proofs.Document

/-!
# Where references occur

Every value in a document stands at the end of a way of positions and keys (`Document.Descends`), and document
order is the order of the positions. A reference occurs where such a value is a text and a `$ref` member. The
mentions of a document are the texts of all occurrences, each occurrence once and in document order. The
references under it can be fewer: what occurs below a `$ref` member is not among them (`Document.refs_exact`).
-/

namespace ApiModel.Document

/-- A step from a value to one in it: the position there, and the key if it is a member of an object. -/
structure Step where
  index : Nat
  key? : Option String

/-- The keys of the values on a way that begins under a key. Items of arrays have none. -/
def keysFrom (key? : Option String) (way : List Step) : List (Option String) := key? :: way.map Step.key?

/-- The positions on a way. -/
def positionsOn (way : List Step) : List Nat := way.map Step.index

/-- The items of an array, or the members of an object with their keys. -/
def inner : Document → List (Option String × Document)
  | list items => items.map fun item => (none, item)
  | map entries => entries.map fun entry => (some entry.1, entry.2)
  | _ => []

/-- A way leads from a document to a value in it, or to the document itself. -/
inductive Descends : Document → List Step → Document → Prop where
  | here {node : Document} : Descends node [] node
  | step {node value part : Document} {index : Nat} {key? : Option String} {way : List Step} :
    node.inner[index]? = some (key?, value) → Descends value way part →
      Descends node (⟨index, key?⟩ :: way) part

/-- One step before every way. -/
def behind (step : Step) (parts : List (List Step × Document)) : List (List Step × Document) :=
  parts.map fun part => (step :: part.1, part.2)

mutual

/-- A document and every value in it, with the ways to them. Each stands before those in it. -/
def descendants : Document → List (List Step × Document)
  | list items => ([], list items) :: descendantsOfItems 0 items
  | map entries => ([], map entries) :: descendantsOfEntries 0 entries
  | leaf => [([], leaf)]

/-- Items that begin at a position, and every value in them. -/
def descendantsOfItems (index : Nat) : List Document → List (List Step × Document)
  | [] => []
  | item :: rest => behind ⟨index, none⟩ (descendants item) ++ descendantsOfItems (index + 1) rest

/-- Members that begin at a position, and every value in them. -/
def descendantsOfEntries (index : Nat) : List (String × Document) → List (List Step × Document)
  | [] => []
  | (key, value) :: rest =>
    behind ⟨index, some key⟩ (descendants value) ++ descendantsOfEntries (index + 1) rest

end

/-- The text of a part of a value that stands under a key, if the part is a `$ref` member. -/
def textUnder (key? : Option String) (part : List Step × Document) : Option String :=
  if (keysFrom key? part.1).getLast? = some (some "$ref") then part.2.text? else none

/-- Every text that is a `$ref` member, with the way to it, in document order. -/
def occurrences (node : Document) : List (List Step × String) :=
  node.descendants.filterMap fun part => (textUnder none part).map fun text => (part.1, text)

/-- Whether a way that begins under a key passes a `$ref` member before its end. -/
def isCovered (key? : Option String) (way : List Step) : Bool :=
  some "$ref" ∈ (keysFrom key? way).dropLast

/-! ## Items and members alike -/

theorem sizeOf_inner_lt {node value : Document} {key? : Option String} (h : (key?, value) ∈ node.inner) :
    sizeOf value < sizeOf node := by
  cases node with
  | list items =>
    obtain ⟨item, hitem, heq⟩ := List.mem_map.1 h
    cases heq
    exact sizeOf_item_lt hitem
  | map entries =>
    obtain ⟨entry, hentry, heq⟩ := List.mem_map.1 h
    cases heq
    exact sizeOf_entry_lt hentry
  | _ => cases h

/-- What holds of a document if it holds of all values in it, holds of every document. -/
theorem induction_on_inner {motive : Document → Prop} (node : Document)
    (h : ∀ node : Document, (∀ key? value, (key?, value) ∈ node.inner → motive value) → motive node) :
    motive node :=
  h node fun _ value _ => induction_on_inner value h
termination_by sizeOf node
decreasing_by exact sizeOf_inner_lt (by assumption)

theorem descendantsOfItems_eq (index : Nat) (items : List Document) :
    descendantsOfItems index items =
      ((items.map fun item => ((none : Option String), item)).zipIdx index).flatMap fun place =>
        behind ⟨place.2, place.1.1⟩ place.1.2.descendants := by
  induction items generalizing index with
  | nil => rfl
  | cons item rest ih => rw [descendantsOfItems, ih, List.map_cons, List.zipIdx_cons, List.flatMap_cons]

theorem descendantsOfEntries_eq (index : Nat) (entries : List (String × Document)) :
    descendantsOfEntries index entries =
      ((entries.map fun entry => (some entry.1, entry.2)).zipIdx index).flatMap fun place =>
        behind ⟨place.2, place.1.1⟩ place.1.2.descendants := by
  induction entries generalizing index with
  | nil => rfl
  | cons entry rest ih =>
    rw [descendantsOfEntries, ih, List.map_cons, List.zipIdx_cons, List.flatMap_cons]

theorem descendants_eq (node : Document) :
    node.descendants = ([], node) :: node.inner.zipIdx.flatMap fun place =>
      behind ⟨place.2, place.1.1⟩ place.1.2.descendants := by
  cases node with
  | list items => rw [descendants, descendantsOfItems_eq]; rfl
  | map entries => rw [descendants, descendantsOfEntries_eq]; rfl
  | _ => rfl

/-- The references that a value gives where it stands: its own text as a `$ref` member. -/
def refsUnder (key? : Option String) (value : Document) : List String :=
  if key? = some "$ref" then value.text?.toList else value.refs

/-- The references that a value mentions where it stands. -/
def mentionsUnder (key? : Option String) (value : Document) : List String :=
  (if key? = some "$ref" then value.text?.toList else []) ++ value.mentions

theorem refs_eq (node : Document) : node.refs = node.inner.flatMap fun part => refsUnder part.1 part.2 := by
  cases node with
  | list items =>
    rw [refs, inner, List.flatMap_map]
    induction items with
    | nil => rfl
    | cons item rest ih => rw [refsOfItems, ih, List.flatMap_cons]; rfl
  | map entries =>
    rw [refs, inner, List.flatMap_map]
    induction entries with
    | nil => rfl
    | cons entry rest ih => simp only [refsOfEntries, ih, List.flatMap_cons, refsUnder, Option.some_inj]
  | _ => rfl

theorem mentions_eq (node : Document) :
    node.mentions = node.inner.flatMap fun part => mentionsUnder part.1 part.2 := by
  cases node with
  | list items =>
    rw [mentions, inner, List.flatMap_map]
    induction items with
    | nil => rfl
    | cons item rest ih => rw [mentionsOfItems, ih, List.flatMap_cons]; rfl
  | map entries =>
    rw [mentions, inner, List.flatMap_map]
    induction entries with
    | nil => rfl
    | cons entry rest ih =>
      simp only [mentionsOfEntries, ih, List.flatMap_cons, mentionsUnder, Option.some_inj]
  | _ => rfl

/-! ## All values, in document order -/

theorem mem_behind {step : Step} {parts : List (List Step × Document)} {part : List Step × Document} :
    part ∈ behind step parts ↔ ∃ way, (way, part.2) ∈ parts ∧ part.1 = step :: way := by
  rw [behind, List.mem_map]
  constructor
  · rintro ⟨other, hmem, rfl⟩
    exact ⟨other.1, hmem, rfl⟩
  · rintro ⟨way, hmem, heq⟩
    exact ⟨(way, part.2), hmem, Prod.ext heq.symm rfl⟩

/-- Every value that a way leads to is listed. -/
theorem mem_descendants {node part : Document} {way : List Step} :
    (way, part) ∈ node.descendants ↔ node.Descends way part := by
  constructor
  · intro h
    induction node using induction_on_inner generalizing way with
    | h node ih =>
      rw [descendants_eq, List.mem_cons] at h
      rcases h with heq | h
      · cases heq
        exact .here
      · obtain ⟨⟨⟨key?, value⟩, index⟩, hplace, hpart⟩ := List.mem_flatMap.1 h
        obtain ⟨rest, hrest, heq⟩ := mem_behind.1 hpart
        have hinner := List.mk_mem_zipIdx_iff_getElem?.1 hplace
        obtain rfl : way = ⟨index, key?⟩ :: rest := heq
        exact .step hinner (ih key? value (List.mem_of_getElem? hinner) hrest)
  · intro h
    induction h with
    | here => rw [descendants_eq]; exact List.mem_cons_self
    | step hinner _ ih =>
      rw [descendants_eq]
      refine List.mem_cons_of_mem _ (List.mem_flatMap.2 ⟨_, List.mk_mem_zipIdx_iff_getElem?.2 hinner, ?_⟩)
      exact mem_behind.2 ⟨_, ih, rfl⟩

/-- The values are listed in the order of their positions, so each once. -/
theorem pairwise_descendants (node : Document) :
    node.descendants.Pairwise fun a b => positionsOn a.1 < positionsOn b.1 := by
  induction node using induction_on_inner with
  | h node ih =>
    rw [descendants_eq, List.pairwise_cons, List.pairwise_flatMap]
    refine ⟨fun part hpart => ?_, fun place hplace => ?_, ?_⟩
    · obtain ⟨place, _, hpart⟩ := List.mem_flatMap.1 hpart
      obtain ⟨way, _, heq⟩ := mem_behind.1 hpart
      rw [heq]
      exact List.Lex.nil
    · -- below one position the rest decides
      have hmem := List.mem_of_getElem? (List.mk_mem_zipIdx_iff_getElem?.1 hplace)
      rw [behind, List.pairwise_map]
      exact (ih _ _ hmem).imp fun hlt => List.Lex.cons hlt
    · have hindexes : (node.inner.zipIdx.map Prod.snd).Pairwise (· < ·) := by
        rw [List.zipIdx_map_snd]
        exact List.pairwise_lt_range'
      refine (List.pairwise_map.1 hindexes).imp fun hlt part hpart other hother => ?_
      obtain ⟨way, _, heq⟩ := mem_behind.1 hpart
      obtain ⟨way', _, heq'⟩ := mem_behind.1 hother
      rw [heq, heq']
      exact List.Lex.rel hlt

/-! ## The texts of occurrences -/

theorem textUnder_nil (key? : Option String) (node : Document) :
    textUnder key? ([], node) = if key? = some "$ref" then node.text? else none := by
  simp only [textUnder, keysFrom, List.map_nil, List.getLast?_singleton, Option.some_inj]

theorem textUnder_cons (key? : Option String) (step : Step) (way : List Step) (part : Document) :
    textUnder key? (step :: way, part) = textUnder step.key? (way, part) := rfl

theorem isCovered_cons (key? : Option String) (step : Step) (way : List Step) :
    isCovered key? (step :: way) = (key? = some "$ref" || isCovered step.key? way) := by
  unfold isCovered keysFrom
  rw [List.map_cons, List.dropLast_cons_cons]
  simp only [List.mem_cons, Bool.decide_or, eq_comm]

/-- Texts of a document are those that it gives itself, and those of the values in it. -/
theorem filterMap_descendants (texts : Option String → Document → List String)
    {text : List Step × Document → Option String} {node : Document}
    (h : ∀ key? value, (key?, value) ∈ node.inner → ∀ index,
      value.descendants.filterMap (fun part => text (⟨index, key?⟩ :: part.1, part.2)) = texts key? value) :
    node.descendants.filterMap text =
      (text ([], node)).toList ++ node.inner.flatMap fun part => texts part.1 part.2 := by
  have hplaces : (node.inner.zipIdx.flatMap fun place =>
        (behind ⟨place.2, place.1.1⟩ place.1.2.descendants).filterMap text) =
      node.inner.zipIdx.flatMap fun place => texts place.1.1 place.1.2 := by
    rw [List.flatMap_def, List.flatMap_def]
    congr 1
    refine List.map_congr_left fun place hplace => ?_
    rw [behind, List.filterMap_map]
    exact h _ _ (List.mem_of_getElem? (List.mk_mem_zipIdx_iff_getElem?.1 hplace)) _
  have hinner : (node.inner.zipIdx.flatMap fun place => texts place.1.1 place.1.2) =
      node.inner.flatMap fun part => texts part.1 part.2 := by
    conv_rhs => rw [← List.zipIdx_map_fst 0 node.inner, List.flatMap_map]
  rw [descendants_eq, ← List.singleton_append, List.filterMap_append, List.filterMap_flatMap, hplaces, hinner,
    List.filterMap_cons, List.filterMap_nil]
  cases text ([], node) <;> rfl

/-- The texts of all occurrences are mentioned, and nothing else is. -/
theorem filterMap_textUnder (key? : Option String) (node : Document) :
    node.descendants.filterMap (textUnder key?) = mentionsUnder key? node := by
  induction node using induction_on_inner generalizing key? with
  | h node ih =>
    rw [filterMap_descendants mentionsUnder fun key? value hmem _ => ih key? value hmem key?, textUnder_nil,
      mentionsUnder, ← mentions_eq]
    split <;> rfl

/-- The texts of the occurrences that stand below no other `$ref` member are the references. -/
theorem filterMap_uncovered (key? : Option String) (node : Document) :
    node.descendants.filterMap (fun part => if isCovered key? part.1 then none else textUnder key? part) =
      refsUnder key? node := by
  induction node using induction_on_inner generalizing key? with
  | h node ih =>
    have hroot : (if isCovered key? ([] : List Step) then none else textUnder key? ([], node)) =
        if key? = some "$ref" then node.text? else none := textUnder_nil key? node
    by_cases hkey : key? = some "$ref"
    · -- whatever is in the value of a `$ref` member is covered
      rw [filterMap_descendants fun _ _ => [], hroot, refsUnder, if_pos hkey, if_pos hkey]
      · simp
      · intro innerKey? value _ index
        refine List.filterMap_eq_nil_iff.2 fun part _ => ?_
        rw [isCovered_cons, decide_eq_true hkey]
        rfl
    · rw [filterMap_descendants refsUnder, hroot, refsUnder, if_neg hkey, if_neg hkey, ← refs_eq]
      · rfl
      · intro innerKey? value hmem index
        rw [← ih innerKey? value hmem]
        simp only [isCovered_cons, hkey, decide_false, Bool.false_or, textUnder_cons]

theorem mem_occurrences {node : Document} {way : List Step} {text : String} :
    (way, text) ∈ node.occurrences ↔
      node.Descends way (string text) ∧ (keysFrom none way).getLast? = some (some "$ref") := by
  rw [← mem_descendants, occurrences, List.mem_filterMap]
  constructor
  · rintro ⟨⟨start, part⟩, hmem, hfound⟩
    obtain ⟨found, htext, heq⟩ := Option.map_eq_some_iff.1 hfound
    cases heq
    unfold textUnder at htext
    split at htext
    · next hlast =>
      cases part <;> cases htext
      exact ⟨hmem, hlast⟩
    · cases htext
  · rintro ⟨hmem, hlast⟩
    exact ⟨_, hmem, by rw [textUnder, if_pos hlast]; rfl⟩

theorem pairwise_occurrences (node : Document) :
    node.occurrences.Pairwise fun a b => positionsOn a.1 < positionsOn b.1 := by
  refine (pairwise_descendants node).filterMap _ fun part other hlt a ha b hb => ?_
  obtain ⟨_, _, rfl⟩ := Option.map_eq_some_iff.1 ha
  obtain ⟨_, _, rfl⟩ := Option.map_eq_some_iff.1 hb
  exact hlt

/-- The occurrences of a document are the texts in it that are `$ref` members, each once and in document order,
and all of them are mentioned. The references are those that stand below no other `$ref` member, in the same
order. So they are all of them only where no reference occurs below a `$ref` member. -/
theorem refs_exact (node : Document) :
    (∀ way text, (way, text) ∈ node.occurrences ↔
      node.Descends way (string text) ∧ (keysFrom none way).getLast? = some (some "$ref")) ∧
    (node.occurrences.Pairwise fun a b => positionsOn a.1 < positionsOn b.1) ∧
    node.mentions = node.occurrences.map Prod.snd ∧
    node.refs = (node.occurrences.filter fun occurrence => !isCovered none occurrence.1).map Prod.snd ∧
    (node.refs = node.occurrences.map Prod.snd ↔
      ∀ occurrence ∈ node.occurrences, isCovered none occurrence.1 = false) := by
  have hrefs : node.refs =
      (node.occurrences.filter fun occurrence => !isCovered none occurrence.1).map Prod.snd := by
    rw [occurrences, List.filter_filterMap, List.map_filterMap]
    refine (filterMap_uncovered none node).symm.trans ?_
    congr 1
    funext part
    cases textUnder none part with
    | none => exact ite_self none
    | some text =>
      rw [Option.map_some, Option.filter_some]
      cases isCovered none part.1 <;> rfl
  refine ⟨fun way text => mem_occurrences, pairwise_occurrences node, ?_, hrefs, ?_⟩
  · rw [occurrences, List.map_filterMap]
    simp only [Option.map_map, Function.comp_def, Option.map_id']
    exact (filterMap_textUnder none node).symm
  · rw [hrefs]
    constructor
    · intro heq occurrence hmem
      -- as many are left as there were, so none was left out
      have hlength := congrArg List.length heq
      rw [List.length_map, List.length_map, List.length_filter_eq_length_iff] at hlength
      simpa using hlength occurrence hmem
    · intro hopen
      rw [List.filter_eq_self.2 fun occurrence hmem => by rw [hopen occurrence hmem]; rfl]

/-- A schema for schemas: one of its properties is called `$ref`. -/
def schemaOfSchemas : Document :=
  map [("properties", map [("$ref", map [("$ref", string "#/definitions/Uri")])])]

/-- What the property refers to is not among the references. -/
theorem refs_of_property_called_ref :
    schemaOfSchemas.Descends [⟨0, some "properties"⟩, ⟨0, some "$ref"⟩, ⟨0, some "$ref"⟩]
      (string "#/definitions/Uri") ∧
    schemaOfSchemas.occurrences.map Prod.snd = ["#/definitions/Uri"] ∧ schemaOfSchemas.refs = [] ∧
    schemaOfSchemas.refs ≠ schemaOfSchemas.occurrences.map Prod.snd :=
  ⟨.step rfl (.step rfl (.step rfl .here)), by decide, by decide, by decide⟩

end ApiModel.Document
