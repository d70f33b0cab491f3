import ApiModel.Pointer
import ApiModel.Proofs.Keyed
import Mathlib.Algebra.Group.Nat.Defs

/-!
# Documents and their parts

What holds of a document holds of the parts that pointers lead to: a part mentions nothing that the
whole does not mention, and it is well-formed if the whole is. The references under a part are
references under the whole.
-/

namespace ApiModel

namespace Document

/-! ## Values of objects and items of arrays -/

theorem mem_of_get? {entries : List (String × Document)} {key : String} {value : Document}
    (h : (map entries).get? key = some value) : (key, value) ∈ entries := by
  obtain ⟨entry, hget, rfl⟩ := Option.map_eq_some_iff.1 h
  have hkey : entry.1 = key := Keyed.key_of_get? hget
  subst hkey
  exact Keyed.mem_of_get? hget

theorem entries_of_get? {node value : Document} {key : String} (h : node.get? key = some value) :
    ∃ entries, node = map entries ∧ (key, value) ∈ entries := by
  cases node with
  | map entries => exact ⟨entries, rfl, mem_of_get? h⟩
  | _ => cases h

theorem get?_of_itemsAt? {node : Document} {key : String} {items : List Document}
    (h : node.itemsAt? key = some items) : node.get? key = some (list items) := by
  obtain ⟨value, hget, hitems⟩ := Option.bind_eq_some_iff.1 h
  cases value <;> simp [items?] at hitems
  rw [hget, hitems]

theorem get?_of_entriesAt? {node : Document} {key : String} {entries : List (String × Document)}
    (h : node.entriesAt? key = some entries) : node.get? key = some (map entries) := by
  obtain ⟨value, hget, hentries⟩ := Option.bind_eq_some_iff.1 h
  cases value <;> simp [entries?] at hentries
  rw [hget, hentries]

theorem get?_set_of_ne {key other : String} (hne : key ≠ other) (node value : Document) :
    (node.set key value).get? other = node.get? other := by
  cases node with
  | map entries =>
    rw [set, get?, get?, Keyed.get?_put_of_ne (x := (key, value)) hne]
  | _ => rfl

theorem get?_set_self {node : Document} {key : String} (h : (node.get? key).isSome) (value : Document) :
    (node.set key value).get? key = some value := by
  cases node with
  | map entries =>
    rw [set, get?]
    exact congrArg (Option.map Prod.snd) (Keyed.get?_put_self Prod.fst (key, value) entries)
  | _ => cases h

/-- Of two values that are set under one key the last stays. -/
theorem set_set (node : Document) (key : String) (first last : Document) :
    (node.set key first).set key last = node.set key last := by
  cases node with
  | map entries =>
    rw [set, set, set]
    exact congrArg map (Keyed.put_put (x := (key, last)) (y := (key, first)) rfl entries)
  | _ => rfl

/-! ## References under a value -/

theorem mem_refsOfItems {text : String} {items : List Document} :
    text ∈ refsOfItems items ↔ ∃ item ∈ items, text ∈ item.refs := by
  induction items with
  | nil => simp [refsOfItems]
  | cons item rest ih => simp [refsOfItems, ih]

/-- An entry gives its own text under `$ref`, and the references under its value else. -/
theorem mem_refsOfEntries {text : String} {entries : List (String × Document)} :
    text ∈ refsOfEntries entries ↔
      ∃ entry ∈ entries, if entry.1 = "$ref" then entry.2.text? = some text else
        text ∈ entry.2.refs := by
  induction entries with
  | nil => simp [refsOfEntries]
  | cons entry rest ih =>
    have hentry : text ∈ (if entry.1 = "$ref" then entry.2.text?.toList else entry.2.refs) ↔
        if entry.1 = "$ref" then entry.2.text? = some text else text ∈ entry.2.refs := by
      split
      · exact Option.mem_toList
      · exact Iff.rfl
    simp [refsOfEntries, hentry, ih]

/-- The references under a part are references under the whole, unless the part stands under `$ref`. -/
theorem mem_refs_of_get? {node value : Document} {key text : String} (hkey : key ≠ "$ref")
    (hget : node.get? key = some value) (htext : text ∈ value.refs) : text ∈ node.refs := by
  obtain ⟨entries, rfl, hmem⟩ := entries_of_get? hget
  rw [refs, mem_refsOfEntries]
  exact ⟨_, hmem, by rw [if_neg hkey]; exact htext⟩

theorem mem_refs_of_textAt? {node : Document} {text : String}
    (h : node.textAt? "$ref" = some text) : text ∈ node.refs := by
  obtain ⟨value, hget, htext⟩ := Option.bind_eq_some_iff.1 h
  obtain ⟨entries, rfl, hmem⟩ := entries_of_get? hget
  rw [refs, mem_refsOfEntries]
  exact ⟨_, hmem, by rw [if_pos rfl]; exact htext⟩

theorem mem_refs_of_itemsAt? {node item : Document} {key text : String} {items : List Document}
    (hkey : key ≠ "$ref") (hitems : node.itemsAt? key = some items) (hitem : item ∈ items)
    (htext : text ∈ item.refs) : text ∈ node.refs := by
  refine mem_refs_of_get? hkey (get?_of_itemsAt? hitems) ?_
  rw [refs, mem_refsOfItems]
  exact ⟨item, hitem, htext⟩

/-- A value without references adds none. -/
theorem mem_refs_of_mem_refs_set {node value : Document} {key text : String} (hkey : key ≠ "$ref")
    (hvalue : value.refs = []) (htext : text ∈ (node.set key value).refs) : text ∈ node.refs := by
  cases node with
  | map entries =>
    rw [set, refs, mem_refsOfEntries] at htext
    obtain ⟨entry, hentry, hrefs⟩ := htext
    rw [refs, mem_refsOfEntries]
    rcases Keyed.mem_put hentry with rfl | hold
    · rw [if_neg hkey, hvalue] at hrefs
      cases hrefs
    · exact ⟨entry, hold, hrefs⟩
  | _ => exact htext

/-! ## Mentioned references -/

theorem mem_mentionsOfItems {text : String} {items : List Document} :
    text ∈ mentionsOfItems items ↔ ∃ item ∈ items, text ∈ item.mentions := by
  induction items with
  | nil => simp [mentionsOfItems]
  | cons item rest ih => simp [mentionsOfItems, ih]

theorem mem_mentionsOfEntries_of_value {text key : String} {value : Document}
    {entries : List (String × Document)} (hmem : (key, value) ∈ entries)
    (h : text ∈ value.mentions) : text ∈ mentionsOfEntries entries := by
  induction entries with
  | nil => cases hmem
  | cons entry rest ih =>
    rw [mentionsOfEntries, List.mem_append, List.mem_append]
    rcases List.mem_cons.1 hmem with rfl | hrest
    · exact Or.inl (Or.inr h)
    · exact Or.inr (ih hrest)

mutual

/-- What collecting references finds is mentioned. -/
theorem mem_mentions_of_mem_refs {text : String} :
    ∀ {node : Document}, text ∈ node.refs → text ∈ node.mentions
  | list items, h => by
    rw [refs] at h
    rw [mentions]
    exact mem_mentionsOfItems_of_mem_refsOfItems h
  | map entries, h => by
    rw [refs] at h
    rw [mentions]
    exact mem_mentionsOfEntries_of_mem_refsOfEntries h
  | null, h | bool _, h | int _, h | float _, h | string _, h => by simp [refs] at h

theorem mem_mentionsOfItems_of_mem_refsOfItems {text : String} :
    ∀ {items : List Document}, text ∈ refsOfItems items → text ∈ mentionsOfItems items
  | [], h => by simp [refsOfItems] at h
  | item :: rest, h => by
    rw [refsOfItems, List.mem_append] at h
    rw [mentionsOfItems, List.mem_append]
    exact h.imp mem_mentions_of_mem_refs mem_mentionsOfItems_of_mem_refsOfItems

theorem mem_mentionsOfEntries_of_mem_refsOfEntries {text : String} :
    ∀ {entries : List (String × Document)},
      text ∈ refsOfEntries entries → text ∈ mentionsOfEntries entries
  | [], h => by simp [refsOfEntries] at h
  | (key, value) :: rest, h => by
    rw [refsOfEntries, List.mem_append] at h
    rw [mentionsOfEntries, List.mem_append, List.mem_append]
    rcases h with h | h
    · -- only a text counts under `$ref`; below any other key the search goes on
      split at h
      · next hkey => rw [if_pos hkey]; exact Or.inl (Or.inl h)
      · exact Or.inl (Or.inr (mem_mentions_of_mem_refs h))
    · exact Or.inr (mem_mentionsOfEntries_of_mem_refsOfEntries h)

end

/-! ## Well-formed documents -/

mutual

/-- A document as it is held in memory: no object has a key twice, and the positions in an array are
numbers of 64 bits. -/
def WellFormed : Document → Prop
  | list items => items.length ≤ 2 ^ 64 ∧ WellFormedItems items
  | map entries => (entries.map Prod.fst).Nodup ∧ WellFormedEntries entries
  | _ => True

/-- All items are well-formed. -/
def WellFormedItems : List Document → Prop
  | [] => True
  | item :: rest => WellFormed item ∧ WellFormedItems rest

/-- All values are well-formed. -/
def WellFormedEntries : List (String × Document) → Prop
  | [] => True
  | (_, value) :: rest => WellFormed value ∧ WellFormedEntries rest

end

mutual

/-- Whether a document is well-formed can be computed. -/
instance decidableWellFormed : (node : Document) → Decidable node.WellFormed
  | list items =>
    have := decidableWellFormedItems items
    inferInstanceAs (Decidable (items.length ≤ 2 ^ 64 ∧ WellFormedItems items))
  | map entries =>
    have := decidableWellFormedEntries entries
    inferInstanceAs (Decidable ((entries.map Prod.fst).Nodup ∧ WellFormedEntries entries))
  | null | bool _ | int _ | float _ | string _ => inferInstanceAs (Decidable True)

/-- Whether all items are well-formed can be computed. -/
instance decidableWellFormedItems : (items : List Document) → Decidable (WellFormedItems items)
  | [] => inferInstanceAs (Decidable True)
  | item :: rest =>
    have := decidableWellFormed item
    have := decidableWellFormedItems rest
    inferInstanceAs (Decidable (WellFormed item ∧ WellFormedItems rest))

/-- Whether all values are well-formed can be computed. -/
instance decidableWellFormedEntries :
    (entries : List (String × Document)) → Decidable (WellFormedEntries entries)
  | [] => inferInstanceAs (Decidable True)
  | (_, value) :: rest =>
    have := decidableWellFormed value
    have := decidableWellFormedEntries rest
    inferInstanceAs (Decidable (WellFormed value ∧ WellFormedEntries rest))

end

theorem wellFormedItems_iff {items : List Document} :
    WellFormedItems items ↔ ∀ item ∈ items, WellFormed item := by
  induction items with
  | nil => simp [WellFormedItems]
  | cons item rest ih => simp [WellFormedItems, ih]

theorem wellFormedEntries_iff {entries : List (String × Document)} :
    WellFormedEntries entries ↔ ∀ entry ∈ entries, WellFormed entry.2 := by
  induction entries with
  | nil => simp [WellFormedEntries]
  | cons entry rest ih => simp [WellFormedEntries, ih]

theorem wellFormed_list {items : List Document} :
    (list items).WellFormed ↔ items.length ≤ 2 ^ 64 ∧ ∀ item ∈ items, item.WellFormed := by
  rw [WellFormed, wellFormedItems_iff]

theorem wellFormed_map {entries : List (String × Document)} :
    (map entries).WellFormed ↔
      (entries.map Prod.fst).Nodup ∧ ∀ entry ∈ entries, entry.2.WellFormed := by
  rw [WellFormed, wellFormedEntries_iff]

theorem WellFormed.get? {node value : Document} {key : String} (h : node.WellFormed)
    (hget : node.get? key = some value) : value.WellFormed := by
  obtain ⟨entries, rfl, hmem⟩ := entries_of_get? hget
  exact (wellFormed_map.1 h).2 _ hmem

/-- In a well-formed object every entry is what its key leads to. -/
theorem get?_of_mem {entries : List (String × Document)} (h : (map entries).WellFormed)
    {key : String} {value : Document} (hmem : (key, value) ∈ entries) :
    (map entries).get? key = some value := by
  have hget : Keyed.get? Prod.fst key entries = some (key, value) :=
    Keyed.get?_eq_some_of_mem (wellFormed_map.1 h).1 hmem
  rw [Document.get?, hget]
  rfl

/-- An object made from key and value pairs holds each key once, so it is well-formed if the values
are. -/
theorem wellFormed_ofEntries {pairs : List (String × Document)}
    (h : ∀ pair ∈ pairs, pair.2.WellFormed) : (ofEntries pairs).WellFormed := by
  unfold ofEntries
  rw [wellFormed_map]
  refine ⟨Keyed.nodup_foldl_put pairs List.nodup_nil, fun entry hentry => ?_⟩
  obtain ⟨_, hpair, rfl⟩ := (Keyed.mem_foldl_put pairs [] hentry).resolve_left List.not_mem_nil
  exact h entry hpair

end Document

/-! ## Parts that a pointer leads to -/

namespace Pointer

theorem mem_mentions_of_step? {node part : Document} {key text : String}
    (h : step? node key = some part) (htext : text ∈ part.mentions) : text ∈ node.mentions := by
  unfold step? at h
  split at h
  · next entries =>
    rw [Document.mentions]
    exact Document.mem_mentionsOfEntries_of_value (Document.mem_of_get? h) htext
  · next items =>
    obtain ⟨index, _, hitem⟩ := Option.bind_eq_some_iff.1 h
    rw [Document.mentions, Document.mem_mentionsOfItems]
    exact ⟨part, List.mem_of_getElem? hitem, htext⟩
  · cases h

theorem mem_mentions_of_walk? {keys : List String} {node part : Document} {text : String}
    (h : walk? node keys = some part) (htext : text ∈ part.mentions) : text ∈ node.mentions := by
  induction keys generalizing node with
  | nil => cases h; exact htext
  | cons key rest ih =>
    obtain ⟨inner, hstep, hwalk⟩ := Option.bind_eq_some_iff.1 h
    exact mem_mentions_of_step? hstep (ih hwalk)

theorem mem_mentions_of_find? {root part : Document} {pointer text : String}
    (h : find? root pointer = some part) (htext : text ∈ part.mentions) :
    text ∈ root.mentions := by
  unfold find? at h
  split at h
  · cases h; exact htext
  · cases h; exact htext
  · exact mem_mentions_of_walk? h htext
  · cases h

theorem wellFormed_of_step? {node part : Document} {key : String} (hnode : node.WellFormed)
    (h : step? node key = some part) : part.WellFormed := by
  unfold step? at h
  split at h
  · exact hnode.get? h
  · obtain ⟨index, _, hitem⟩ := Option.bind_eq_some_iff.1 h
    exact (Document.wellFormed_list.1 hnode).2 _ (List.mem_of_getElem? hitem)
  · cases h

theorem wellFormed_of_walk? {keys : List String} {node part : Document} (hnode : node.WellFormed)
    (h : walk? node keys = some part) : part.WellFormed := by
  induction keys generalizing node with
  | nil => cases h; exact hnode
  | cons key rest ih =>
    obtain ⟨inner, hstep, hwalk⟩ := Option.bind_eq_some_iff.1 h
    exact ih (wellFormed_of_step? hnode hstep) hwalk

end Pointer

end ApiModel
