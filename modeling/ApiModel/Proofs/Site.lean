import ApiModel.Proofs.Document
import ApiModel.Proofs.Reference

/-!
# Sites inside a site

The sites that a walk over a node comes to are built by keys of its objects and positions in its arrays.
They hold smaller nodes of the same document, and no reference that the node does not hold
(`Site.Inside`).
-/

namespace ApiModel.Site

variable {site inner : Site} {key : String}

theorem exists_of_mem_items {item : Site} (h : item ∈ site.items key) :
    ∃ (items : List Document) (index : Nat) (node : Document),
      site.node.itemsAt? key = some items ∧ items[index]? = some node ∧
        item = site.under [key, toString index] node := by
  unfold items at h
  cases hitems : site.node.itemsAt? key with
  | none => rw [hitems] at h; cases h
  | some nodes =>
    rw [hitems] at h
    obtain ⟨index, hindex, rfl⟩ := List.mem_mapIdx.1 h
    exact ⟨nodes, index, nodes[index], rfl, List.getElem?_eq_getElem hindex, rfl⟩

theorem exists_of_mem_entries {entry : String × Site} (h : entry ∈ site.entries key) :
    ∃ entries node, site.node.entriesAt? key = some entries ∧ (entry.1, node) ∈ entries ∧
      entry.2 = site.under [key, entry.1] node := by
  unfold entries at h
  cases hentries : site.node.entriesAt? key with
  | none => rw [hentries] at h; cases h
  | some nodes =>
    rw [hentries] at h
    obtain ⟨⟨name, node⟩, hmem, rfl⟩ := List.mem_map.1 h
    exact ⟨nodes, node, rfl, hmem, rfl⟩

/-- A site holds a smaller node than another one, in the same document, and no other references. -/
structure Inside (inner outer : Site) : Prop where
  smaller : sizeOf inner.node < sizeOf outer.node
  refs : ∀ text ∈ inner.node.refs, text ∈ outer.node.refs
  fragment : '#' ∈ outer.reference.toList → '#' ∈ inner.reference.toList
  origin : '#' ∈ outer.reference.toList → inner.origin = outer.origin

/-- What stands under keys of a site stands inside it, if it is a smaller part of the node. -/
theorem inside_under {node : Document} (keys : List String)
    (hsmaller : sizeOf node < sizeOf site.node) (hrefs : ∀ text ∈ node.refs, text ∈ site.node.refs) :
    (site.under keys node).Inside site where
  smaller := hsmaller
  refs := hrefs
  fragment h := Reference.mem_child h keys
  origin h := Reference.document_child h keys

theorem inside_items (hkey : key ≠ "$ref") (h : inner ∈ site.items key) : inner.Inside site := by
  have hsmaller := sizeOf_items_lt h
  obtain ⟨items, index, node, hitems, hnode, rfl⟩ := exists_of_mem_items h
  exact inside_under _ hsmaller fun text htext =>
    Document.mem_refs_of_itemsAt? hkey hitems (List.mem_of_getElem? hnode) htext

theorem inside_object? (hkey : key ≠ "$ref") (h : site.object? key = some inner) :
    inner.Inside site := by
  have hsmaller := sizeOf_object?_lt h
  obtain ⟨node, hnode, rfl⟩ := Option.map_eq_some_iff.1 h
  exact inside_under _ hsmaller fun text htext =>
    Document.mem_refs_of_get? hkey (Option.filter_eq_some_iff.1 hnode).1 htext

/-- The text under `$ref` is among the references of a site. -/
theorem mem_refs_of_target? {text : String} (h : site.target? = some text) :
    text ∈ site.node.refs :=
  Document.mem_refs_of_textAt? h

end ApiModel.Site
