import ApiModel.Reference

/-!
Sites: nodes together with the references they stand under. The sites below a node's keys hold
smaller nodes, which is what the walks over schemas end by.
-/

namespace ApiModel

/-- A node and its reference. -/
structure Site where
  node : Document
  reference : String
  deriving Inhabited

namespace Site

/-- The document that the site is in. -/
def origin (site : Site) : String := Reference.document site.reference

/-- A node that stands under keys of the site. -/
def under (site : Site) (keys : List String) (node : Document) : Site :=
  ⟨node, Reference.child site.reference keys⟩

/-- The reference that a `$ref` text of the site means. -/
def resolve (site : Site) (target : String) : String := Reference.resolve site.origin target

/-- The text under `$ref`. -/
def target? (site : Site) : Option String := site.node.textAt? "$ref"

/-- The items of the array under a key. -/
def items (site : Site) (key : String) : List Site :=
  ((site.node.itemsAt? key).getD []).mapIdx fun index node => site.under [key, toString index] node

/-- The entries of the object under a key. -/
def entries (site : Site) (key : String) : List (String × Site) :=
  ((site.node.entriesAt? key).getD []).map fun (name, node) => (name, site.under [key, name] node)

/-- The object under a key. -/
def object? (site : Site) (key : String) : Option Site :=
  ((site.node.get? key).filter Document.isMap).map (site.under [key])

theorem sizeOf_items_lt {site item : Site} {key : String} (h : item ∈ site.items key) :
    sizeOf item.node < sizeOf site.node := by
  unfold items at h
  cases hitems : site.node.itemsAt? key with
  | none => simp [hitems] at h
  | some nodes =>
    rw [hitems] at h
    obtain ⟨index, hindex, rfl⟩ := List.mem_mapIdx.1 h
    exact Document.sizeOf_lt_of_itemsAt? hitems (List.getElem_mem hindex)

theorem sizeOf_entries_lt {site : Site} {key : String} {entry : String × Site}
    (h : entry ∈ site.entries key) : sizeOf entry.2.node < sizeOf site.node := by
  unfold entries at h
  cases hentries : site.node.entriesAt? key with
  | none => simp [hentries] at h
  | some nodes =>
    rw [hentries] at h
    obtain ⟨node, hnode, rfl⟩ := List.mem_map.1 h
    exact Document.sizeOf_lt_of_entriesAt? hentries hnode

theorem sizeOf_object?_lt {site inner : Site} {key : String} (h : site.object? key = some inner) :
    sizeOf inner.node < sizeOf site.node := by
  unfold object? at h
  obtain ⟨node, hnode, rfl⟩ := Option.map_eq_some_iff.1 h
  exact Document.sizeOf_get?_lt (Option.filter_eq_some_iff.1 hnode).1

end Site

end ApiModel
