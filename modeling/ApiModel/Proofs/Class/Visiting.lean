import ApiModel.Class.Rule
import ApiModel.Proofs.Reference.Paths
import Mathlib.Data.List.Nodup

/-!
# The order of a visit

Where object schemas are looked for in a document, and in which order, said of the document alone. A place is
a part of a document with the path of keys and positions that leads there. From a root, the places of its
schemas come before the root itself (`Document.schemaPlaces`); behind an object schema come the places nested
in it (`Document.nestedPlaces`), those of its inline `allOf` members among them. A visit takes all of these
places depth first (`Document.visits`), and it comes to no place twice (`Document.nodup_visits`).
-/

namespace ApiModel

/-- A part of a document, and the path that leads to it. -/
structure Place where
  path : List String
  node : Document
  deriving Inhabited

/-- A place as seen from where the path to its document begins. -/
def Place.behind (path : List String) (place : Place) : Place := ⟨path ++ place.path, place.node⟩

namespace Document

/-- The entries of the object under a key. -/
def entryPlaces (node : Document) (key : String) : List Place :=
  ((node.entriesAt? key).getD []).map fun (name, value) => ⟨[key, name], value⟩

/-- The items of the array under a key. -/
def itemPlaces (node : Document) (key : String) : List Place :=
  ((node.itemsAt? key).getD []).mapIdx fun index item => ⟨[key, toString index], item⟩

/-- The object under a key. -/
def objectPlace? (node : Document) (key : String) : Option Place :=
  ((node.get? key).filter isMap).map fun value => ⟨[key], value⟩

/-- The schemas of a root: those of its components, then its definitions. -/
def schemaPlaces (node : Document) : List Place :=
  (node.get? "components").toList.flatMap (fun components =>
      (components.entryPlaces "schemas").map (Place.behind ["components"])) ++
    node.entryPlaces "definitions"

/-- The properties of an object schema, each with its items behind it if they are an object. -/
def propertyPlaces (node : Document) : List Place :=
  (node.entryPlaces "properties").flatMap fun property =>
    property :: (property.node.objectPlace? "items").toList.map (Place.behind property.path)

/-- What a schema says of the keys that are no properties: the schemas of its patterns, then the one of all
other keys. -/
def extensionPlaces (node : Document) : List Place :=
  node.entryPlaces "patternProperties" ++ (node.objectPlace? "additionalProperties").toList

/-! Places hold smaller nodes. -/

theorem sizeOf_entryPlaces_lt {node : Document} {key : String} {place : Place}
    (h : place ∈ node.entryPlaces key) : sizeOf place.node < sizeOf node := by
  unfold entryPlaces at h
  cases hentries : node.entriesAt? key with
  | none => simp [hentries] at h
  | some entries =>
    rw [hentries] at h
    obtain ⟨entry, hentry, rfl⟩ := List.mem_map.1 h
    exact sizeOf_lt_of_entriesAt? hentries hentry

theorem sizeOf_itemPlaces_lt {node : Document} {key : String} {place : Place}
    (h : place ∈ node.itemPlaces key) : sizeOf place.node < sizeOf node := by
  unfold itemPlaces at h
  cases hitems : node.itemsAt? key with
  | none => simp [hitems] at h
  | some items =>
    rw [hitems] at h
    obtain ⟨index, hindex, rfl⟩ := List.mem_mapIdx.1 h
    exact sizeOf_lt_of_itemsAt? hitems (List.getElem_mem hindex)

theorem sizeOf_objectPlace?_lt {node : Document} {key : String} {place : Place}
    (h : node.objectPlace? key = some place) : sizeOf place.node < sizeOf node := by
  unfold objectPlace? at h
  obtain ⟨value, hvalue, rfl⟩ := Option.map_eq_some_iff.1 h
  exact sizeOf_get?_lt (Option.filter_eq_some_iff.1 hvalue).1

/-- The places nested in an object schema, those of its inline `allOf` members between its properties and
what stands for all other keys. -/
def nestedPlaces (node : Document) : List Place :=
  node.propertyPlaces ++
    (node.itemPlaces "allOf").attach.flatMap (fun member =>
      if (member.1.node.textAt? "$ref").isSome then []
      else (nestedPlaces member.1.node).map (Place.behind member.1.path)) ++
    node.extensionPlaces
termination_by sizeOf node
decreasing_by exact sizeOf_itemPlaces_lt member.2

/-- The places nested in an `allOf` member, as seen from the node that the member belongs to. -/
def memberPlaces (member : Place) : List Place :=
  if (member.node.textAt? "$ref").isSome then []
  else member.node.nestedPlaces.map (Place.behind member.path)

theorem nestedPlaces_eq (node : Document) :
    node.nestedPlaces =
      node.propertyPlaces ++ (node.itemPlaces "allOf").flatMap memberPlaces ++
        node.extensionPlaces := by
  rw [nestedPlaces, List.flatMap_subtype (g := memberPlaces) fun _ _ => rfl, List.unattach_attach]

theorem sizeOf_schemaPlaces_lt {node : Document} {place : Place} (h : place ∈ node.schemaPlaces) :
    sizeOf place.node < sizeOf node := by
  rcases List.mem_append.1 h with h | h
  · obtain ⟨components, hcomponents, hinner⟩ := List.mem_flatMap.1 h
    obtain ⟨inner, hentry, rfl⟩ := List.mem_map.1 hinner
    have hlt : sizeOf inner.node < sizeOf components := sizeOf_entryPlaces_lt hentry
    exact Nat.lt_trans hlt (sizeOf_get?_lt (Option.mem_toList.1 hcomponents))
  · exact sizeOf_entryPlaces_lt h

theorem sizeOf_propertyPlaces_lt {node : Document} {place : Place} (h : place ∈ node.propertyPlaces) :
    sizeOf place.node < sizeOf node := by
  obtain ⟨property, hproperty, h⟩ := List.mem_flatMap.1 h
  have hlt := sizeOf_entryPlaces_lt hproperty
  rcases List.mem_cons.1 h with rfl | h
  · exact hlt
  · obtain ⟨items, hitems, rfl⟩ := List.mem_map.1 h
    have hinner : sizeOf items.node < sizeOf property.node :=
      sizeOf_objectPlace?_lt (Option.mem_toList.1 hitems)
    exact Nat.lt_trans hinner hlt

theorem sizeOf_extensionPlaces_lt {node : Document} {place : Place}
    (h : place ∈ node.extensionPlaces) : sizeOf place.node < sizeOf node := by
  rcases List.mem_append.1 h with h | h
  · exact sizeOf_entryPlaces_lt h
  · exact sizeOf_objectPlace?_lt (Option.mem_toList.1 h)

theorem sizeOf_nestedPlaces_lt {node : Document} {place : Place} (h : place ∈ node.nestedPlaces) :
    sizeOf place.node < sizeOf node := by
  rw [nestedPlaces_eq] at h
  rcases List.mem_append.1 h with h | h
  · rcases List.mem_append.1 h with h | h
    · exact sizeOf_propertyPlaces_lt h
    · obtain ⟨member, hmember, h⟩ := List.mem_flatMap.1 h
      have hlt := sizeOf_itemPlaces_lt hmember
      unfold memberPlaces at h
      split at h
      · cases h
      · obtain ⟨inner, hinner, rfl⟩ := List.mem_map.1 h
        have hsmaller : sizeOf inner.node < sizeOf member.node := sizeOf_nestedPlaces_lt hinner
        exact Nat.lt_trans hsmaller hlt
  · exact sizeOf_extensionPlaces_lt h
termination_by sizeOf node

/-- The places that a visit comes to before the node itself: the schemas of a root. -/
def placesBefore (node : Document) : List Place :=
  if ClassRule.documentRoot.supports node then node.schemaPlaces else []

/-- The places that a visit comes to behind the node itself: those nested in an object schema. -/
def placesBehind (node : Document) : List Place :=
  if ClassRule.objectSchema.supports node then node.nestedPlaces else []

theorem sizeOf_placesBefore_lt {node : Document} {place : Place} (h : place ∈ node.placesBefore) :
    sizeOf place.node < sizeOf node := by
  unfold placesBefore at h
  split at h
  · exact sizeOf_schemaPlaces_lt h
  · cases h

theorem sizeOf_placesBehind_lt {node : Document} {place : Place} (h : place ∈ node.placesBehind) :
    sizeOf place.node < sizeOf node := by
  unfold placesBehind at h
  split at h
  · exact sizeOf_nestedPlaces_lt h
  · cases h

theorem sizeOf_places_lt {node : Document} {place : Place}
    (h : place ∈ node.placesBefore ++ node.placesBehind) : sizeOf place.node < sizeOf node :=
  (List.mem_append.1 h).elim sizeOf_placesBefore_lt sizeOf_placesBehind_lt

/-- All places that a visit comes to, depth first. -/
def visits (node : Document) : List Place :=
  node.placesBefore.attach.flatMap (fun place =>
      (visits place.1.node).map (Place.behind place.1.path)) ++
    ⟨[], node⟩ ::
    node.placesBehind.attach.flatMap (fun place =>
      (visits place.1.node).map (Place.behind place.1.path))
termination_by sizeOf node
decreasing_by
  · exact sizeOf_placesBefore_lt place.2
  · exact sizeOf_placesBehind_lt place.2

/-- The object schemas that a visit comes to. -/
def visitedSchemas (node : Document) : List Place :=
  node.visits.filter (ClassRule.objectSchema.supports ·.node)

end Document

/-- What a visit comes to at a place. -/
def Place.visits (place : Place) : List Place := place.node.visits.map (Place.behind place.path)

namespace Document

variable {node : Document} {place : Place} {key : String}

theorem visits_eq (node : Document) :
    node.visits =
      node.placesBefore.flatMap Place.visits ++ ⟨[], node⟩ ::
        node.placesBehind.flatMap Place.visits := by
  rw [visits, List.flatMap_subtype (g := Place.visits) fun _ _ => rfl, List.unattach_attach,
    List.flatMap_subtype (g := Place.visits) fun _ _ => rfl, List.unattach_attach]

/-- The places that a visit goes on to are schemas of a root or nested in an object schema. -/
theorem places_sublist (node : Document) :
    (node.placesBefore ++ node.placesBehind).Sublist (node.schemaPlaces ++ node.nestedPlaces) := by
  refine List.Sublist.append ?_ ?_
  · unfold placesBefore
    split
    · exact List.Sublist.refl _
    · exact List.nil_sublist _
  · unfold placesBehind
    split
    · exact List.Sublist.refl _
    · exact List.nil_sublist _

/-! ## Paths lead to their places -/

theorem leadsTo_entryPlaces (hnode : node.WellFormed) (h : place ∈ node.entryPlaces key) :
    node.LeadsTo place.path place.node := by
  unfold entryPlaces at h
  cases hentries : node.entriesAt? key with
  | none => simp [hentries] at h
  | some entries =>
    rw [hentries] at h
    obtain ⟨entry, hentry, rfl⟩ := List.mem_map.1 h
    have hget := get?_of_entriesAt? hentries
    exact .key hget (.key (get?_of_mem (hnode.get? hget) hentry) .here)

theorem leadsTo_itemPlaces (h : place ∈ node.itemPlaces key) :
    node.LeadsTo place.path place.node := by
  unfold itemPlaces at h
  cases hitems : node.itemsAt? key with
  | none => simp [hitems] at h
  | some items =>
    rw [hitems] at h
    obtain ⟨index, hindex, rfl⟩ := List.mem_mapIdx.1 h
    exact .key (get?_of_itemsAt? hitems) (.item (List.getElem?_eq_getElem hindex))

theorem leadsTo_objectPlace? (h : node.objectPlace? key = some place) :
    node.LeadsTo place.path place.node := by
  unfold objectPlace? at h
  obtain ⟨value, hvalue, rfl⟩ := Option.map_eq_some_iff.1 h
  exact .key (Option.filter_eq_some_iff.1 hvalue).1 .here

theorem leadsTo_schemaPlaces (hnode : node.WellFormed) (h : place ∈ node.schemaPlaces) :
    node.LeadsTo place.path place.node := by
  rcases List.mem_append.1 h with h | h
  · obtain ⟨components, hcomponents, hinner⟩ := List.mem_flatMap.1 h
    obtain ⟨inner, hentry, rfl⟩ := List.mem_map.1 hinner
    have hget := Option.mem_toList.1 hcomponents
    exact .key hget (leadsTo_entryPlaces (hnode.get? hget) hentry)
  · exact leadsTo_entryPlaces hnode h

theorem leadsTo_propertyPlaces (hnode : node.WellFormed) (h : place ∈ node.propertyPlaces) :
    node.LeadsTo place.path place.node := by
  obtain ⟨property, hproperty, h⟩ := List.mem_flatMap.1 h
  have hleads := leadsTo_entryPlaces hnode hproperty
  rcases List.mem_cons.1 h with rfl | h
  · exact hleads
  · obtain ⟨items, hitems, rfl⟩ := List.mem_map.1 h
    exact hleads.trans (leadsTo_objectPlace? (Option.mem_toList.1 hitems))

theorem leadsTo_nestedPlaces {node : Document} {place : Place} (hnode : node.WellFormed)
    (h : place ∈ node.nestedPlaces) : node.LeadsTo place.path place.node := by
  rw [nestedPlaces_eq] at h
  rcases List.mem_append.1 h with h | h
  · rcases List.mem_append.1 h with h | h
    · exact leadsTo_propertyPlaces hnode h
    · obtain ⟨member, hmember, h⟩ := List.mem_flatMap.1 h
      have hleads := leadsTo_itemPlaces hmember
      have hlt := sizeOf_itemPlaces_lt hmember
      unfold memberPlaces at h
      split at h
      · cases h
      · obtain ⟨inner, hinner, rfl⟩ := List.mem_map.1 h
        exact hleads.trans (leadsTo_nestedPlaces (hleads.wellFormed hnode) hinner)
  · rcases List.mem_append.1 h with h | h
    · exact leadsTo_entryPlaces hnode h
    · exact leadsTo_objectPlace? (Option.mem_toList.1 h)
termination_by sizeOf node

theorem leadsTo_places (hnode : node.WellFormed)
    (h : place ∈ node.placesBefore ++ node.placesBehind) : node.LeadsTo place.path place.node := by
  rcases List.mem_append.1 ((places_sublist node).subset h) with h | h
  · exact leadsTo_schemaPlaces hnode h
  · exact leadsTo_nestedPlaces hnode h

end Document

/-! ## Paths that part -/

/-- Two paths part if what is behind the one is never behind the other. -/
def Parting (path other : List String) : Prop := ∀ rest more : List String, path ++ rest ≠ other ++ more

/-- Two paths part for a visit if they do so where no `items` come next. A visit goes on to the items of a
property from the node that has the property, and never from the property itself. -/
def Apart (path other : List String) : Prop :=
  ∀ rest more : List String, rest.head? ≠ some "items" → more.head? ≠ some "items" →
    path ++ rest ≠ other ++ more

section

variable {path other : List String}

theorem Parting.of_ne {key otherKey : String} (h : key ≠ otherKey) (path other : List String) :
    Parting (key :: path) (otherKey :: other) := by
  intro rest more heq
  exact h (List.cons.inj heq).1

theorem Parting.behind (h : Parting path other) (front : List String) :
    Parting (front ++ path) (front ++ other) := by
  intro rest more heq
  rw [List.append_assoc, List.append_assoc] at heq
  exact h rest more (List.append_cancel_left heq)

/-- Paths that part do so however they go on. -/
theorem Parting.apart (h : Parting path other) {longer longerOther : List String}
    (hpath : path <+: longer) (hother : other <+: longerOther) : Apart longer longerOther := by
  obtain ⟨rest, rfl⟩ := hpath
  obtain ⟨more, rfl⟩ := hother
  intro s t _ _ heq
  rw [List.append_assoc, List.append_assoc] at heq
  exact h _ _ heq

theorem apart_items (path : List String) : Apart path (path ++ ["items"]) := by
  intro rest more hrest _ heq
  rw [List.append_assoc] at heq
  refine hrest ?_
  rw [List.append_cancel_left heq]
  rfl

theorem Apart.behind (h : Apart path other) (front : List String) :
    Apart (front ++ path) (front ++ other) := by
  intro rest more hrest hmore heq
  rw [List.append_assoc, List.append_assoc] at heq
  exact h rest more hrest hmore (List.append_cancel_left heq)

theorem apart_of_head? {key otherKey : String} (hne : key ≠ otherKey)
    (hpath : path.head? = some key) (hother : other.head? = some otherKey) : Apart path other := by
  obtain ⟨rest, rfl⟩ := List.head?_eq_some_iff.1 hpath
  obtain ⟨more, rfl⟩ := List.head?_eq_some_iff.1 hother
  exact (Parting.of_ne hne rest more).apart List.prefix_rfl List.prefix_rfl

end

/-- All places are apart from those behind them. -/
def ApartPlaces (places : List Place) : Prop := places.Pairwise fun a b => Apart a.path b.path

/-- What stands behind places that part is apart if it is so at every one of them. -/
theorem apartPlaces_flatMap {places : List Place} {f : Place → List Place}
    (hparting : places.Pairwise fun a b => Parting a.path b.path)
    (hbehind : ∀ place ∈ places, ∀ inner ∈ f place, place.path <+: inner.path)
    (hinner : ∀ place ∈ places, ApartPlaces (f place)) : ApartPlaces (places.flatMap f) := by
  refine List.pairwise_flatMap.2 ⟨hinner, hparting.imp_of_mem ?_⟩
  intro a b ha hb hab x hx y hy
  exact hab.apart (hbehind a ha x hx) (hbehind b hb y hy)

namespace Document

variable {node : Document} {place : Place} {key : String}

theorem parting_entryPlaces (hnode : node.WellFormed) (key : String) :
    (node.entryPlaces key).Pairwise fun a b => Parting a.path b.path := by
  unfold entryPlaces
  cases hentries : node.entriesAt? key with
  | none => exact List.Pairwise.nil
  | some entries =>
    have hnames := (wellFormed_map.1 (hnode.get? (get?_of_entriesAt? hentries))).1
    refine List.pairwise_map.2 ((List.pairwise_map.1 hnames).imp fun hne => ?_)
    exact (Parting.of_ne hne [] []).behind [key]

theorem parting_itemPlaces (node : Document) (key : String) :
    (node.itemPlaces key).Pairwise fun a b => Parting a.path b.path := by
  unfold itemPlaces
  refine List.pairwise_iff_getElem.2 fun i j hi hj hlt => ?_
  rw [List.getElem_mapIdx, List.getElem_mapIdx]
  have hne : toString i ≠ toString j := fun heq =>
    Nat.ne_of_lt hlt (Pointer.toString_injective heq)
  exact (Parting.of_ne hne [] []).behind [key]

/-! ### Where paths begin -/

theorem head?_entryPlaces (h : place ∈ node.entryPlaces key) : place.path.head? = some key := by
  obtain ⟨entry, _, rfl⟩ := List.mem_map.1 h
  rfl

theorem head?_itemPlaces (h : place ∈ node.itemPlaces key) : place.path.head? = some key := by
  obtain ⟨index, _, rfl⟩ := List.mem_mapIdx.1 h
  rfl

theorem head?_objectPlace? (h : node.objectPlace? key = some place) :
    place.path.head? = some key := by
  obtain ⟨value, _, rfl⟩ := Option.map_eq_some_iff.1 h
  rfl

/-- A property and its items stand behind the path of the property. -/
theorem prefix_of_property {property : Place}
    (h : place ∈ property :: (property.node.objectPlace? "items").toList.map
      (Place.behind property.path)) : property.path <+: place.path := by
  rcases List.mem_cons.1 h with rfl | h
  · exact List.prefix_rfl
  · obtain ⟨items, _, rfl⟩ := List.mem_map.1 h
    exact List.prefix_append _ _

theorem prefix_of_memberPlaces {member : Place} (h : place ∈ memberPlaces member) :
    member.path <+: place.path := by
  unfold memberPlaces at h
  split at h
  · cases h
  · obtain ⟨inner, _, rfl⟩ := List.mem_map.1 h
    exact List.prefix_append _ _

theorem head?_of_prefix {path longer : List String} (hfront : path <+: longer)
    (h : path.head? = some key) : longer.head? = some key := by
  obtain ⟨rest, rfl⟩ := hfront
  rw [List.head?_append, h]
  rfl

theorem head?_schemaPlaces (h : place ∈ node.schemaPlaces) :
    place.path.head? = some "components" ∨ place.path.head? = some "definitions" := by
  rcases List.mem_append.1 h with h | h
  · obtain ⟨components, _, hinner⟩ := List.mem_flatMap.1 h
    obtain ⟨inner, _, rfl⟩ := List.mem_map.1 hinner
    exact Or.inl rfl
  · exact Or.inr (head?_entryPlaces h)

theorem head?_propertyPlaces (h : place ∈ node.propertyPlaces) :
    place.path.head? = some "properties" := by
  obtain ⟨property, hproperty, h⟩ := List.mem_flatMap.1 h
  exact head?_of_prefix (prefix_of_property h) (head?_entryPlaces hproperty)

theorem head?_flatMap_memberPlaces
    (h : place ∈ (node.itemPlaces "allOf").flatMap memberPlaces) :
    place.path.head? = some "allOf" := by
  obtain ⟨member, hmember, h⟩ := List.mem_flatMap.1 h
  exact head?_of_prefix (prefix_of_memberPlaces h) (head?_itemPlaces hmember)

theorem head?_extensionPlaces (h : place ∈ node.extensionPlaces) :
    place.path.head? = some "patternProperties" ∨
      place.path.head? = some "additionalProperties" := by
  rcases List.mem_append.1 h with h | h
  · exact Or.inl (head?_entryPlaces h)
  · exact Or.inr (head?_objectPlace? (Option.mem_toList.1 h))

theorem head?_nestedPlaces (h : place ∈ node.nestedPlaces) :
    place.path.head? = some "properties" ∨ place.path.head? = some "allOf" ∨
      place.path.head? = some "patternProperties" ∨
        place.path.head? = some "additionalProperties" := by
  rw [nestedPlaces_eq] at h
  rcases List.mem_append.1 h with h | h
  · rcases List.mem_append.1 h with h | h
    · exact Or.inl (head?_propertyPlaces h)
    · exact Or.inr (Or.inl (head?_flatMap_memberPlaces h))
  · exact Or.inr (Or.inr (head?_extensionPlaces h))

/-! ### All places -/

theorem apartPlaces_entryPlaces (hnode : node.WellFormed) (key : String) :
    ApartPlaces (node.entryPlaces key) :=
  (parting_entryPlaces hnode key).imp fun h => h.apart List.prefix_rfl List.prefix_rfl

theorem apartPlaces_schemaPlaces (hnode : node.WellFormed) : ApartPlaces node.schemaPlaces := by
  refine List.pairwise_append.2 ⟨?_, apartPlaces_entryPlaces hnode "definitions", ?_⟩
  · cases hcomponents : node.get? "components" with
    | none => exact List.Pairwise.nil
    | some components =>
      have hinner := apartPlaces_entryPlaces (hnode.get? hcomponents) "schemas"
      rw [Option.toList_some, List.flatMap_singleton]
      exact List.pairwise_map.2 (hinner.imp fun h => h.behind ["components"])
  · intro a ha b hb
    obtain ⟨components, _, hinner⟩ := List.mem_flatMap.1 ha
    obtain ⟨inner, _, rfl⟩ := List.mem_map.1 hinner
    exact apart_of_head? (by decide) rfl (head?_entryPlaces hb)

theorem apartPlaces_propertyPlaces (hnode : node.WellFormed) : ApartPlaces node.propertyPlaces := by
  refine apartPlaces_flatMap (parting_entryPlaces hnode "properties")
    (fun property _ place => prefix_of_property) fun property _ => ?_
  -- the items of a property stand behind it, and what stands behind the property is apart from them
  refine List.pairwise_cons.2 ⟨fun place hplace => ?_, ?_⟩
  · obtain ⟨items, hitems, rfl⟩ := List.mem_map.1 hplace
    obtain ⟨value, _, rfl⟩ := Option.map_eq_some_iff.1 (Option.mem_toList.1 hitems)
    exact apart_items property.path
  · cases property.node.objectPlace? "items" with
    | none => exact List.Pairwise.nil
    | some items => exact List.pairwise_singleton _ _

theorem apartPlaces_extensionPlaces (hnode : node.WellFormed) : ApartPlaces node.extensionPlaces := by
  refine List.pairwise_append.2 ⟨apartPlaces_entryPlaces hnode "patternProperties", ?_, ?_⟩
  · cases node.objectPlace? "additionalProperties" with
    | none => exact List.Pairwise.nil
    | some place => exact List.pairwise_singleton _ _
  · intro a ha b hb
    exact apart_of_head? (by decide) (head?_entryPlaces ha)
      (head?_objectPlace? (Option.mem_toList.1 hb))

theorem apartPlaces_nestedPlaces {node : Document} (hnode : node.WellFormed) :
    ApartPlaces node.nestedPlaces := by
  rw [nestedPlaces_eq]
  refine List.pairwise_append.2 ⟨List.pairwise_append.2 ⟨apartPlaces_propertyPlaces hnode, ?_, ?_⟩,
    apartPlaces_extensionPlaces hnode, ?_⟩
  · refine apartPlaces_flatMap (parting_itemPlaces node "allOf")
      (fun member _ place => prefix_of_memberPlaces) fun member hmember => ?_
    have hlt := sizeOf_itemPlaces_lt hmember
    unfold memberPlaces
    split
    · exact List.Pairwise.nil
    · have hinner := apartPlaces_nestedPlaces ((leadsTo_itemPlaces hmember).wellFormed hnode)
      exact List.pairwise_map.2 (hinner.imp fun h => h.behind member.path)
  · intro a ha b hb
    exact apart_of_head? (by decide) (head?_propertyPlaces ha) (head?_flatMap_memberPlaces hb)
  · intro a ha b hb
    rcases List.mem_append.1 ha with ha | ha
    · have ha := head?_propertyPlaces ha
      rcases head?_extensionPlaces hb with hb | hb
      · exact apart_of_head? (by decide) ha hb
      · exact apart_of_head? (by decide) ha hb
    · have ha := head?_flatMap_memberPlaces ha
      rcases head?_extensionPlaces hb with hb | hb
      · exact apart_of_head? (by decide) ha hb
      · exact apart_of_head? (by decide) ha hb
termination_by sizeOf node

/-- No two of the places that a visit goes on to stand behind each other, but for a property and its
items. -/
theorem apartPlaces_places (hnode : node.WellFormed) :
    ApartPlaces (node.placesBefore ++ node.placesBehind) := by
  refine List.Pairwise.sublist (places_sublist node) ?_
  refine List.pairwise_append.2 ⟨apartPlaces_schemaPlaces hnode, apartPlaces_nestedPlaces hnode, ?_⟩
  intro a ha b hb
  rcases head?_schemaPlaces ha with ha | ha
  · rcases head?_nestedPlaces hb with hb | hb | hb | hb <;> exact apart_of_head? (by decide) ha hb
  · rcases head?_nestedPlaces hb with hb | hb | hb | hb <;> exact apart_of_head? (by decide) ha hb

theorem head?_places (h : place ∈ node.placesBefore ++ node.placesBehind) :
    ∃ key, place.path.head? = some key ∧ key ≠ "items" := by
  rcases List.mem_append.1 ((places_sublist node).subset h) with h | h
  · rcases head?_schemaPlaces h with h | h <;> exact ⟨_, h, by decide⟩
  · rcases head?_nestedPlaces h with h | h | h | h <;> exact ⟨_, h, by decide⟩

/-! ## A visit comes to no place twice -/

/-- A visit comes to the node itself and to what it goes on to, in another order. -/
theorem perm_visits (node : Document) :
    node.visits.Perm
      (⟨[], node⟩ :: (node.placesBefore ++ node.placesBehind).flatMap Place.visits) := by
  rw [visits_eq, List.flatMap_append]
  exact List.perm_middle

/-- A visit never comes to the items of the node itself. -/
theorem head?_visits (h : place ∈ node.visits) : place.path.head? ≠ some "items" := by
  rcases List.mem_cons.1 ((perm_visits node).mem_iff.1 h) with rfl | h
  · simp
  · obtain ⟨outer, houter, h⟩ := List.mem_flatMap.1 h
    obtain ⟨inner, _, rfl⟩ := List.mem_map.1 h
    obtain ⟨key, hhead, hne⟩ := head?_places houter
    show (outer.path ++ inner.path).head? ≠ some "items"
    rw [List.head?_append, hhead]
    exact fun heq => hne (Option.some.inj heq)

/-- The path of every place that a visit comes to leads to its node. -/
theorem leadsTo_visits {node : Document} {place : Place} (hnode : node.WellFormed)
    (h : place ∈ node.visits) : node.LeadsTo place.path place.node := by
  rcases List.mem_cons.1 ((perm_visits node).mem_iff.1 h) with rfl | h
  · exact .here
  · obtain ⟨outer, houter, h⟩ := List.mem_flatMap.1 h
    obtain ⟨inner, hinner, rfl⟩ := List.mem_map.1 h
    have hlt := sizeOf_places_lt houter
    have hleads := leadsTo_places hnode houter
    exact hleads.trans (leadsTo_visits (hleads.wellFormed hnode) hinner)
termination_by sizeOf node

/-- A visit comes to no place twice. -/
theorem nodup_visits {node : Document} (hnode : node.WellFormed) :
    (node.visits.map Place.path).Nodup := by
  rw [((perm_visits node).map Place.path).nodup_iff, List.map_cons, List.nodup_cons]
  constructor
  · intro h
    obtain ⟨place, hplace, hnil⟩ := List.mem_map.1 h
    obtain ⟨outer, houter, hplace⟩ := List.mem_flatMap.1 hplace
    obtain ⟨inner, _, rfl⟩ := List.mem_map.1 hplace
    obtain ⟨key, hhead, _⟩ := head?_places houter
    rw [(List.append_eq_nil_iff.1 hnil).1] at hhead
    cases hhead
  · rw [List.Nodup, List.pairwise_map, List.pairwise_flatMap]
    constructor
    · intro outer houter
      have hlt := sizeOf_places_lt houter
      have hinner := nodup_visits ((leadsTo_places hnode houter).wellFormed hnode)
      refine List.pairwise_map.2 ((List.pairwise_map.1 hinner).imp fun hne heq => hne ?_)
      exact List.append_cancel_left heq
    · refine (apartPlaces_places hnode).imp fun hapart => ?_
      intro x hx y hy
      obtain ⟨a, ha, rfl⟩ := List.mem_map.1 hx
      obtain ⟨b, hb, rfl⟩ := List.mem_map.1 hy
      exact hapart a.path b.path (head?_visits ha) (head?_visits hb)
termination_by sizeOf node

end Document

end ApiModel
