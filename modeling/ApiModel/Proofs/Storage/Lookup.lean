import ApiModel.Proofs.Storage.Filing

/-!
# Where a class is found

A class under a reference is read by asking the shelves for it, that of its own document first. It is changed,
and its relations are read, by asking for the key of a shelf first and then for what stands there. Where no key
stands twice, all of this comes to one place (`Storage.Finds`) or to none (`Storage.Lacks`), whichever shelves
hold the reference (`Storage.lookups_agree`).
-/

namespace ApiModel

/-! ## Slots -/

/-- What is found under a key stands at a position, and what is changed under the key stands there too. -/
theorem Keyed.exists_position_of_get? {α κ : Type} [DecidableEq κ] {key : α → κ} {k : κ} {x : α} {xs : List α}
    (h : get? key k xs = some x) :
    ∃ position : Nat, xs[position]? = some x ∧ ∀ f, modify key k f xs = xs.modify position f := by
  induction xs with
  | nil => cases h
  | cons y ys ih =>
    rw [get?] at h
    split at h
    · next hkey =>
      cases h
      exact ⟨0, rfl, fun f => by rw [modify, if_pos hkey, List.modify_zero_cons]⟩
    · next hkey =>
      obtain ⟨position, hx, hmodify⟩ := ih h
      exact ⟨position + 1, hx, fun f => by rw [modify, if_neg hkey, hmodify, List.modify_succ_cons]⟩

namespace Slots

variable {α : Type} {slots : Slots α} {key : String}

/-- Only what is done to the slot at the position matters. -/
theorem modify_congr {position : Nat} {slot : String × α} (h : slots[position]? = some slot)
    {f g : String × α → String × α} (hfg : f slot = g slot) : slots.modify position f = slots.modify position g := by
  rw [List.modify_eq_set_getElem?, List.modify_eq_set_getElem?, h, Option.map_eq_map, Option.map_some,
    Option.map_eq_map, Option.map_some, hfg]

theorem exists_position_of_at? {x : α} (h : slots.at? key = some x) :
    ∃ position : Nat, slots[position]? = some (key, x) ∧
      ∀ f, slots.change key f = slots.modify position fun slot => (slot.1, f slot.2) := by
  obtain ⟨slot, hget, rfl⟩ := Option.map_eq_some_iff.1 h
  obtain rfl := Keyed.key_of_get? hget
  obtain ⟨position, hslot, hmodify⟩ := Keyed.exists_position_of_get? hget
  exact ⟨position, hslot, fun f => hmodify _⟩

theorem at?_change (slots : Slots α) (key : String) (f : α → α) :
    (slots.change key f).at? key = (slots.at? key).map f := by
  have hkeys : ∀ slot : String × α, Prod.fst (slot.1, f slot.2) = slot.1 := fun _ => rfl
  rw [at?, change, Keyed.get?_modify hkeys, if_pos rfl, Option.map_map, at?, Option.map_map]
  rfl

theorem keys_change (slots : Slots α) (key : String) (f : α → α) : (slots.change key f).keys = slots.keys := by
  have hkeys : ∀ slot : String × α, Prod.fst (slot.1, f slot.2) = slot.1 := fun _ => rfl
  exact Keyed.map_modify hkeys slots

theorem at?_of_mem {slot : String × α} (hkeys : slots.keys.Nodup) (h : slot ∈ slots) :
    slots.at? slot.1 = some slot.2 := by
  rw [at?, Keyed.get?_eq_some_of_mem hkeys h]
  rfl

end Slots

namespace Shelf

/-- Puts a class at a position. Its key and all other classes stay. -/
def setClassAt (shelf : Shelf) (position : Nat) (c : Class) : Shelf :=
  { shelf with classes := shelf.classes.modify position fun entry => (entry.1, c) }

variable (shelf : Shelf) (reference : String)

theorem class?_changeClass (f : Class → Class) :
    (shelf.changeClass reference f).class? reference = (shelf.class? reference).map f :=
  shelf.classes.at?_change reference f

theorem hasClass_changeClass (f : Class → Class) :
    (shelf.changeClass reference f).hasClass reference = shelf.hasClass reference := by
  rw [hasClass, class?_changeClass, Option.isSome_map]
  rfl

variable {shelf reference} in
theorem exists_position_of_class? {c : Class} (h : shelf.class? reference = some c) :
    ∃ position : Nat, shelf.classes[position]? = some (reference, c) ∧
      ∀ f, shelf.changeClass reference f = shelf.setClassAt position (f c) := by
  obtain ⟨position, hentry, hchange⟩ := Slots.exists_position_of_at? h
  refine ⟨position, hentry, fun f => ?_⟩
  have hclasses : shelf.classes.change reference f =
      shelf.classes.modify position fun entry => (entry.1, f c) := by
    rw [hchange]
    exact Slots.modify_congr hentry rfl
  rw [changeClass, hclasses]
  rfl

end Shelf

namespace Storage

/-- Where a class is stored: the position of its shelf, and its own on the shelf. -/
structure Place where
  shelf : Nat
  position : Nat

/-- Puts a class at a place. All keys, and whatever is at other places, stay. -/
def setClassAt (storage : Storage) (place : Place) (c : Class) : Storage :=
  { storage with
    shelves := storage.shelves.modify place.shelf fun slot => (slot.1, slot.2.setClassAt place.position c) }

/-- No shelf has a class under the reference, and none is found to read, to change or for its relations. -/
structure Lacks (storage : Storage) (reference : String) : Prop where
  nowhere : ∀ slot ∈ storage.shelves, slot.2.hasClass reference = false
  read : storage.class? reference = none
  toChange : storage.classToChange? reference = none
  change : ∀ f, storage.changeClass reference f = storage
  relations : storage.relations? reference = none

/-- The class `c` at a place of the shelf in `slot` is what a reference finds, to read, to change and for its
relations. -/
structure Finds (storage : Storage) (reference : String) (place : Place) (slot : String × Shelf) (c : Class) :
    Prop where
  shelf : storage.shelves[place.shelf]? = some slot
  owner : storage.owner? reference = some slot.1
  stored : slot.2.classes[place.position]? = some (reference, c)
  read : storage.class? reference = some c
  /-- Whatever is put at the place is read, so it is not a class of another shelf that reads the same. -/
  reread : ∀ d, (storage.setClassAt place d).class? reference = some d
  toChange : storage.classToChange? reference = some c
  change : ∀ f, storage.changeClass reference f = storage.setClassAt place (f c)
  relations : storage.relations? reference = slot.2.relations? reference

/-! ## The owner -/

/-- For each key, whether its shelf has a class under the reference. -/
def holders (storage : Storage) (reference : String) : Slots Bool :=
  storage.shelves.map fun slot => (slot.1, slot.2.hasClass reference)

/-- Which shelf owns a class hangs on nothing but which shelves hold it. -/
theorem owner?_eq (storage : Storage) (reference : String) :
    storage.owner? reference =
      if ((storage.holders reference).at? (Reference.document reference)).any id then
        some (Reference.document reference)
      else ((storage.holders reference).find? Prod.snd).map Prod.fst := by
  have hown : ((storage.holders reference).at? (Reference.document reference)).any id =
      (storage.shelfOf? reference).any (·.hasClass reference) := by
    have hkeys : ∀ slot : String × Shelf, Prod.fst (slot.1, slot.2.hasClass reference) = slot.1 := fun _ => rfl
    rw [holders, Slots.at?, Keyed.get?_map hkeys, shelfOf?, shelf?, Slots.at?, Option.map_map, Option.any_map,
      Option.any_map]
    rfl
  have hscan : ((storage.holders reference).find? Prod.snd).map Prod.fst =
      (storage.shelves.find? fun slot => slot.2.hasClass reference).map Prod.fst := by
    rw [holders, List.find?_map, Option.map_map]
    rfl
  rw [owner?, hown, hscan]

theorem holders_changeClass (storage : Storage) (reference : String) (f : Class → Class) :
    (storage.changeClass reference f).holders reference = storage.holders reference := by
  unfold changeClass
  split
  · exact Keyed.map_modify (fun slot => by rw [Shelf.hasClass_changeClass]) storage.shelves
  · rfl

theorem origins_changeClass (storage : Storage) (reference : String) (f : Class → Class) :
    (storage.changeClass reference f).origins = storage.origins := by
  unfold changeClass
  split
  · exact Slots.keys_change storage.shelves _ (·.changeClass reference f)
  · rfl

/-- The shelf of a document holds a reference where a class is found on it. -/
theorem any_hasClass (storage : Storage) (reference : String) :
    (storage.shelfOf? reference).any (·.hasClass reference) =
      ((storage.shelfOf? reference).bind (·.class? reference)).isSome := by
  cases storage.shelfOf? reference <;> rfl

/-- Nothing is found where no shelf owns the reference. -/
theorem lacks_of_owner? {storage : Storage} {reference : String} (h : storage.owner? reference = none) :
    storage.Lacks reference := by
  have hboth : (storage.shelfOf? reference).bind (·.class? reference) = none ∧
      ∀ slot ∈ storage.shelves, slot.2.hasClass reference = false := by
    unfold owner? at h
    rw [any_hasClass] at h
    split at h
    · cases h
    · next hown => exact ⟨by simpa using hown, by simpa using h⟩
  obtain ⟨hown, hnowhere⟩ := hboth
  refine ⟨hnowhere, ?_, by rw [classToChange?, h]; rfl, fun f => by rw [changeClass, h], by rw [relations?, h]; rfl⟩
  rw [class?, hown, Option.none_or, Slots.values, List.findSome?_map, List.findSome?_eq_none_iff]
  intro slot hslot
  exact Option.isNone_iff_eq_none.1 (Option.isSome_eq_false_iff.1 (hnowhere slot hslot))

/-- Where keys stand once, the class that is read stands on the shelf that owns the reference. -/
theorem exists_of_owner? {storage : Storage} (hkeys : storage.origins.Nodup) {reference origin : String}
    (h : storage.owner? reference = some origin) :
    ∃ shelf c, storage.shelf? origin = some shelf ∧ shelf.class? reference = some c ∧
      storage.class? reference = some c := by
  unfold owner? at h
  rw [any_hasClass] at h
  unfold class?
  cases hown : (storage.shelfOf? reference).bind (·.class? reference) with
  | some c =>
    rw [hown, Option.isSome_some, if_pos rfl] at h
    cases h
    obtain ⟨shelf, hshelf, hclass⟩ := Option.bind_eq_some_iff.1 hown
    exact ⟨shelf, c, hshelf, hclass, Option.some_or⟩
  | none =>
    rw [hown, Option.isSome_none, if_neg Bool.false_ne_true] at h
    obtain ⟨slot, hfind, rfl⟩ := Option.map_eq_some_iff.1 h
    have hhas : slot.2.hasClass reference := by
      simpa using List.find?_some hfind
    obtain ⟨c, hclass⟩ := Option.isSome_iff_exists.1 hhas
    -- the scan by class ends at the shelf where the scan by key does, and its key leads back to it
    have hscan : storage.shelves.values.findSome? (·.class? reference) = some c := by
      rw [Slots.values, List.findSome?_map, findSome?_eq_bind_find?]
      exact (congrArg (Option.bind · _) hfind).trans hclass
    exact ⟨slot.2, c, Slots.at?_of_mem hkeys (List.mem_of_find?_eq_some hfind), hclass, hscan⟩

/-! ## One place -/

section Lookups

variable {storage : Storage} (hkeys : storage.origins.Nodup) {reference : String}
include hkeys

/-- To read and to change, the same class is found. -/
theorem class?_eq_classToChange? : storage.class? reference = storage.classToChange? reference := by
  cases howner : storage.owner? reference with
  | none => rw [(lacks_of_owner? howner).read, (lacks_of_owner? howner).toChange]
  | some origin =>
    obtain ⟨shelf, c, hshelf, hclass, hread⟩ := exists_of_owner? hkeys howner
    rw [hread, classToChange?, howner, Option.bind_some, hshelf, Option.bind_some, hclass]

/-- A class that is changed is read as it is then. -/
theorem class?_changeClass (f : Class → Class) :
    (storage.changeClass reference f).class? reference = (storage.class? reference).map f := by
  have hkept : (storage.changeClass reference f).origins.Nodup := by rwa [origins_changeClass]
  have howner : (storage.changeClass reference f).owner? reference = storage.owner? reference := by
    rw [owner?_eq, holders_changeClass, ← owner?_eq]
  rw [class?_eq_classToChange? hkeys, class?_eq_classToChange? hkept, classToChange?, classToChange?, howner]
  cases howner : storage.owner? reference with
  | none => rfl
  | some origin =>
    have hshelf : (storage.changeClass reference f).shelf? origin =
        (storage.shelf? origin).map (·.changeClass reference f) := by
      rw [changeClass, howner]
      exact Slots.at?_change storage.shelves origin (·.changeClass reference f)
    rw [Option.bind_some, Option.bind_some, hshelf]
    cases storage.shelf? origin with
    | none => rfl
    | some shelf => exact shelf.class?_changeClass reference f

/-- What the owner of a reference holds is found at one place. -/
theorem exists_finds {origin : String} (h : storage.owner? reference = some origin) :
    ∃ place slot c, storage.Finds reference place slot c := by
  obtain ⟨shelf, c, hshelf, hclass, hread⟩ := exists_of_owner? hkeys h
  obtain ⟨i, hi, hshelves⟩ := Slots.exists_position_of_at? hshelf
  obtain ⟨j, hj, hclasses⟩ := Shelf.exists_position_of_class? hclass
  have hchange : ∀ f, storage.changeClass reference f = storage.setClassAt ⟨i, j⟩ (f c) := by
    intro f
    have hslot : ((origin, shelf.changeClass reference f) : String × Shelf) =
        (origin, shelf.setClassAt j (f c)) := by rw [hclasses]
    have hchanged : storage.shelves.change origin (·.changeClass reference f) =
        storage.shelves.modify i fun slot => (slot.1, slot.2.setClassAt j (f c)) :=
      (hshelves _).trans (Slots.modify_congr hi hslot)
    rw [changeClass, h, setClassAt, ← hchanged]
    rfl
  refine ⟨⟨i, j⟩, (origin, shelf), c, hi, h, hj, hread, fun d => ?_, ?_, hchange, ?_⟩
  · rw [← hchange fun _ => d, class?_changeClass hkeys, hread, Option.map_some]
  · rw [← class?_eq_classToChange? hkeys, hread]
  · rw [relations?, h, Option.bind_some, hshelf, Option.bind_some]

end Lookups

end Storage

/-- Relations are read by key as they are by value. -/
theorem Registry.relations?_filed {registry : Registry} (horigins : registry.origins.Nodup) (reference : String) :
    registry.filed.relations? reference = registry.relations? reference := by
  rw [Storage.relations?, owner?_filed, relations?]
  cases howner : registry.owner? reference with
  | none => rfl
  | some schema =>
    have hschema : registry.schema? schema.origin = some schema :=
      Keyed.get?_eq_some_of_mem horigins (mem_of_owner? howner).1
    rw [Option.map_some, Option.bind_some, Option.bind_some, shelf?_filed, hschema]
    rfl

namespace Storage

/-- Whatever shelves hold a reference, and whichever way it is looked for, nothing is found at all or one stored
class is: it is the one that is read and the one that is changed, and the relations are those that its shelf
records. A registry that is filed as this storage finds the same. -/
theorem lookups_agree {storage : Storage} (hkeys : storage.origins.Nodup) (reference : String) :
    (storage.Lacks reference ∨ ∃ place slot c, storage.Finds reference place slot c) ∧
    ∀ registry : Registry, registry.filed = storage →
      registry.class? reference = storage.class? reference ∧
      registry.relations? reference = storage.relations? reference ∧
      ∀ f : Class → Class, (∀ c, (f c).reference = c.reference) →
        (registry.modifyClass reference f).filed = storage.changeClass reference f := by
  constructor
  · cases howner : storage.owner? reference with
    | none => exact Or.inl (lacks_of_owner? howner)
    | some origin => exact Or.inr (exists_finds hkeys howner)
  · rintro registry rfl
    rw [Registry.origins_filed] at hkeys
    exact ⟨(registry.class?_filed reference).symm, (Registry.relations?_filed hkeys reference).symm,
      fun f hf => registry.filed_modifyClass hf⟩

/-- Two shelves that both hold a pet of the second one, each with relations of its own. -/
def kennels : Storage where
  shelves :=
    [("a", { origin := "a", rootName := "Api", relations := [("b#/Pet", ["a#/Tag"])], classes :=
        [("b#/Pet", { reference := "b#/Pet", name := "Stray", node := .null })] }),
      ("b", { origin := "b", rootName := "Api", relations := [("b#/Pet", ["b#/Owner"])], classes :=
        [("b#/Pet", { reference := "b#/Pet", name := "Pet", node := .null })] })]

/-- The pet of the second shelf is found, although the first one holds its reference too. -/
theorem lookups_agree_kennels :
    kennels.origins.Nodup ∧
      (∃ place slot c, kennels.Finds "b#/Pet" place slot c ∧ slot.1 = "b" ∧ c.name = "Pet") ∧
      kennels.registry.filed = kennels ∧ kennels.registry.relations? "b#/Pet" = some ["b#/Owner"] ∧
      (kennels.registry.modifyClass "b#/Pet" fun c => { c with name := "Cat" }).filed =
        kennels.changeClass "b#/Pet" fun c => { c with name := "Cat" } := by
  have hkeys : kennels.origins.Nodup := by decide
  have hfiled : kennels.registry.filed = kennels := by rfl
  obtain ⟨hfound, hregistry⟩ := lookups_agree hkeys "b#/Pet"
  obtain ⟨-, hrelations, hmodify⟩ := hregistry kennels.registry hfiled
  obtain ⟨place, slot, c, hfinds⟩ := hfound.resolve_left fun hlacks => nomatch hlacks.read
  have hname : (kennels.class? "b#/Pet").map Class.name = some "Pet" := by rfl
  have howner : kennels.owner? "b#/Pet" = some "b" := by rfl
  rw [hfinds.read] at hname
  rw [hfinds.owner] at howner
  exact ⟨hkeys, ⟨place, slot, c, hfinds, Option.some.inj howner, Option.some.inj hname⟩, hfiled,
    hrelations.trans rfl, hmodify _ fun _ => rfl⟩

end Storage

end ApiModel
