import ApiModel.Keyed

/-!
Decoded documents: a tree of values that keeps the order of object keys and tells integers from
floating-point numbers. Every part reached by key or position is smaller than the whole, which is
what the recursions over documents rest on.
-/

namespace ApiModel

/-- A decoded value. An object holds each of its keys once; a float is held as the 64 bits of its
binary form. -/
inductive Document where
  | null
  | bool (value : Bool)
  | int (value : Int)
  | float (bits : UInt64)
  | string (text : String)
  | list (items : List Document)
  | map (entries : List (String × Document))
  deriving Inhabited

namespace Document

/-- The value under a key of an object. -/
def get? (node : Document) (key : String) : Option Document :=
  match node with
  | map entries => (Keyed.get? Prod.fst key entries).map Prod.snd
  | _ => none

/-- The text of a string. -/
def text? : Document → Option String
  | string text => some text
  | _ => none

/-- The truth value of a boolean. -/
def bool? : Document → Option Bool
  | bool value => some value
  | _ => none

/-- The items of an array. -/
def items? : Document → Option (List Document)
  | list items => some items
  | _ => none

/-- The entries of an object. -/
def entries? : Document → Option (List (String × Document))
  | map entries => some entries
  | _ => none

/-- Whether the value is an object. -/
def isMap (node : Document) : Bool := node.entries?.isSome

/-- The text under a key. -/
def textAt? (node : Document) (key : String) : Option String := (node.get? key).bind text?

/-- The array under a key. -/
def itemsAt? (node : Document) (key : String) : Option (List Document) := (node.get? key).bind items?

/-- The object under a key, as its entries. -/
def entriesAt? (node : Document) (key : String) : Option (List (String × Document)) :=
  (node.get? key).bind entries?

/-- Sets the value under a key of an object; anything else stays as it is. -/
def set (node : Document) (key : String) (value : Document) : Document :=
  match node with
  | map entries => map (Keyed.put Prod.fst (key, value) entries)
  | other => other

/-- An object from key and value pairs: a repeated key keeps its first position and takes its last
value. -/
def ofEntries (pairs : List (String × Document)) : Document :=
  map (pairs.foldl (fun entries pair => Keyed.put Prod.fst pair entries) [])

mutual

/-- The `$ref` strings under a value, depth first and in document order. Below a `$ref` key nothing
is looked at. -/
def refs : Document → List String
  | list items => refsOfItems items
  | map entries => refsOfEntries entries
  | _ => []

/-- The `$ref` strings under the items of an array. -/
def refsOfItems : List Document → List String
  | [] => []
  | item :: rest => refs item ++ refsOfItems rest

/-- The `$ref` strings of an object's entries. -/
def refsOfEntries : List (String × Document) → List String
  | [] => []
  | (key, value) :: rest =>
    (if key = "$ref" then value.text?.toList else refs value) ++ refsOfEntries rest

end

mutual

/-- Every string standing under a `$ref` key, however deep, also below a `$ref` key that holds an
object or an array. A pointer may lead there, so this bounds the references a document can give. -/
def mentions : Document → List String
  | list items => mentionsOfItems items
  | map entries => mentionsOfEntries entries
  | _ => []

/-- The strings under `$ref` keys in the items of an array. -/
def mentionsOfItems : List Document → List String
  | [] => []
  | item :: rest => mentions item ++ mentionsOfItems rest

/-- The strings under `$ref` keys in an object's entries. -/
def mentionsOfEntries : List (String × Document) → List String
  | [] => []
  | (key, value) :: rest =>
    (if key = "$ref" then value.text?.toList else []) ++ mentions value ++ mentionsOfEntries rest

end

/-! Parts are smaller than the whole. -/

theorem sizeOf_item_lt {items : List Document} {item : Document} (h : item ∈ items) :
    sizeOf item < sizeOf (list items) := by
  have := List.sizeOf_lt_of_mem h
  simp only [list.sizeOf_spec]
  omega

theorem sizeOf_entry_lt {entries : List (String × Document)} {entry : String × Document}
    (h : entry ∈ entries) : sizeOf entry.2 < sizeOf (map entries) := by
  have hmem := List.sizeOf_lt_of_mem h
  have hpair : sizeOf entry = 1 + sizeOf entry.1 + sizeOf entry.2 := by
    cases entry; simp
  simp only [map.sizeOf_spec]
  omega

theorem sizeOf_get?_lt {node value : Document} {key : String} (h : node.get? key = some value) :
    sizeOf value < sizeOf node := by
  unfold get? at h
  split at h
  · next entries =>
    obtain ⟨entry, hget, rfl⟩ := Option.map_eq_some_iff.1 h
    exact sizeOf_entry_lt (Keyed.mem_of_get? hget)
  · simp at h

theorem sizeOf_lt_of_itemsAt? {node item : Document} {key : String} {items : List Document}
    (h : node.itemsAt? key = some items) (hmem : item ∈ items) : sizeOf item < sizeOf node := by
  unfold itemsAt? at h
  obtain ⟨value, hget, hitems⟩ := Option.bind_eq_some_iff.1 h
  have hlt := sizeOf_get?_lt hget
  cases value <;> simp [items?] at hitems
  subst hitems
  have := sizeOf_item_lt hmem
  omega

theorem sizeOf_lt_of_entriesAt? {node : Document} {key : String}
    {entries : List (String × Document)} {entry : String × Document}
    (h : node.entriesAt? key = some entries) (hmem : entry ∈ entries) :
    sizeOf entry.2 < sizeOf node := by
  unfold entriesAt? at h
  obtain ⟨value, hget, hentries⟩ := Option.bind_eq_some_iff.1 h
  have hlt := sizeOf_get?_lt hget
  cases value <;> simp [entries?] at hentries
  subst hentries
  have := sizeOf_entry_lt hmem
  omega

theorem sizeOf_put_lt {key : String} {old new : Document} {entries : List (String × Document)}
    (hget : Keyed.get? Prod.fst key entries = some (key, old)) (hlt : sizeOf new < sizeOf old) :
    sizeOf (Keyed.put Prod.fst (key, new) entries) < sizeOf entries := by
  induction entries with
  | nil => simp [Keyed.get?] at hget
  | cons entry rest ih =>
    unfold Keyed.get? at hget
    unfold Keyed.put
    split at hget
    · next hk =>
      cases hget
      simp
      omega
    · next hk =>
      have := ih hget
      simp [hk]
      omega

/-- Putting something smaller in the place of a value makes the object smaller. -/
theorem sizeOf_set_lt {node old new : Document} {key : String} (hget : node.get? key = some old)
    (hlt : sizeOf new < sizeOf old) : sizeOf (node.set key new) < sizeOf node := by
  unfold get? at hget
  split at hget
  · next entries =>
    obtain ⟨entry, hentry, rfl⟩ := Option.map_eq_some_iff.1 hget
    have hkey : entry.1 = key := Keyed.key_of_get? hentry
    have hfound : Keyed.get? Prod.fst key entries = some (key, entry.2) := by
      rw [hentry, ← hkey]
    have hput := sizeOf_put_lt hfound hlt
    simp only [set, map.sizeOf_spec]
    omega
  · simp at hget

end Document

end ApiModel
