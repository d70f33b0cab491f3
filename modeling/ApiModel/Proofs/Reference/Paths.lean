import ApiModel.Proofs.Pointer
import ApiModel.Proofs.Reference

/-!
# References name paths

A path of keys and positions leads from a document to one of its parts (`Document.LeadsTo`). The reference
of the document with the path behind it holds all of the path: its segments are taken apart at the slashes,
and each is read as the key it was written for (`Pointer.path?`). So it leads to the part, no other path has
it, and it ends in the last key (`Reference.child_root_exact`).
-/

namespace ApiModel

/-- A path of keys and positions leads from a document to one of its parts. A position is a decimal number,
which may have zeros before it. -/
inductive Document.LeadsTo : Document → List String → Document → Prop where
  | here {node : Document} : LeadsTo node [] node
  | key {node inner part : Document} {key : String} {path : List String} :
    node.get? key = some inner → LeadsTo inner path part → LeadsTo node (key :: path) part
  | position {items : List Document} {inner part : Document} {digits : String} {path : List String} :
    digits.toList ≠ [] → (∀ c ∈ digits.toList, c.isDigit) →
      items[Nat.ofDigitChars 10 digits.toList 0]? = some inner → LeadsTo inner path part →
        LeadsTo (.list items) (digits :: path) part

namespace Pointer

/-- The path that a pointer spells: every segment is read as a key, an empty one like any other. -/
def path? : List Char → Option (List String)
  | [] => some []
  | '/' :: rest => some ((Text.splitWhere (· = '/') rest).map unescape)
  | _ => none

/-- Every step along a path is one that a pointer makes. -/
theorem walk?_of_leadsTo {node part : Document} {path : List String} (h : node.LeadsTo path part)
    (hnode : node.WellFormed) : walk? node path = some part := by
  induction h with
  | here => rfl
  | key hget _ ih =>
    have hinner := hnode.get? hget
    rw [walk?, step?_of_get? hget, Option.bind_some]
    exact ih hinner
  | @position items inner part digits path hne hdigits hitem _ ih =>
    obtain ⟨hlength, hitems⟩ := Document.wellFormed_list.1 hnode
    have hinner := hitems inner (List.mem_of_getElem? hitem)
    obtain ⟨hindex, _⟩ := List.getElem?_eq_some_iff.1 hitem
    have hread := index?_of_digits hne hdigits (Nat.lt_of_lt_of_le hindex hlength)
    have hstep : step? (.list items) digits = some inner := by
      show (index? digits).bind (items[·]?) = some inner
      rw [hread, Option.bind_some, hitem]
    rw [walk?, hstep, Option.bind_some]
    exact ih hinner

/-- A pointer leads along the path that it spells, unless the path begins with an empty key. -/
theorem find?_of_path? (root : Document) {pointer : List Char} {path : List String}
    (hpath : path? pointer = some path) (hfirst : path.head? ≠ some "") :
    find? root (String.ofList pointer) = walk? root path := by
  unfold path? at hpath
  split at hpath
  · cases hpath
    rfl
  · next rest =>
    cases hpath
    have hblank : unescape [] = "" := unescape_escape ""
    cases rest with
    | nil => exact absurd (congrArg some hblank) hfirst
    | cons c rest =>
      -- the first segment begins with no slash, so none is dropped
      have hc : c ≠ '/' := by
        rintro rfl
        rw [Text.splitWhere_cons_of_break (decide_eq_true rfl), List.map_cons] at hfirst
        exact hfirst (congrArg some hblank)
      rw [find?_slash (List.cons_ne_nil c rest), keys_of_ne hc]
  · cases hpath

end Pointer

namespace Document.LeadsTo

variable {node inner part : Document} {path rest : List String}

theorem trans (h : node.LeadsTo path inner) (hrest : inner.LeadsTo rest part) :
    node.LeadsTo (path ++ rest) part := by
  induction h with
  | here => exact hrest
  | key hget _ ih => exact .key hget (ih hrest)
  | position hne hdigits hitem _ ih => exact .position hne hdigits hitem (ih hrest)

/-- A position of an array leads to what stands there. -/
theorem item {items : List Document} {index : Nat} (h : items[index]? = some inner) :
    (list items).LeadsTo [toString index] inner := by
  obtain ⟨hne, hdigits, hvalue⟩ := Pointer.digits_toString index
  exact .position hne hdigits (hvalue.symm ▸ h) .here

theorem wellFormed (h : node.LeadsTo path part) (hnode : node.WellFormed) : part.WellFormed :=
  Pointer.wellFormed_of_walk? hnode (Pointer.walk?_of_leadsTo h hnode)

end Document.LeadsTo

namespace Reference

variable {origin reference : String} {path : List String}

/-! ## Segments -/

/-- What keys add to a pointer is taken apart into their segments, behind the slash at the start. -/
theorem splitWhere_segments (path : List String) :
    Text.splitWhere (· = '/') (segments path) =
      [] :: path.map fun key => (Pointer.escape key).toList := by
  induction path with
  | nil => rfl
  | cons key rest ih =>
    have hstart : segments (key :: rest) = '/' :: ((Pointer.escape key).toList ++ segments rest) := rfl
    rw [hstart, Text.splitWhere_cons_of_break (decide_eq_true rfl), List.map_cons]
    refine congrArg (List.cons []) ?_
    cases rest with
    | nil =>
      show Text.splitWhere _ ((Pointer.escape key).toList ++ []) = _
      rw [List.append_nil, Pointer.splitWhere_escape, List.map_nil]
    | cons next rest =>
      -- the slash of the next segment ends this one
      have hnext : segments (next :: rest) = '/' :: ((Pointer.escape next).toList ++ segments rest) := rfl
      rw [hnext, Text.splitWhere_cons_of_break (decide_eq_true rfl)] at ih
      rw [hnext, Text.splitWhere_append_cons (decide_eq_true rfl), Pointer.splitWhere_escape,
        List.singleton_append, (List.cons.inj ih).2]

/-- The keys are read back from their segments. -/
theorem map_unescape_escape (path : List String) :
    (path.map fun key => (Pointer.escape key).toList).map Pointer.unescape = path := by
  rw [List.map_map]
  calc path.map (Pointer.unescape ∘ fun key => (Pointer.escape key).toList)
      = path.map id := List.map_congr_left fun key _ => Pointer.unescape_escape key
    _ = path := List.map_id path

/-- Keys behind a reference make different references where they are different. -/
theorem child_injective (reference : String) : Function.Injective (child reference) := by
  intro path other h
  have hchars := congrArg String.toList h
  rw [toList_child, toList_child] at hchars
  have hsegments := List.append_cancel_left hchars
  have hsplit := splitWhere_segments path
  rw [hsegments, splitWhere_segments] at hsplit
  rw [← map_unescape_escape path, ← (List.cons.inj hsplit).2, map_unescape_escape]

theorem child_append (reference : String) (path rest : List String) :
    child reference (path ++ rest) = child (child reference path) rest := by
  induction path generalizing reference with
  | nil => rfl
  | cons key path ih => exact ih (reference ++ "/" ++ Pointer.escape key)

/-- The pointer of a path spells that path. -/
theorem path?_segments (path : List String) : Pointer.path? (segments path) = some path := by
  cases path with
  | nil => rfl
  | cons key rest =>
    have hsplit := splitWhere_segments (key :: rest)
    have hstart : segments (key :: rest) = '/' :: ((Pointer.escape key).toList ++ segments rest) := rfl
    rw [hstart, Text.splitWhere_cons_of_break (decide_eq_true rfl)] at hsplit
    rw [hstart, Pointer.path?, (List.cons.inj hsplit).2, map_unescape_escape]

/-- The pointer of a path that does not begin with an empty key leads along the path. -/
theorem find?_segments (root : Document) (hfirst : path.head? ≠ some "") :
    Pointer.find? root (String.ofList (segments path)) = Pointer.walk? root path :=
  Pointer.find?_of_path? root (path?_segments path) hfirst

theorem escape_ne_nil {key : String} (h : key ≠ "") : (Pointer.escape key).toList ≠ [] := by
  intro hnil
  apply h
  rw [← Pointer.unescape_escape key, hnil]
  exact Pointer.unescape_escape ""

/-- A reference ends in the last of the keys behind it, unless that is empty. -/
theorem name?_child {pointer : List Char} (h : IsAt origin pointer reference) (front : List String)
    {last : String} (hlast : last ≠ "") : name? (child reference (front ++ [last])) = some last := by
  have hpointer : pointer ++ segments (front ++ [last]) =
      (pointer ++ segments front) ++ '/' :: (Pointer.escape last).toList := by
    unfold segments
    rw [List.flatMap_append, List.flatMap_singleton, List.append_assoc]
  have hplain : ∀ c ∈ (Pointer.escape last).toList.reverse, decide (c ≠ '/') = true := by
    intro c hc
    apply decide_eq_true
    rintro rfl
    exact Pointer.slash_not_mem_escape last (List.mem_reverse.1 hc)
  have hend : ((pointer ++ segments (front ++ [last])).reverse.takeWhile (· ≠ '/')).reverse =
      (Pointer.escape last).toList := by
    rw [hpointer, List.reverse_append, List.reverse_cons, List.append_assoc,
      List.takeWhile_append_of_pos hplain]
    simp
  unfold name?
  rw [(h.child _).fragment?, Option.bind_some, String.toList_ofList, hend]
  split
  · next hnil => exact absurd hnil (escape_ne_nil hlast)
  · rw [Pointer.unescape_escape]

/-! ## The reference of a path -/

/-- In a document whose origin has no `#`, take a path to a part that does not begin with an empty key. Its
reference leads to that part, it is the reference of no other path, and it ends in the last key of the path
if that is not empty. -/
theorem child_root_exact {root part : Document} (horigin : '#' ∉ origin.toList)
    (hroot : root.WellFormed) (hpath : root.LeadsTo path part) (hfirst : path.head? ≠ some "") :
    (∃ fragment, fragment? (child (Reference.root origin) path) = some fragment ∧
      Pointer.find? root fragment = some part) ∧
    (∀ other, child (Reference.root origin) other = child (Reference.root origin) path →
      other = path) ∧
    ∀ last, path.getLast? = some last → last ≠ "" →
      name? (child (Reference.root origin) path) = some last := by
  have hat := isAt_root horigin
  refine ⟨⟨_, (hat.child path).fragment?, ?_⟩, ?_, ?_⟩
  · rw [List.nil_append, find?_segments root hfirst]
    exact Pointer.walk?_of_leadsTo hpath hroot
  · intro other hsame
    exact child_injective _ hsame
  · intro last hlast hne
    obtain ⟨front, rfl⟩ := List.getLast?_eq_some_iff.1 hlast
    exact name?_child hat front hne

namespace Menu

/-- A dish with two prices, under keys that look like pointers themselves. -/
def dishes : Document :=
  .map [("", .null), ("50%/~1", .map [("", .map [("Crêpe #1\n", .list [.int 4, .int 5])])])]

end Menu

open Menu in
/-- All of the path is read back: percent signs, slashes and tildes, an empty key in its middle, a line
break, and a position with a zero before it. -/
theorem child_root_exact_menu :
    dishes.LeadsTo ["50%/~1", "", "Crêpe #1\n", "01"] (.int 5) ∧
      child (root "menu") ["50%/~1", "", "Crêpe #1\n", "01"] =
        "menu#/50%25~1~01//Cr%C3%AApe #1%0A/01" ∧
      (∃ fragment, fragment? "menu#/50%25~1~01//Cr%C3%AApe #1%0A/01" = some fragment ∧
        Pointer.find? dishes fragment = some (.int 5)) ∧
      name? "menu#/50%25~1~01//Cr%C3%AApe #1%0A/01" = some "01" := by
  have hpath : dishes.LeadsTo ["50%/~1", "", "Crêpe #1\n", "01"] (.int 5) := by
    refine .key rfl (.key rfl (.key rfl (.position ?_ ?_ ?_ .here)))
    · decide
    · simp
    · rfl
  have htext : child (root "menu") ["50%/~1", "", "Crêpe #1\n", "01"] =
      "menu#/50%25~1~01//Cr%C3%AApe #1%0A/01" := by decide +kernel
  have horigin : '#' ∉ "menu".toList := by decide
  obtain ⟨hfound, -, hname⟩ := child_root_exact horigin (by decide +kernel) hpath (by decide)
  rw [htext] at hfound hname
  exact ⟨hpath, htext, hfound, hname "01" rfl (by decide)⟩

end Reference

end ApiModel
