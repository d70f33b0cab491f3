import ApiModel.Proofs.Document
import ApiModel.Proofs.Text.Percent

/-!
# Pointers lead back to what they were built for

A key is read back from its segment, and a position from its decimal digits. So a pointer to a node with
the segment of a key behind it leads to the part of that node under the key (`find?_child`). The one key
that this does not hold for is an empty one at the root of a document, since a single slash leads to the
root itself.
-/

namespace ApiModel

/-! ## Splitting -/

namespace Text

variable {isBreak : Char → Bool}

theorem splitWhere_ne_nil (isBreak : Char → Bool) (chars : List Char) :
    splitWhere isBreak chars ≠ [] := by
  cases chars with
  | nil => exact List.cons_ne_nil _ _
  | cons c rest =>
    rw [splitWhere]
    split
    · exact List.cons_ne_nil _ _
    · split <;> exact List.cons_ne_nil _ _

theorem splitWhere_of_not_mem {chars : List Char} (h : ∀ c ∈ chars, ¬ isBreak c) :
    splitWhere isBreak chars = [chars] := by
  induction chars with
  | nil => rfl
  | cons c rest ih =>
    rw [splitWhere, if_neg (h c List.mem_cons_self),
      ih fun d hd => h d (List.mem_cons_of_mem c hd)]

/-- A break at the start leaves an empty run before it. -/
theorem splitWhere_cons_of_break {c : Char} (hc : isBreak c) (rest : List Char) :
    splitWhere isBreak (c :: rest) = [] :: splitWhere isBreak rest := by
  rw [splitWhere, if_pos hc]

/-- A break separates the runs before it from those behind it. -/
theorem splitWhere_append_cons {c : Char} (hc : isBreak c) (before after : List Char) :
    splitWhere isBreak (before ++ c :: after) =
      splitWhere isBreak before ++ splitWhere isBreak after := by
  induction before with
  | nil => rw [List.nil_append, splitWhere_cons_of_break hc]; rfl
  | cons d rest ih =>
    rw [List.cons_append, splitWhere, splitWhere, ih]
    by_cases hd : isBreak d
    · rw [if_pos hd, if_pos hd, List.cons_append]
    · rw [if_neg hd, if_neg hd]
      cases hsplit : splitWhere isBreak rest with
      | nil => exact absurd hsplit (splitWhere_ne_nil isBreak rest)
      | cons run runs => rfl

end Text

namespace Pointer

/-! ## Segments -/

theorem unescapeTildes_cons {c : Char} (h : c ≠ '~') (rest : List Char) :
    unescapeTildes (c :: rest) = c :: unescapeTildes rest := by
  rw [unescapeTildes] <;> · rintro _ rfl; exact absurd rfl h

theorem unescapeTildes_escapeTildes (chars : List Char) :
    unescapeTildes (escapeTildes chars) = chars := by
  induction chars with
  | nil => rfl
  | cons c rest ih =>
    rw [escapeTildes]
    by_cases htilde : c = '~'
    · rw [if_pos htilde, htilde]
      show '~' :: unescapeTildes (escapeTildes rest) = _
      rw [ih]
    · rw [if_neg htilde]
      by_cases hslash : c = '/'
      · rw [if_pos hslash, hslash]
        show '/' :: unescapeTildes (escapeTildes rest) = _
        rw [ih]
      · rw [if_neg hslash, List.singleton_append, unescapeTildes_cons htilde, ih]

theorem slash_not_mem_escapeTildes (chars : List Char) : '/' ∉ escapeTildes chars := by
  induction chars with
  | nil => exact List.not_mem_nil
  | cons c rest ih =>
    rw [escapeTildes, List.mem_append, not_or]
    refine ⟨?_, ih⟩
    split
    · decide
    · split
      · decide
      · next hslash => exact fun hmem => hslash (List.mem_singleton.1 hmem).symm

/-- A key is read back from its segment. -/
theorem unescape_escape (key : String) : unescape (escape key).toList = key := by
  unfold unescape escape
  rw [String.toList_ofList, unescapeTildes_escapeTildes, Text.Percent.decode_encode (by decide),
    String.ofList_toList]

theorem slash_not_mem_escape (key : String) : '/' ∉ (escape key).toList := by
  unfold escape
  rw [String.toList_ofList]
  exact slash_not_mem_escapeTildes _

/-! ## Positions -/

theorem decimal_eq_ofDigitChars (digits : List Char) : decimal digits = Nat.ofDigitChars 10 digits 0 := by
  unfold decimal
  rw [Nat.ofDigitChars_eq_foldl]
  congr 1
  funext value digit
  rw [Nat.mul_comm]
  rfl

/-- Digits are read as the number they stand for, with or without zeros before it. -/
theorem index?_of_digits {text : String} (hne : text.toList ≠ [])
    (hdigits : ∀ c ∈ text.toList, c.isDigit) (hlt : Nat.ofDigitChars 10 text.toList 0 < 2 ^ 64) :
    index? text = some (Nat.ofDigitChars 10 text.toList 0) := by
  unfold index?
  split
  · -- a sign is no digit
    next rest heq =>
    have hsign := hdigits '+' (heq ▸ List.mem_cons_self)
    cases hsign
  · dsimp only
    rw [decimal_eq_ofDigitChars, if_pos]
    rw [Bool.and_eq_true, Bool.and_eq_true]
    exact ⟨⟨decide_eq_true hne, List.all_eq_true.2 hdigits⟩, decide_eq_true hlt⟩

/-- A number is written in digits that stand for it. -/
theorem digits_toString (n : Nat) : (toString n).toList ≠ [] ∧
    (∀ c ∈ (toString n).toList, c.isDigit) ∧ Nat.ofDigitChars 10 (toString n).toList 0 = n := by
  have hdigits : (toString n).toList = Nat.toDigits 10 n := Nat.toList_repr
  rw [hdigits]
  refine ⟨Nat.toDigits_ne_nil, ?_, Nat.ofDigitChars_ten_toDigits⟩
  exact fun c hc => Nat.isDigit_of_mem_toDigits (by decide) (by decide) hc

/-- Numbers are read off their digits. -/
theorem toString_injective {n m : Nat} (h : toString n = toString m) : n = m := by
  obtain ⟨-, -, hn⟩ := digits_toString n
  obtain ⟨-, -, hm⟩ := digits_toString m
  rw [← hn, ← hm, h]

/-- A position in an array is read back from its digits. -/
theorem index?_toString {n : Nat} (h : n < 2 ^ 64) : index? (toString n) = some n := by
  obtain ⟨hne, hdigits, hvalue⟩ := digits_toString n
  rw [index?_of_digits hne hdigits (hvalue.symm ▸ h), hvalue]

/-! ## Parts -/

theorem step?_item {items : List Document} (hlength : items.length ≤ 2 ^ 64) {n : Nat}
    {item : Document} (hitem : items[n]? = some item) :
    step? (.list items) (toString n) = some item := by
  obtain ⟨hlt, _⟩ := List.getElem?_eq_some_iff.1 hitem
  show (index? (toString n)).bind (items[·]?) = some item
  rw [index?_toString (Nat.lt_of_lt_of_le hlt hlength), Option.bind_some, hitem]

theorem step?_of_get? {node part : Document} {key : String} (h : node.get? key = some part) :
    step? node key = some part := by
  obtain ⟨entries, rfl, _⟩ := Document.entries_of_get? h
  exact h

/-- Nothing stands under an empty key but what an object holds there. -/
theorem step?_empty {node : Document} (h : node.get? "" = none) : step? node "" = none := by
  cases node with
  | map entries => exact h
  | list items => rfl
  | _ => rfl

theorem walk?_append (node : Document) (first rest : List String) :
    walk? node (first ++ rest) = (walk? node first).bind (walk? · rest) := by
  induction first generalizing node with
  | nil => rfl
  | cons key first ih =>
    rw [List.cons_append, walk?, walk?, Option.bind_assoc]
    congr 1
    funext inner
    exact ih inner

theorem walk?_singleton (node : Document) (key : String) : walk? node [key] = step? node key := by
  cases h : step? node key with
  | none => rw [walk?, h, Option.bind_none]
  | some part => rw [walk?, h, Option.bind_some, walk?]

/-! ## Keys -/

theorem keys_slash (pointer : List Char) : keys ('/' :: pointer) = keys pointer := by
  unfold keys
  rw [List.dropWhile_cons_of_pos rfl]

theorem keys_of_ne {c : Char} (h : c ≠ '/') (rest : List Char) :
    keys (c :: rest) = (Text.splitWhere (· = '/') (c :: rest)).map unescape := by
  unfold keys
  rw [List.dropWhile_cons_of_neg (by simpa using h)]

theorem splitWhere_escape (key : String) :
    Text.splitWhere (· = '/') (escape key).toList = [(escape key).toList] := by
  refine Text.splitWhere_of_not_mem fun c hc heq => slash_not_mem_escape key ?_
  exact of_decide_eq_true heq ▸ hc

theorem keys_escape (key : String) : keys (escape key).toList = [key] := by
  cases hchars : (escape key).toList with
  | nil =>
    have hread := unescape_escape key
    rw [hchars] at hread
    exact congrArg (fun key => [key]) hread
  | cons c rest =>
    have hc : c ≠ '/' := by
      rintro rfl
      exact slash_not_mem_escape key (hchars ▸ List.mem_cons_self)
    rw [keys_of_ne hc, ← hchars, splitWhere_escape, List.map_singleton, unescape_escape]

/-- Slashes alone are one empty key. -/
theorem keys_of_slashes {pointer : List Char} (h : ∀ c ∈ pointer, c = '/') :
    keys pointer = [""] := by
  induction pointer with
  | nil => exact keys_escape ""
  | cons c rest ih =>
    rw [h c List.mem_cons_self, keys_slash]
    exact ih fun d hd => h d (List.mem_cons_of_mem c hd)

/-- Behind a pointer with something other than slashes in it, a segment is one more key. -/
theorem keys_append {pointer : List Char} (h : ∃ c ∈ pointer, c ≠ '/') (key : String) :
    keys (pointer ++ '/' :: (escape key).toList) = keys pointer ++ [key] := by
  induction pointer with
  | nil =>
    obtain ⟨c, hc, _⟩ := h
    cases hc
  | cons c rest ih =>
    by_cases hc : c = '/'
    · -- slashes at the start go away on both sides
      obtain ⟨d, hd, hne⟩ := h
      have hrest := (List.mem_cons.1 hd).resolve_left fun heq => hne (heq.trans hc)
      rw [hc, List.cons_append, keys_slash, keys_slash, ih ⟨d, hrest, hne⟩]
    · rw [keys_of_ne hc, List.cons_append, keys_of_ne hc, ← List.cons_append,
        Text.splitWhere_append_cons (decide_eq_true rfl), splitWhere_escape, List.map_append,
        List.map_singleton, unescape_escape]

/-! ## Pointers -/

variable {root : Document}

theorem find?_slash {rest : List Char} (h : rest ≠ []) :
    find? root (String.ofList ('/' :: rest)) = walk? root (keys rest) := by
  unfold find?
  rw [String.toList_ofList]
  cases rest with
  | nil => exact absurd rfl h
  | cons c rest => rfl

/-- A pointer that leads somewhere is empty or begins with a slash. -/
theorem head_of_find? {pointer : List Char} {node : Document}
    (h : find? root (String.ofList pointer) = some node) :
    pointer = [] ∨ ∃ rest, pointer = '/' :: rest := by
  unfold find? at h
  rw [String.toList_ofList] at h
  split at h
  · exact Or.inl rfl
  · exact Or.inr ⟨_, rfl⟩
  · exact Or.inr ⟨_, rfl⟩
  · cases h

/-- A segment behind a pointer leads to the part under its key. -/
theorem find?_child (hroot : root.get? "" = none) {pointer : List Char} {node part : Document}
    {key : String} (h : find? root (String.ofList pointer) = some node)
    (hstep : step? node key = some part) :
    find? root (String.ofList (pointer ++ '/' :: (escape key).toList)) = some part := by
  -- behind slashes alone a segment is looked for at the root
  have hstart : ∀ {rest : List Char}, keys rest = [key] → step? root key = some part →
      find? root (String.ofList ('/' :: rest)) = some part := by
    intro rest hkeys hkey
    rw [find?_slash, hkeys, walk?_singleton, hkey]
    rintro rfl
    have hempty : key = "" := by
      rw [keys_of_slashes fun c hc => absurd hc List.not_mem_nil] at hkeys
      exact (List.singleton_inj.1 hkeys).symm
    rw [hempty, step?_empty hroot] at hkey
    cases hkey
  rcases head_of_find? h with rfl | ⟨rest, rfl⟩
  · cases h
    exact hstart (keys_escape key) hstep
  · by_cases hrest : rest = []
    · subst hrest
      cases h
      exact hstart ((keys_slash _).trans (keys_escape key)) hstep
    · rw [find?_slash hrest] at h
      by_cases hslashes : ∀ c ∈ rest, c = '/'
      · -- an empty key leads nowhere from the root
        rw [keys_of_slashes hslashes, walk?_singleton, step?_empty hroot] at h
        cases h
      · have hother : ∃ c ∈ rest, c ≠ '/' := by simpa using hslashes
        rw [List.cons_append, find?_slash (List.append_ne_nil_of_left_ne_nil hrest _),
          keys_append hother, walk?_append, h, Option.bind_some, walk?_singleton, hstep]

-- an empty key at the root is out of reach: its pointer is the one of the root
example : find? (.map [("", .null)]) "/" = some (.map [("", .null)]) := rfl

theorem wellFormed_of_find? {pointer : String} {node : Document} (hroot : root.WellFormed)
    (h : find? root pointer = some node) : node.WellFormed := by
  unfold find? at h
  split at h
  · cases h; exact hroot
  · cases h; exact hroot
  · exact wellFormed_of_walk? hroot h
  · cases h

end Pointer

end ApiModel
