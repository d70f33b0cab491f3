import ApiModel.Operation.PathTemplate
import ApiModel.Proofs.Text.UpperCamel
import Mathlib.Data.List.TakeWhile

/-!
# Path templates in parts

Behind a character of a part the next separator begins a new part, whatever comes before and behind. So the
parts of a text that is put together at such places are those of its pieces (`parts_append`).

A template is made of segments, each a literal or a row of placeholders, with a slash before each.
-/

namespace ApiModel.PathTemplate

section Runs

variable {α : Type} {p : α → Bool} {xs ys : List α}

theorem takeWhile_append_of_exists (h : ∃ x ∈ xs, p x = false) :
    (xs ++ ys).takeWhile p = xs.takeWhile p := by
  induction xs with
  | nil => simp at h
  | cons x xs ih =>
    by_cases hx : p x
    · have hrest : ∃ x ∈ xs, p x = false := by simpa [hx] using h
      simp [hx, ih hrest]
    · simp [hx]

theorem dropWhile_append_of_exists (h : ∃ x ∈ xs, p x = false) :
    (xs ++ ys).dropWhile p = xs.dropWhile p ++ ys := by
  induction xs with
  | nil => simp at h
  | cons x xs ih =>
    by_cases hx : p x
    · have hrest : ∃ x ∈ xs, p x = false := by simpa [hx] using h
      simp [hx, ih hrest]
    · simp [hx]

theorem takeWhile_append_cons {y : α} (h : p y = false) :
    (xs ++ y :: ys).takeWhile p = xs.takeWhile p := by
  induction xs with
  | nil => simp [h]
  | cons x xs ih => simp [List.takeWhile_cons, ih]

theorem dropWhile_append_cons {y : α} (h : p y = false) :
    (xs ++ y :: ys).dropWhile p = xs.dropWhile p ++ y :: ys := by
  induction xs with
  | nil => simp [h]
  | cons x xs ih =>
    by_cases hx : p x
    · simp [hx, ih]
    · simp [hx]

end Runs

/-- The parts of a path from its first separator on. -/
theorem parts_of_dropWhile {path rest : List Char} {c : Char}
    (h : path.dropWhile isPartChar = c :: rest) :
    parts path =
      let after := rest.dropWhile (!isPartChar ·)
      if isDropped (c :: rest.takeWhile (!isPartChar ·)) (after.takeWhile isPartChar) then
        parts (after.dropWhile isPartChar)
      else Part.ofChars (after.takeWhile isPartChar) :: parts (after.dropWhile isPartChar) := by
  rw [parts]
  split
  · next hnil => rw [h] at hnil; cases hnil
  · next hcons =>
    rw [h] at hcons
    cases hcons
    rfl

/-- Characters of parts before a path make no part. -/
theorem parts_append_of_all {front : List Char} (h : ∀ c ∈ front, isPartChar c) (path : List Char) :
    parts (front ++ path) = parts path := by
  cases hdrop : path.dropWhile isPartChar with
  | nil =>
    have hnone : (front ++ path).dropWhile isPartChar = [] := by
      rw [List.dropWhile_append_of_pos h, hdrop]
    rw [parts, parts]
    split
    · split
      · rfl
      · next hcons => rw [hdrop] at hcons; cases hcons
    · next hcons => rw [hnone] at hcons; cases hcons
  | cons c rest =>
    have hsame : (front ++ path).dropWhile isPartChar = c :: rest := by
      rw [List.dropWhile_append_of_pos h, hdrop]
    rw [parts_of_dropWhile hdrop, parts_of_dropWhile hsame]

theorem parts_of_all {path : List Char} (h : ∀ c ∈ path, isPartChar c) : parts path = [] := by
  have hnil := parts_append_of_all h []
  rw [List.append_nil] at hnil
  rw [hnil, parts]
  rfl

/-- A text that does not end in a separator. -/
def Closed (front : List Char) : Prop := ∀ c ∈ front.getLast?, isPartChar c

theorem Closed.of_append {front back : List Char} (h : Closed (front ++ back)) : Closed back := by
  intro c hc
  apply h
  rw [List.getLast?_append, hc]
  rfl

theorem Closed.append (front : List Char) {back : List Char} (h : Closed back) (hne : back ≠ []) :
    Closed (front ++ back) := by
  intro c hc
  rw [List.getLast?_append] at hc
  cases hlast : back.getLast? with
  | none => exact absurd (List.getLast?_eq_none_iff.1 hlast) hne
  | some d =>
    rw [hlast, Option.some_or] at hc
    exact Option.some.inj hc ▸ h d hlast

theorem closed_of_all {front : List Char} (h : ∀ c ∈ front, isPartChar c) : Closed front :=
  fun c hc => h c (List.mem_of_getLast? hc)

/-- A slash with a text of one part behind it. -/
theorem closed_slash {text : List Char} (hne : text ≠ []) (h : ∀ c ∈ text, isPartChar c) :
    Closed ('/' :: text) :=
  (closed_of_all h).append ['/'] hne

/-- A closed text that begins with a separator holds a character of a part behind it. -/
theorem Closed.exists_mem {c : Char} {rest : List Char} (h : Closed (c :: rest))
    (hc : isPartChar c = false) : ∃ d ∈ rest, isPartChar d := by
  cases hlast : rest.getLast? with
  | none =>
    have hpart := h c (by rw [List.getLast?_cons, hlast]; rfl)
    rw [hc] at hpart
    cases hpart
  | some d =>
    exact ⟨d, List.mem_of_getLast? hlast, h d (by rw [List.getLast?_cons, hlast]; rfl)⟩

section Append

variable {front rest tail : List Char} {c d : Char}

/-- What is left of a text behind its first part, if `rest` follows the first separator character. -/
def afterPart (rest : List Char) : List Char :=
  (rest.dropWhile (!isPartChar ·)).dropWhile isPartChar

theorem Closed.of_dropWhile (hfront : Closed front) (hdrop : front.dropWhile isPartChar = d :: rest) :
    Closed (d :: rest) := by
  rw [← List.takeWhile_append_dropWhile (p := isPartChar) (l := front), hdrop] at hfront
  exact hfront.of_append

theorem Closed.afterPart (h : Closed (d :: rest)) : Closed (afterPart rest) := by
  have hrest : d :: rest = (d :: (rest.takeWhile (!isPartChar ·) ++
      (rest.dropWhile (!isPartChar ·)).takeWhile isPartChar)) ++ PathTemplate.afterPart rest := by
    unfold PathTemplate.afterPart
    rw [List.cons_append, List.append_assoc, List.takeWhile_append_dropWhile,
      List.takeWhile_append_dropWhile]
  rw [hrest] at h
  exact h.of_append

/-- A separator behind what is left of a text stands behind the whole text. -/
theorem parts_append_step (hfront : Closed (d :: rest)) (hc : isPartChar c = false)
    (hdrop : front.dropWhile isPartChar = d :: rest)
    (hback : parts (afterPart rest ++ c :: tail) = parts (afterPart rest) ++ parts (c :: tail)) :
    parts (front ++ c :: tail) = parts front ++ parts (c :: tail) := by
  have hd : isPartChar d = false := by
    have hhead := List.head?_dropWhile_not isPartChar front
    rw [hdrop] at hhead
    exact hhead
  obtain ⟨e, he, hpart⟩ := hfront.exists_mem hd
  have hpart : ∃ e ∈ rest, (!isPartChar e) = false := ⟨e, he, by rw [hpart]; rfl⟩
  have hlonger : (front ++ c :: tail).dropWhile isPartChar = d :: (rest ++ c :: tail) := by
    rw [dropWhile_append_cons hc, hdrop]
    rfl
  rw [parts_of_dropWhile hlonger, parts_of_dropWhile hdrop]
  dsimp only
  rw [takeWhile_append_of_exists hpart, dropWhile_append_of_exists hpart, takeWhile_append_cons hc,
    dropWhile_append_cons hc]
  unfold afterPart at hback
  rw [hback]
  split
  · rfl
  · rfl

/-- Behind a character of a part, a separator begins a new part. -/
theorem parts_append (hfront : Closed front) (hc : isPartChar c = false) :
    parts (front ++ c :: tail) = parts front ++ parts (c :: tail) := by
  induction front using parts.induct with
  | case1 path hdrop =>
    have hall := List.dropWhile_eq_nil_iff.1 hdrop
    rw [parts_append_of_all hall, parts_of_all hall, List.nil_append]
  | case2 path d rest hdrop _ _ _ _ ih =>
    have hrest := hfront.of_dropWhile hdrop
    exact parts_append_step hrest hc hdrop (ih hrest.afterPart)
  | case3 path d rest hdrop _ _ _ _ ih =>
    have hrest := hfront.of_dropWhile hdrop
    exact parts_append_step hrest hc hdrop (ih hrest.afterPart)

end Append

/-- A separator and the text of one part. -/
theorem parts_token {c : Char} {text : List Char} (hc : isPartChar c = false)
    (htext : ∀ d ∈ text, isPartChar d) :
    parts (c :: text) = if isDropped [c] text then [] else [Part.ofChars text] := by
  have hdrop : (c :: text).dropWhile isPartChar = c :: text := List.dropWhile_cons_of_neg (by simp [hc])
  have hseparator : text.takeWhile (!isPartChar ·) = [] ∧ text.dropWhile (!isPartChar ·) = text := by
    cases text with
    | nil => exact ⟨rfl, rfl⟩
    | cons d rest => simp [htext d List.mem_cons_self]
  have hnil : parts [] = [] := parts_of_all fun d hd => absurd hd List.not_mem_nil
  rw [parts_of_dropWhile hdrop, hseparator.1, hseparator.2]
  dsimp only
  rw [List.takeWhile_eq_self_iff.2 htext, List.dropWhile_eq_nil_iff.2 htext, hnil]

theorem parts_slash {text : List Char} (htext : ∀ c ∈ text, isPartChar c) :
    parts ('/' :: text) = [Part.ofChars text] :=
  parts_token (by decide) htext

/-! ## Placeholders -/

/-- A placeholder as it is written. -/
def placeholder (name : List Char) : List Char := '\x7b' :: (name ++ ['\x7d'])

theorem closed_flatMap_placeholder (names : List (List Char)) :
    Closed (names.flatMap placeholder) := by
  induction names with
  | nil => exact closed_of_all fun c hc => absurd hc List.not_mem_nil
  | cons name names ih =>
    rw [List.flatMap_cons]
    by_cases hrest : names.flatMap placeholder = []
    · rw [hrest, List.append_nil]
      have hend : Closed ['\x7d'] := closed_of_all (List.all_eq_true.1 (by decide))
      exact hend.append ('\x7b' :: name) (List.cons_ne_nil _ _)
    · exact ih.append _ hrest

section Reading

variable {c d : Char} {name : Option (List Char)} {rest : List Char}

theorem placeholderNames_open : placeholderNames name ('\x7b' :: rest) = placeholderNames (some []) rest :=
  rfl

theorem placeholderNames_close (read : List Char) :
    placeholderNames (some (d :: read)) ('\x7d' :: rest) =
      (d :: read).reverse :: placeholderNames none rest :=
  rfl

theorem placeholderNames_other (h : isPartChar.isBrace c = false) :
    placeholderNames name (c :: rest) = placeholderNames (name.map (c :: ·)) rest := by
  simp only [isPartChar.isBrace, Bool.or_eq_false_iff, decide_eq_false_iff_not] at h
  exact (if_neg h.1).trans (if_neg h.2)

theorem isBrace_of_ne (hopen : c ≠ '\x7b') (hclose : c ≠ '\x7d') : isPartChar.isBrace c = false := by
  rw [isPartChar.isBrace, decide_eq_false hopen, decide_eq_false hclose, Bool.or_false]

end Reading

/-- Without a closing brace there are no placeholders. -/
theorem placeholderNames_of_not_mem {text : List Char} (h : '\x7d' ∉ text)
    (name : Option (List Char)) : placeholderNames name text = [] := by
  induction text generalizing name with
  | nil => rfl
  | cons c rest ih =>
    rw [List.mem_cons, not_or] at h
    by_cases hopen : c = '\x7b'
    · rw [hopen, placeholderNames_open, ih h.2]
    · have hclose : c ≠ '\x7d' := fun heq => h.1 heq.symm
      rw [placeholderNames_other (isBrace_of_ne hopen hclose), ih h.2]

/-- The rest of a name up to its closing brace. -/
theorem placeholderNames_append {name : List Char} (h : ∀ c ∈ name, isPartChar.isBrace c = false)
    (d : Char) (read rest : List Char) :
    placeholderNames (some (d :: read)) (name ++ '\x7d' :: rest) =
      ((d :: read).reverse ++ name) :: placeholderNames none rest := by
  induction name generalizing d read with
  | nil => rw [List.nil_append, placeholderNames_close, List.append_nil]
  | cons c name ih =>
    rw [List.cons_append, placeholderNames_other (h c List.mem_cons_self), Option.map_some,
      ih fun e he => h e (List.mem_cons_of_mem c he)]
    simp

/-- The placeholders of a row are read back. -/
theorem placeholderNames_flatMap {names : List (List Char)}
    (h : ∀ name ∈ names, name ≠ [] ∧ ∀ c ∈ name, isPartChar.isBrace c = false) :
    placeholderNames none (names.flatMap placeholder) = names := by
  induction names with
  | nil => rfl
  | cons name names ih =>
    obtain ⟨hne, hname⟩ := h name List.mem_cons_self
    have hrest := ih fun other hother => h other (List.mem_cons_of_mem name hother)
    cases name with
    | nil => exact absurd rfl hne
    | cons d name =>
      have hwritten : placeholder (d :: name) ++ names.flatMap placeholder =
          '\x7b' :: d :: (name ++ '\x7d' :: names.flatMap placeholder) := by
        simp [placeholder]
      rw [List.flatMap_cons, hwritten, placeholderNames_open,
        placeholderNames_other (hname d List.mem_cons_self), Option.map_some,
        placeholderNames_append (fun c hc => hname c (List.mem_cons_of_mem d hc)) d [] _, hrest]
      rfl

/-! ## Templates -/

/-- A segment of a template. -/
inductive Segment where
  | literal (text : List Char)
  /-- The names of the placeholders, in order. -/
  | placeholders (names : List (List Char))

/-- Whether a character may stand in the name of a placeholder. -/
def isNameChar (c : Char) : Bool := c.isAlphanum || c = '_' || c = '.'

namespace Segment

/-- The text of a segment. -/
def text : Segment → List Char
  | literal text => text
  | placeholders names => names.flatMap placeholder

/-- The names of the placeholders of a segment. -/
def names : Segment → List (List Char)
  | literal _ => []
  | placeholders names => names

/-- Literals are made of letters and digits. There is a placeholder at least in a row of them, and none is
without a name. -/
def WellFormed : Segment → Prop
  | literal text => ∀ c ∈ text, c.isAlphanum
  | placeholders names => names ≠ [] ∧ ∀ name ∈ names, name ≠ [] ∧ ∀ c ∈ name, isNameChar c

instance : (segment : Segment) → Decidable segment.WellFormed
  | literal text => decidable_of_iff (text.all Char.isAlphanum) List.all_eq_true
  | placeholders names =>
    decidable_of_iff (names ≠ [] ∧ ∀ name ∈ names, name ≠ [] ∧ name.all isNameChar)
      (by simp only [WellFormed, List.all_eq_true])

/-- A segment behind its slash. -/
def chars (segment : Segment) : List Char := '/' :: segment.text

/-- The part that a segment is meant to be. -/
def part : Segment → Part
  | literal text => .literal text
  | placeholders names => .placeholders names

end Segment

/-- A path of segments, each behind a slash. A slash at the end is an empty literal behind it. -/
structure Template where
  segments : List Segment
  wellFormed : ∀ segment ∈ segments, segment.WellFormed
  /-- No two slashes follow each other. -/
  separated : ∀ segment ∈ segments.dropLast, segment.text ≠ []

/-- The path as it is written. -/
def Template.path (template : Template) : String :=
  String.ofList (template.segments.flatMap Segment.chars)

/-- No name of a placeholder holds a dot. -/
def Template.Undotted (template : Template) : Prop :=
  ∀ segment ∈ template.segments, ∀ name ∈ segment.names, '.' ∉ name

instance (template : Template) : Decidable template.Undotted :=
  inferInstanceAs (Decidable (∀ segment ∈ template.segments, ∀ name ∈ segment.names, '.' ∉ name))

theorem isPartChar_of_isAlphanum {c : Char} (h : c.isAlphanum) : isPartChar c := by
  rw [isPartChar, h, Bool.true_or, Bool.true_or]

/-- The characters of a name are those of parts, dots apart. -/
theorem isPartChar_of_isNameChar {c : Char} (h : isNameChar c) (hdot : c ≠ '.') : isPartChar c := by
  rw [isNameChar, decide_eq_false hdot, Bool.or_false] at h
  rw [isPartChar, h, Bool.true_or]

theorem isPartChar_of_mem_placeholder {name : List Char} (h : ∀ c ∈ name, isPartChar c) {c : Char}
    (hc : c ∈ placeholder name) : isPartChar c := by
  rcases List.mem_cons.1 hc with rfl | hc
  · decide
  · rcases List.mem_append.1 hc with hc | hc
    · exact h c hc
    · rw [List.mem_singleton.1 hc]
      decide

theorem isBrace_of_isNameChar {c : Char} (h : isNameChar c) : isPartChar.isBrace c = false := by
  rw [Bool.eq_false_iff]
  intro hbrace
  rw [isPartChar.isBrace, Bool.or_eq_true, decide_eq_true_eq, decide_eq_true_eq] at hbrace
  rcases hbrace with rfl | rfl
  · exact absurd h (by decide)
  · exact absurd h (by decide)

/-- What is left of a name in Pascal case are letters and digits. -/
theorem isAlphanum_of_mem_pascalName {name : List Char} (h : ∀ c ∈ name, isNameChar c) {atStart : Bool}
    {c : Char} (hc : c ∈ pascalName atStart name) : c.isAlphanum := by
  induction name generalizing atStart with
  | nil => cases hc
  | cons d rest ih =>
    have hrest : ∀ c ∈ rest, isNameChar c := fun c hc => h c (List.mem_cons_of_mem d hc)
    rw [pascalName] at hc
    split at hc
    · exact ih hrest hc
    · next hboundary =>
      have hd : d.isAlphanum := by
        have hname := h d List.mem_cons_self
        rw [isNameChar, Bool.or_assoc] at hname
        exact (Bool.or_eq_true_iff.1 hname).resolve_right (by simpa using hboundary)
      rcases List.mem_append.1 hc with hc | hc
      · split at hc
        · rw [Text.upper_of_isAlphanum hd, List.mem_singleton] at hc
          rw [hc]
          exact (Text.toUpper_of_isAlphanum hd).elim Text.isAlphanum_of_isUpper Text.isAlphanum_of_isDigit
        · rw [List.mem_singleton.1 hc]
          exact hd
      · exact ih hrest hc

namespace Segment

variable {segment : Segment}

/-- A segment ends in a character of a part. -/
theorem closed_chars (h : segment.WellFormed) (hne : segment.text ≠ []) : Closed segment.chars := by
  refine Closed.append ['/'] ?_ hne
  cases segment with
  | literal text => exact closed_of_all fun c hc => isPartChar_of_isAlphanum (h c hc)
  | placeholders names => exact closed_flatMap_placeholder names

/-- Without dots in its names a segment is one part. -/
theorem parts_chars (h : segment.WellFormed) (hdot : ∀ name ∈ segment.names, '.' ∉ name) :
    parts segment.chars = [segment.part] := by
  cases segment with
  | literal text =>
    have hpart : ∀ c ∈ text, isPartChar c := fun c hc => isPartChar_of_isAlphanum (h c hc)
    have hbrace : '\x7d' ∉ text := fun hmem => absurd (h _ hmem) (by decide)
    rw [chars, Segment.text, parts_slash hpart, Part.ofChars, placeholderNames_of_not_mem hbrace]
    rfl
  | placeholders names =>
    have hpart : ∀ c ∈ names.flatMap placeholder, isPartChar c := by
      intro c hc
      obtain ⟨name, hname, hc⟩ := List.mem_flatMap.1 hc
      refine isPartChar_of_mem_placeholder (fun d hd => ?_) hc
      exact isPartChar_of_isNameChar ((h.2 name hname).2 d hd) fun heq => hdot name hname (heq ▸ hd)
    have hnames := placeholderNames_flatMap fun name hname =>
      ⟨(h.2 name hname).1, fun c hc => isBrace_of_isNameChar ((h.2 name hname).2 c hc)⟩
    rw [chars, Segment.text, parts_slash hpart, Part.ofChars, hnames]
    cases names with
    | nil => exact absurd rfl h.1
    | cons name names => rfl

/-- At the first dot in its first name a row of placeholders is cut, and what comes before is a literal with
the opening brace. -/
theorem exists_literal_mem_parts {name : List Char} {names : List (List Char)}
    (h : (placeholders (name :: names)).WellFormed) (hdot : '.' ∈ name) :
    ∃ text, .literal ('\x7b' :: text) ∈ parts (placeholders (name :: names)).chars := by
  obtain ⟨before, after, rfl, hbefore⟩ := List.eq_append_cons_of_mem hdot
  have hname : ∀ c ∈ before, isNameChar c :=
    fun c hc => (h.2 _ List.mem_cons_self).2 c (List.mem_append_left _ hc)
  have hpart : ∀ c ∈ '\x7b' :: before, isPartChar c := by
    intro c hc
    rcases List.mem_cons.1 hc with rfl | hc
    · decide
    · exact isPartChar_of_isNameChar (hname c hc) fun heq => hbefore (heq ▸ hc)
  have hopen : '\x7d' ∉ '\x7b' :: before := by
    intro hmem
    rcases List.mem_cons.1 hmem with heq | hmem
    · exact absurd heq (by decide)
    · exact absurd (hname _ hmem) (by decide)
  have hchars : (placeholders ((before ++ '.' :: after) :: names)).chars =
      ('/' :: '\x7b' :: before) ++ '.' :: (after ++ '\x7d' :: names.flatMap placeholder) := by
    simp [chars, text, placeholder]
  rw [hchars, parts_append (closed_slash (List.cons_ne_nil _ _) hpart) (by decide),
    parts_slash hpart, Part.ofChars, placeholderNames_of_not_mem hopen]
  exact ⟨before, List.mem_append_left _ List.mem_cons_self⟩

end Segment

/-- The parts of a template are those of its segments. -/
theorem parts_flatMap_chars {segments : List Segment} (h : ∀ segment ∈ segments, segment.WellFormed)
    (hseparated : ∀ segment ∈ segments.dropLast, segment.text ≠ []) :
    parts (segments.flatMap Segment.chars) = segments.flatMap fun segment => parts segment.chars := by
  induction segments with
  | nil => exact parts_of_all fun c hc => absurd hc List.not_mem_nil
  | cons segment rest ih =>
    cases rest with
    | nil => simp
    | cons next rest =>
      have hrest := ih (fun other hother => h other (List.mem_cons_of_mem segment hother))
        fun other hother => hseparated other (List.mem_cons_of_mem segment hother)
      have hclosed := Segment.closed_chars (h segment List.mem_cons_self)
        (hseparated segment List.mem_cons_self)
      calc parts (segment.chars ++ (next :: rest).flatMap Segment.chars)
        _ = parts segment.chars ++ parts ((next :: rest).flatMap Segment.chars) :=
          parts_append hclosed (by decide)
        _ = parts segment.chars ++ (next :: rest).flatMap fun segment => parts segment.chars := by
          rw [hrest]

end ApiModel.PathTemplate
