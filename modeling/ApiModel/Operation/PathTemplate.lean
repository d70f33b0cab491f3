import ApiModel.Text.Words

/-!
Path templates cut into parts. A part starts after a run of separators and is a literal or a row of
placeholders in braces; the extensions `.json`, `.php` and `.asp` are no parts.
-/

namespace ApiModel.PathTemplate

/-- One part of a path. -/
inductive Part where
  /-- The names of the placeholders, in order. -/
  | placeholders (names : List (List Char))
  | literal (text : List Char)
  deriving DecidableEq

/-- Whether a character belongs to a part: an ASCII letter or digit, an underscore or a brace. -/
def isPartChar (c : Char) : Bool := c.isAlphanum || c = '_' || isBrace c
where
  /-- Whether a character is a brace. -/
  isBrace (c : Char) : Bool := c = '\x7b' || c = '\x7d'

/-- Extensions that are left out of a path, each with its dot. -/
def droppedExtensions : List String := [".json", ".php", ".asp"]

/-- The names between an opening and a closing brace that hold no brace and are not empty. `name`
is what follows the last opening brace, nearest character first. -/
def placeholderNames (name : Option (List Char)) : List Char → List (List Char)
  | [] => []
  | c :: rest =>
    if c = '\x7b' then placeholderNames (some []) rest
    else if c = '\x7d' then
      match name with
      | some (d :: more) => (d :: more).reverse :: placeholderNames none rest
      | _ => placeholderNames none rest
    else placeholderNames (name.map (c :: ·)) rest

/-- A part from its text. -/
def Part.ofChars (text : List Char) : Part :=
  match placeholderNames none text with
  | [] => .literal text
  | names => .placeholders names

/-- Whether a separator and the text after it make an extension that is left out. -/
def isDropped (separator text : List Char) : Bool :=
  separator = ['.'] && ('.' :: text.map Char.toLower) ∈ droppedExtensions.map String.toList

/-- The parts that follow the separators of a path. Text before the first separator is no part. -/
def parts (path : List Char) : List Part :=
  match _hdrop : path.dropWhile isPartChar with
  | [] => []
  | c :: rest =>
    let separator := c :: rest.takeWhile (!isPartChar ·)
    let after := rest.dropWhile (!isPartChar ·)
    let text := after.takeWhile isPartChar
    let tail := parts (after.dropWhile isPartChar)
    if isDropped separator text then tail else Part.ofChars text :: tail
termination_by path.length
decreasing_by
  have h1 := (List.dropWhile_sublist (l := path) isPartChar).length_le
  have h2 := (List.dropWhile_sublist (l := rest) (!isPartChar ·)).length_le
  have h3 := (List.dropWhile_sublist (l := rest.dropWhile (!isPartChar ·)) isPartChar).length_le
  rw [_hdrop, List.length_cons] at h1
  omega

/-- A placeholder's name with a capital at its start and after each underscore or dot, which are
dropped. -/
def pascalName (atStart : Bool) : List Char → List Char
  | [] => []
  | c :: rest =>
    if c = '_' || c = '.' then pascalName true rest
    else (if atStart then Text.upper c else [c]) ++ pascalName false rest

end ApiModel.PathTemplate
