import ApiModel.Text.Percent
import ApiModel.Yaml.Cursor
import ApiModel.Yaml.Token

/-!
Tags, anchors and directives as they are written.
-/

namespace ApiModel.Yaml

/-- Reads the name of an anchor or alias after its indicator. -/
def Cursor.anchorName? (here : Cursor) : Option (String × Cursor) :=
  let (name, after) := here.span isWord
  let ended :=
    after.gapAt 0 || after.peek?.any (· ∈ ['?', ':', ',', ']', '\x7d', '%', '@', '\x60'])
  if name ≠ [] && ended then some (String.ofList name, after) else none

/-- Reads the handle of a tag: `!`, or a word between two of them. A handle that lacks its second
mark can only be the start of a tag. -/
def Cursor.tagHandle? (here : Cursor) (inDirective : Bool) : Option (List Char × Cursor) :=
  if !here.sees '!' then none
  else
    let (word, after) := (here.skip 1).span isWord
    if after.sees '!' then some ('!' :: word ++ ['!'], after.skip 1)
    else if inDirective && word ≠ [] then none
    else some ('!' :: word, after)

/-- Whether a character may stand in a tag. Commas and brackets may only where nothing can follow. -/
def isTagChar (everywhere : Bool) (c : Char) : Bool :=
  isWord c ||
    c ∈ [';', '/', '?', ':', '@', '&', '=', '+', '$', '.', '%', '!', '~', '*', '\'', '(', ')'] ||
    (everywhere && c ∈ [',', '[', ']'])

/-- The number of bytes of a character, by its first byte. -/
def byteCount? (b : Nat) : Option Nat :=
  if b < 0x80 then some 1
  else if 0xC0 ≤ b && b < 0xE0 then some 2
  else if 0xE0 ≤ b && b < 0xF0 then some 3
  else if 0xF0 ≤ b && b < 0xF8 then some 4
  else none

/-- Reads a coded byte. -/
def codedByte? : List Char → Option (Nat × List Char)
  | '%' :: a :: b :: rest =>
    (Text.Percent.hexValue? a).bind fun high =>
      (Text.Percent.hexValue? b).map fun low => (high * 16 + low, rest)
  | _ => none

/-- Whether as many coded bytes as given follow, each one a continuation. -/
def continues : Nat → List Char → Bool
  | 0, _ => true
  | n + 1, chars =>
    match codedByte? chars with
    | some (b, rest) => 0x80 ≤ b && b < 0xC0 && continues n rest
    | none => false

/-- Whether every coded byte of a tag belongs to a character. -/
def codesAreWhole (chars : List Char) : Bool :=
  match chars with
  | [] => true
  | '%' :: rest =>
    match codedByte? ('%' :: rest) with
    | none => false
    | some (b, after) =>
      match byteCount? b with
      | none => false
      | some count => continues (count - 1) after && codesAreWhole (rest.drop (3 * count - 1))
  | _ :: rest => codesAreWhole rest
termination_by chars.length
decreasing_by
  · simp only [List.length_drop, List.length_cons]
    omega
  · simp only [List.length_cons]
    omega

/-- Reads the characters of a tag, its coded bytes decoded. -/
def Cursor.tagText? (here : Cursor) (everywhere : Bool) : Option (List Char × Cursor) :=
  let (run, after) := here.span (isTagChar everywhere)
  if codesAreWhole run then some (Text.Percent.decode run, after) else none

/-- Reads a tag: `!<text>`, `!handle!suffix`, `!suffix` or a single mark. -/
def Cursor.tag? (here : Cursor) (inFlow : Bool) : Option (Token × Cursor) := do
  let (token, after) ←
    if here.peekAt? 1 = some '<' then do
      let (text, after) ← (here.skip 2).tagText? true
      if text ≠ [] && after.sees '>' then
        some (Token.tag "" (String.ofList text), after.skip 1)
      else none
    else do
      let (handle, after) ← here.tagHandle? false
      if 1 < handle.length && handle.getLast? = some '!' then
        let (text, after) ← after.tagText? false
        if text = [] then none
        else some (.tag (String.ofList handle) (String.ofList text), after)
      else
        let (text, after) ← after.tagText? false
        match handle.drop 1 ++ text with
        | [] => some (.tag "" "!", after)
        | suffix => some (.tag "!" (String.ofList suffix), after)
  if after.gapAt 0 || (inFlow && after.sees ',') then some (token, after) else none

/-- Reads a number of a version: at most nine digits. -/
def Cursor.versionNumber? (here : Cursor) : Option (Nat × Cursor) :=
  let (digits, after) := here.span Char.isDigit
  if digits = [] || 9 < digits.length then none
  else some (digits.foldl (fun n d => n * 10 + (d.toNat - 48)) 0, after)

/-- Reads a directive and the end of its line. -/
def Cursor.directive? (here : Cursor) : Option (Token × Cursor) := do
  let (name, after) := (here.skip 1).span isWord
  if name = [] || !after.gapAt 0 then none
  else
    let (token, after) ←
      if String.ofList name = "YAML" then do
        let (major, after) ← (after.skipWhile isBlank).versionNumber?
        if !after.sees '.' then none
        else
          let (minor, after) ← (after.skip 1).versionNumber?
          some (Token.version major minor, after)
      else if String.ofList name = "TAG" then do
        let (handle, after) ← (after.skipWhile isBlank).tagHandle? true
        if !after.peek?.any isBlank then none
        else
          let (lead, after) ← (after.skipWhile isBlank).tagText? true
          if lead = [] || !after.gapAt 0 then none
          else some (.tagDirective (String.ofList handle) (String.ofList lead), after)
      else none
    let after ← after.endLine?
    some (token, after)

end ApiModel.Yaml
