/-!
A place in a text: what lies ahead, how much that is, and the line and column of the next character.
Reading goes in steps that each use up some of the text, so every loop over a text ends.
-/

namespace ApiModel.Yaml

/-- Whether a character breaks a line. -/
def isBreak (c : Char) : Bool := c ∈ ['\n', '\x0d', '\u0085', '\u2028', '\u2029']

/-- Whether a character is a space or a tab. -/
def isBlank (c : Char) : Bool := c = ' ' || c = '\t'

/-- Whether a character may stand in the name of an anchor, a directive or a tag handle. -/
def isWord (c : Char) : Bool := c.isAlphanum || c = '_' || c = '-'

/-- A place in a text. -/
structure Cursor where
  /-- The characters ahead. -/
  rest : List Char
  /-- The number of characters ahead. -/
  left : Nat := rest.length
  line : Nat := 0
  column : Nat := 0
  left_eq : left = rest.length := by rfl

namespace Cursor

/-- The next character. -/
def peek? (here : Cursor) : Option Char := here.rest.head?

/-- The character `n` places ahead. -/
def peekAt? (here : Cursor) (n : Nat) : Option Char := here.rest[n]?

/-- Whether the next character is `c`. -/
def sees (here : Cursor) (c : Char) : Bool := here.peek? = some c

/-- Whether a blank, a line break or the end is `n` places ahead. -/
def gapAt (here : Cursor) (n : Nat) : Bool :=
  match here.peekAt? n with
  | none => true
  | some c => isBlank c || isBreak c

/-- Whether a line break or the end is ahead. -/
def atLineEnd (here : Cursor) : Bool :=
  match here.peek? with
  | none => true
  | some c => isBreak c

/-- The place `n` characters ahead on the same line. -/
def skip (here : Cursor) (n : Nat) : Cursor :=
  { here with
    rest := here.rest.drop n
    left := here.left - n
    column := here.column + n
    left_eq := by rw [List.length_drop, here.left_eq] }

/-- The characters ahead that satisfy `p`, and the place after them; no line breaks among them. -/
def span (here : Cursor) (p : Char → Bool) : List Char × Cursor :=
  let run := here.rest.takeWhile p
  (run, here.skip run.length)

/-- The place after the characters that satisfy `p`. -/
def skipWhile (here : Cursor) (p : Char → Bool) : Cursor := (here.span p).2

/-- The line break ahead as it counts in a text, and the place after it. -/
def lineBreak (here : Cursor) : List Char × Cursor :=
  let next := fun n => { here.skip n with line := here.line + 1, column := 0 }
  match here.rest with
  | '\x0d' :: '\n' :: _ => (['\n'], next 2)
  | c :: _ =>
    if c = '\u2028' || c = '\u2029' then ([c], next 1)
    else if isBreak c then (['\n'], next 1)
    else ([], here)
  | [] => ([], here)

/-- The place after a comment, if one is ahead. -/
def skipComment (here : Cursor) : Cursor :=
  if here.sees '#' then here.skipWhile (!isBreak ·) else here

/-- The place after blanks, a comment and the end of the line; none if anything else is there. -/
def endLine? (here : Cursor) : Option Cursor :=
  let after := (here.skipWhile isBlank).skipComment
  if after.atLineEnd then some after.lineBreak.2 else none

/-- Whether `---` or `...` stands at the start of a line with a gap after it. -/
def atDocumentMark (here : Cursor) : Bool :=
  here.column = 0 && (here.rest.take 3 = ['-', '-', '-'] || here.rest.take 3 = ['.', '.', '.']) &&
    here.gapAt 3

end Cursor

/-- What a step of reading ends in. -/
inductive Next (σ α : Type) where
  /-- Go on from another place. -/
  | more (state : σ) (place : Cursor)
  | done (result : α)

/-- Repeats a step until it is done. A step that fails or uses up nothing ends in failure. -/
def Cursor.repeat? {σ α : Type} (place : Cursor) (state : σ)
    (step : σ → Cursor → Option (Next σ α)) : Option α :=
  match step state place with
  | none => none
  | some (.done result) => some result
  | some (.more state' place') =>
    if place'.left < place.left then place'.repeat? state' step else none
termination_by place.left

end ApiModel.Yaml
