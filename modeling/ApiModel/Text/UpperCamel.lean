import ApiModel.Text.LetterTable
import ApiModel.Text.Words

/-!
Upper camel case of text in any script. A word boundary lies at every character that is no letter or
digit, after a lower-case run that meets a capital (`petId`), and before the last capital of a run that
meets a lower-case letter (`HTTPServer`).
-/

namespace ApiModel.Text

/-- Whether a character is a letter or a digit. -/
def isWordChar (c : Char) : Bool :=
  if c.toNat < 0x80 then c.isAlphanum else inRanges letterRanges c.toNat

/-- Whether a character is a capital. -/
def isCapital (c : Char) : Bool :=
  if c.toNat < 0x80 then c.isUpper
  else capitalSteps.any fun (first, last, step) =>
    first ≤ c.toNat && c.toNat ≤ last && (c.toNat - first) % step = 0

/-- Whether a character is a small letter: it has case, and it is no capital and not in title case. -/
def isSmall (c : Char) : Bool := isCased c && !isCapital c && !inRanges titleRanges c.toNat

/-- The case of the last cased letter in the piece that is being read. -/
inductive LetterCase where
  | none
  | lower
  | upper
  deriving DecidableEq

/-- The case once `c` has been read; a digit does not change it. -/
def LetterCase.next (case : LetterCase) (c : Char) : LetterCase :=
  if isSmall c then .lower else if isCapital c then .upper else case

/-- Cuts a word of letters and digits at its case boundaries. `piece` is what has been read since
the last cut. -/
def humps (case : LetterCase) (piece : List Char) : List Char → List (List Char)
  | [] => if piece = [] then [] else [piece]
  | [c] => [piece ++ [c]]
  | c :: d :: rest =>
    if case.next c = .lower && isCapital d then
      (piece ++ [c]) :: humps .none [] (d :: rest)
    else if case = .upper && isCapital c && isSmall d then
      piece :: humps .none [c] (d :: rest)
    else humps (case.next c) (piece ++ [c]) (d :: rest)

/-- Letters in lower case; a capital sigma takes its final form at the end. -/
def lowerTail : List Char → List Char
  | [] => []
  | [c] => if c = 'Σ' then ['ς'] else lower c
  | c :: rest => lower c ++ lowerTail rest

/-- The first letter as a capital and the others in lower case. -/
def titleChars : List Char → List Char
  | [] => []
  | c :: rest => upper c ++ lowerTail rest

/-- The upper camel case form of a text. -/
def upperCamelChars (chars : List Char) : List Char :=
  ((splitWhere (fun c => !isWordChar c) chars).flatMap (humps .none [])).flatMap titleChars

end ApiModel.Text
