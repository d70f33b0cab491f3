import ApiModel.Text.CaseTable

/-!
Upper and lower case of characters and texts, by the full mappings of the Unicode standard. On
ASCII letters the two mappings undo each other and every other ASCII character is its own image.
-/

namespace ApiModel.Text

/-- The image of a code point under simple spans and expansions; itself if neither has it. -/
def mapCase (spans : List CaseSpan) (expansions : List (Nat × List Nat)) (c : Char) : List Char :=
  match expansions.lookup c.toNat with
  | some codes => codes.map Char.ofNat
  | none =>
    match spans.findSome? (·.image? c.toNat) with
    | some code => [Char.ofNat code]
    | none => [c]

/-- The upper-case form of a character: one character or several. -/
def upper (c : Char) : List Char :=
  if c.toNat < 0x80 then [c.toUpper] else mapCase upperSpans upperExpansions c

/-- The lower-case form of a character: one character or several. -/
def lower (c : Char) : List Char :=
  if c.toNat < 0x80 then [c.toLower] else mapCase lowerSpans lowerExpansions c

/-- Whether one of the ranges holds the code point. -/
def inRanges (ranges : List (Nat × Nat)) (code : Nat) : Bool :=
  ranges.any fun range => range.1 ≤ code && code ≤ range.2

/-- Whether a character is a letter with case. -/
def isCased (c : Char) : Bool :=
  if c.toNat < 0x80 then c.isAlpha else inRanges casedRanges c.toNat

/-- Whether a character is passed over when a word's letters are looked for. -/
def isCaseIgnorable (c : Char) : Bool :=
  if c.toNat < 0x80 then c ∈ ['\'', '.', ':', '^', '\x60']
  else inRanges caseIgnorableRanges c.toNat

/-- Whether the first character that counts is a letter with case. -/
def startsCased (chars : List Char) : Bool :=
  (chars.dropWhile isCaseIgnorable).head?.any isCased

/-- Lower case of a text. A capital sigma that ends a word takes its final form; `before` holds the
characters already passed, nearest first. -/
def lowerChars (before : List Char) : List Char → List Char
  | [] => []
  | c :: rest =>
    let image :=
      if c = 'Σ' then if startsCased before && !startsCased rest then ['ς'] else ['σ']
      else lower c
    image ++ lowerChars (c :: before) rest

/-- Lower case of a text. -/
def lowercase (text : String) : String := String.ofList (lowerChars [] text.toList)

/-- Lower case of the ASCII letters; everything else stays. -/
def asciiLower (text : String) : String := text.map Char.toLower

end ApiModel.Text
