/-!
Transliteration to ASCII, the spelling that the program runs with. ASCII spells itself, and each character
of a table is spelled with ASCII text. A character that is not listed is marked by a question mark in
brackets. Nothing else hangs on the table: names are made with any spelling (`Text.Spelling`).
-/

namespace ApiModel.Text

/-- Spellings of characters beyond ASCII. A spelling that is a word of its own ends in a space. -/
def spellings : List (Char × String) := [
  ('\u00a0', " "), ('£', "PS"), ('©', "(c)"), ('®', "(r)"), ('°', "deg"), ('²', "2"),
  ('µ', "u"), ('½', "1/2"), ('¿', "?"), ('À', "A"), ('Á', "A"), ('Â', "A"), ('Ã', "A"),
  ('Ä', "A"), ('Å', "A"), ('Æ', "AE"), ('Ç', "C"), ('È', "E"), ('É', "E"), ('Ê', "E"),
  ('Ë', "E"), ('Ì', "I"), ('Í', "I"), ('Î', "I"), ('Ï', "I"), ('Ð', "D"), ('Ñ', "N"),
  ('Ò', "O"), ('Ó', "O"), ('Ô', "O"), ('Õ', "O"), ('Ö', "O"), ('×', "x"), ('Ø', "O"),
  ('Ù', "U"), ('Ú', "U"), ('Û', "U"), ('Ü', "U"), ('Ý', "Y"), ('Þ', "Th"), ('ß', "ss"),
  ('à', "a"), ('á', "a"), ('â', "a"), ('ã', "a"), ('ä', "a"), ('å', "a"), ('æ', "ae"),
  ('ç', "c"), ('è', "e"), ('é', "e"), ('ê', "e"), ('ë', "e"), ('ì', "i"), ('í', "i"),
  ('î', "i"), ('ï', "i"), ('ð', "d"), ('ñ', "n"), ('ò', "o"), ('ó', "o"), ('ô', "o"),
  ('õ', "o"), ('ö', "o"), ('÷', "/"), ('ø', "o"), ('ù', "u"), ('ú', "u"), ('û', "u"),
  ('ü', "u"), ('ý', "y"), ('þ', "th"), ('ÿ', "y"), ('İ', "I"), ('ı', "i"), ('Ł', "L"),
  ('ŉ', "'n"), ('Œ', "OE"), ('œ', "oe"), ('ź', "z"), ('ſ', "s"), ('Ǆ', "DZ"), ('\u0301', ""),
  ('Α', "A"), ('Β', "B"), ('Γ', "G"), ('Ε', "E"), ('Σ', "S"), ('Ω', "O"), ('ά', "a"),
  ('α', "a"), ('β', "b"), ('γ', "g"), ('δ', "d"), ('λ', "l"), ('Ё', "Io"), ('Њ', "Nj"),
  ('Ж', "Zh"), ('М', "M"), ('а', "a"), ('в', "v"), ('е', "e"), ('и', "i"), ('к', "k"),
  ('м', "m"), ('о', "o"), ('р', "r"), ('с', "s"), ('у', "u"), ('щ', "shch"), ('я', "ia"),
  ('ו', "v"), ('ל', "l"), ('ם', "m"), ('ש', "sh"), ('ا', ""), ('ب', "b"), ('ح', "H"),
  ('ر', "r"), ('م', "m"), ('١', "1"), ('ท', "th"), ('ย', "y"), ('ไ', "ai"), ('ẞ', "Ss"),
  ('\u2003', " "), ('\u200b', " "), ('–', "-"), ('—', "--"), ('“', "\""), ('”', "\""),
  ('…', "..."), ('€', "EUR"), ('№', "No"), ('™', "tm"), ('①', "1"), ('京', "Jing "),
  ('前', "Qian "), ('北', "Bei "), ('名', "Ming "), ('日', "Ri "), ('本', "Ben "), ('語', "Yu "),
  ('국', "gug"), ('한', "han"), ('ﬁ', "fi"), ('Ａ', "A"), ('Ｂ', "B"), ('Ｃ', "C"), ('\ufffd', "?"),
  ('👍', "+1 ")
]

/-- The ASCII spelling of a character, if it has one. -/
def spelling? (c : Char) : Option (List Char) :=
  if c.toNat < 0x80 then some [c] else (spellings.lookup c).map String.toList

/-- Whether nothing follows, or a spelling that starts with a space. -/
def endsOrSpaces : List (Option (List Char)) → Bool
  | [] => true
  | some (' ' :: _) :: _ => true
  | _ => false

/-- Joins spellings. The space that ends a longer spelling is dropped at the end of the text and
before another space. -/
def joinSpellings : List (Option (List Char)) → List Char
  | [] => []
  | none :: rest => ['[', '?', ']'] ++ joinSpellings rest
  | some chars :: rest =>
    let kept :=
      if 1 < chars.length && chars.getLast? == some ' ' && endsOrSpaces rest then chars.dropLast
      else chars
    kept ++ joinSpellings rest

/-- The text in ASCII characters. -/
def transliterate (chars : List Char) : List Char := joinSpellings (chars.map spelling?)

end ApiModel.Text
