import ApiModel.Text.Case

/-!
Words and how they are joined into identifiers: capitalizing, joining over delimiters, and slugs of
ASCII tokens.
-/

namespace ApiModel.Text

/-- The runs between the characters that satisfy `isBreak`, empty ones included. -/
def splitWhere (isBreak : Char → Bool) : List Char → List (List Char)
  | [] => [[]]
  | c :: rest =>
    if isBreak c then [] :: splitWhere isBreak rest
    else
      match splitWhere isBreak rest with
      | [] => [[c]]
      | run :: runs => (c :: run) :: runs

/-- Puts the first character in upper case. -/
def capitalizeChars : List Char → List Char
  | [] => []
  | c :: rest => upper c ++ rest

/-- Puts the first character in lower case. -/
def uncapitalizeChars : List Char → List Char
  | [] => []
  | c :: rest => lower c ++ rest

/-- Whether a character stands between words: a space, an underscore or a hyphen. -/
def isDelimiter (c : Char) : Bool := c = ' ' || c = '_' || c = '-'

/-- Capitalizes every word and drops the delimiters. Capitals inside a word stay. -/
def classifyChars (chars : List Char) : List Char :=
  (splitWhere isDelimiter chars).flatMap capitalizeChars

/-- Puts the first character in upper case. -/
def capitalize (word : String) : String := String.ofList (capitalizeChars word.toList)

/-- Puts the first character in lower case. -/
def uncapitalize (word : String) : String := String.ofList (uncapitalizeChars word.toList)

/-- Joins the words of a text, each capitalized. -/
def classify (text : String) : String := String.ofList (classifyChars text.toList)

/-- Joins the words of a text, each capitalized but the first character. -/
def camelize (text : String) : String := uncapitalize (classify text)

/-- How a text is spelled before a name is made of it, as a rule in ASCII. A program has one spelling for all
names that it makes. -/
abbrev Spelling := List Char → List Char

/-- The runs of ASCII letters and digits in the spelling of a text. Their case is kept. -/
def slugTokens (spell : Spelling) (text : String) : List String :=
  ((splitWhere (fun c => !c.isAlphanum) (spell text.toList)).filter (· ≠ [])).map String.ofList

/-- The slug tokens with a separator between them. -/
def slugify (spell : Spelling) (text separator : String) : String :=
  separator.intercalate (slugTokens spell text)

end ApiModel.Text
