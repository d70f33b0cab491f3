import ApiModel.Text.Words

/-!
Singular forms of English nouns: words that do not change, whole-word exceptions, and then the
first suffix rule that fits. The case of the first letter is kept.
-/

namespace ApiModel.Text

/-- Nouns whose plural and singular are the same. -/
def uninflected : List String :=
  ["data", "deer", "equipment", "feedback", "fish", "information", "media", "metadata", "money",
    "news", "rice", "series", "sheep", "species"]

/-- Plurals that no suffix rule covers, with their singulars. -/
def irregularPlurals : List (String × String) := [
  ("aliases", "alias"), ("analyses", "analysis"), ("axes", "axis"), ("buses", "bus"),
  ("campuses", "campus"), ("children", "child"), ("cookies", "cookie"), ("crises", "crisis"),
  ("criteria", "criterion"), ("echoes", "echo"), ("feet", "foot"), ("geese", "goose"),
  ("halves", "half"), ("heroes", "hero"), ("indices", "index"), ("knives", "knife"),
  ("leaves", "leaf"), ("lives", "life"), ("matrices", "matrix"), ("men", "man"),
  ("mice", "mouse"), ("movies", "movie"), ("oxen", "ox"), ("people", "person"),
  ("phenomena", "phenomenon"), ("potatoes", "potato"), ("shelves", "shelf"), ("shoes", "shoe"),
  ("statuses", "status"), ("teeth", "tooth"), ("theses", "thesis"), ("tomatoes", "tomato"),
  ("vertices", "vertex"), ("viruses", "virus"), ("wives", "wife"), ("wolves", "wolf"),
  ("women", "woman")
]

/-- The number of bytes of a text in UTF-8. -/
def byteLength (chars : List Char) : Nat := chars.foldl (fun length c => length + c.utf8Size) 0

/-- Whether a text ends in one of the suffixes. -/
def endsInAny (suffixes : List String) (chars : List Char) : Bool :=
  suffixes.any fun suffix => suffix.toList.isSuffixOf chars

/-- The text without its last `n` characters. -/
def dropEnd (n : Nat) (chars : List Char) : List Char := chars.take (chars.length - n)

/-- Gives `replacement` the case of `word`: all capitals, a capital first letter, or neither. -/
def matchCase (word replacement : List Char) : List Char :=
  if 1 < byteLength word && word.all Char.isUpper then replacement.map Char.toUpper
  else if word.head?.any Char.isUpper then capitalizeChars replacement
  else replacement

/-- The singular of a noun by the suffix rules alone, tested on its lower-case form. -/
def singularBySuffix (word folded : List Char) : List Char :=
  if 4 < byteLength folded && endsInAny ["ies"] folded then dropEnd 3 word ++ ['y']
  else if endsInAny ["quizzes"] folded then dropEnd 3 word
  else if endsInAny ["sses", "xes", "ches", "shes", "zzes"] folded then dropEnd 2 word
  else if endsInAny ["ss", "us", "is"] folded then word
  else if 1 < byteLength folded && endsInAny ["s"] folded then dropEnd 1 word
  else word

/-- The singular of a noun. -/
def singularizeChars (word : List Char) : List Char :=
  let folded := word.map Char.toLower
  if String.ofList folded ∈ uninflected then word
  else
    match irregularPlurals.lookup (String.ofList folded) with
    | some singular => matchCase word singular.toList
    | none => singularBySuffix word folded

/-- The singular of a noun. -/
def singularize (word : String) : String := String.ofList (singularizeChars word.toList)

end ApiModel.Text
