import ApiModel.Text.UpperCamel

/-!
Identifiers of classes and properties: upper camel case of the name in its spelling, and a counter
where a class already has the identifier in any case.
-/

namespace ApiModel.Identifier

/-- The upper camel case form of a name that is spelled by `spell`. An empty one gives `fallback` and a
leading digit is put behind an `N`. -/
def ofChars (spell : Text.Spelling) (fallback name : List Char) : List Char :=
  match Text.upperCamelChars (spell name) with
  | [] => fallback
  | c :: rest => if c.isDigit then 'N' :: c :: rest else c :: rest

/-- The identifier of a property, before clashes are resolved: `pet_id` gives `PetId`. -/
def ofProperty (spell : Text.Spelling) (name : String) : String :=
  String.ofList (ofChars spell "Property".toList name.toList)

/-- The name of the class for a schema. -/
def ofClass (spell : Text.Spelling) (name : String) : String :=
  String.ofList (ofChars spell "Model".toList name.toList)

/-- `base` followed by a counter. -/
def numbered (base : String) (counter : Nat) : String := base ++ toString counter

/-- The first counter from `counter` on that gives an identifier whose lower-case form is not among
`taken`. A form that was met is not met again, so it is dropped from the list. -/
def freeCounter (base : String) (taken : List String) (counter : Nat) : Nat :=
  let folded := Text.lowercase (numbered base counter)
  if folded ∈ taken then freeCounter base (taken.erase folded) (counter + 1) else counter
termination_by taken.length
decreasing_by
  rename_i h
  have hpos := List.length_pos_of_mem h
  rw [List.length_erase_of_mem h]
  omega

/-- `base` if no identifier equals it in lower case, else `base` with the first free counter from 2
on. -/
def distinct (taken : List String) (base : String) : String :=
  if Text.lowercase base ∈ taken then numbered base (freeCounter base taken 2) else base

/-- Identifiers for the bases in turn, no two equal in lower case. `taken` holds the lower-case
forms given out before. -/
def assignFrom (taken : List String) : List String → List String
  | [] => []
  | base :: rest =>
    let identifier := distinct taken base
    identifier :: assignFrom (Text.lowercase identifier :: taken) rest

/-- Identifiers for the bases in turn, no two equal in lower case. -/
def assign (bases : List String) : List String := assignFrom [] bases

end ApiModel.Identifier
