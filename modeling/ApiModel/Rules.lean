import ApiModel.Class.Discovery
import ApiModel.DataType.Resolution
import ApiModel.Property.Resolution

/-!
Rule sets: all rules that take part in a run, in the order they are tried, and the spelling that
names are made with.
-/

namespace ApiModel

/-- The rules for classes, properties and types. -/
structure Rules where
  /-- The ASCII spelling of texts that names are made from. -/
  spell : Text.Spelling
  classes : List ClassRule := []
  properties : List PropertyRule := []
  types : List TypeRule := []
  deriving Inhabited

namespace Rules

/-- The rules for OpenAPI documents, with date-time texts decoded into `wrapper`. -/
def standard (spell : Text.Spelling) (wrapper : String) (format : DateTimeFormat) : Rules where
  spell
  classes := [.documentRoot, .objectSchema]
  properties := [.declared, .allOf]
  types := [.reference, .object, .dateTime wrapper format, .multiple, .array, .map, .scalar]

/-- Looks for classes in a seed. -/
def discover (rules : Rules) (registry : Registry) (seed : Seed) : Discovery :=
  ApiModel.discover rules.spell rules.classes registry seed

/-- The properties of a node. -/
def propertiesOf (rules : Rules) (registry : Registry) (site : Site) : Except Error (List Property) :=
  propertiesAt rules.properties registry [] site

/-- The type of a node. -/
def typeOf (rules : Rules) (registry : Registry) (site : Site) : Except Error DataType :=
  typeAt rules.types registry [] site

end Rules

end ApiModel
