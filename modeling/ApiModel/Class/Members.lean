import ApiModel.Identifier
import ApiModel.Rules

/-!
The members of a class: its properties with their identifiers and types, and the types of its
extensions.
-/

namespace ApiModel

namespace Property

/-- The site of a property. -/
def site (property : Property) : Site := ⟨property.node, property.reference⟩

/-- Gives each property its identifier; no two of them are equal in lower case. -/
def identify (spell : Text.Spelling) (properties : List Property) : List Property :=
  let identifiers :=
    Identifier.assign (properties.map fun property => Identifier.ofProperty spell property.name)
  properties.zipWith (fun property identifier => { property with identifier }) identifiers

end Property

/-- The site of an extension. -/
def Extension.site (slot : Extension) : Site := ⟨slot.node, slot.reference⟩

namespace Class

/-- The site of a class. -/
def site (c : Class) : Site := ⟨c.node, c.reference⟩

/-- The properties of a class with their identifiers and types. -/
def resolveProperties (c : Class) (rules : Rules) (registry : Registry) :
    Except Error (List Property) := do
  let properties ← rules.propertiesOf registry c.site
  (Property.identify rules.spell properties).mapM fun property => do
    let type ← rules.typeOf registry property.site
    return { property with type }

/-- The types of the extensions of a class. -/
def resolveExtensions (c : Class) (rules : Rules) (registry : Registry) :
    Except Error (List (String × DataType)) :=
  c.extensions.mapM fun (pattern, slot) => do
    let type ← rules.typeOf registry slot.site
    return (pattern, type)

/-- The class with its members known. -/
def resolve (c : Class) (rules : Rules) (registry : Registry) : Except Error Class := do
  let properties ← c.resolveProperties rules registry
  let extensionTypes ← c.resolveExtensions rules registry
  return { c with properties, extensionTypes }

end Class

end ApiModel
