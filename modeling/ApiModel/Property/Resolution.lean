import ApiModel.Property.Rule
import ApiModel.Registry.Following

/-!
The properties of a node: those of all parts in order, the first of each name. A node that inherits
from itself is an error.
-/

namespace ApiModel

/-- The parts that all rules find for a node, in the order of the rules. -/
def propertyParts (rules : List PropertyRule) (site : Site) : List PropertyPart :=
  (rules.filter (·.supports site)).flatMap (·.parts site)

/-- The node that an `allOf` member of a node refers to. -/
def inheritedFrom (registry : Registry) (site : Site) (target : String) : Except Error Site :=
  match registry.node? (site.resolve target) with
  | some node => .ok ⟨node, site.resolve target⟩
  | none => .error (.unresolvableAllOf target site.reference)

/-- The properties of a node that was reached by following some references. -/
def propertiesAt (rules : List PropertyRule) (registry : Registry) (followed : List String)
    (site : Site) : Except Error (List Property) :=
  let lists := (propertyParts rules site).attach.mapM fun ⟨part, _hpart⟩ =>
    match _hkind : part with
    | .declared properties => Except.ok properties
    | .member inner => propertiesAt rules registry followed inner
    | .inherited target =>
      match inheritedFrom registry site target with
      | .error error => .error error
      | .ok base =>
        match _hfollow : registry.follow? followed base.reference with
        | none => .error (.cyclicAllOf target site.reference)
        | some followed => propertiesAt rules registry followed base
  lists.map fun lists => Keyed.firsts Property.name lists.flatten
termination_by (registry.unfollowed followed, sizeOf site.node)
decreasing_by
  · subst _hkind
    obtain ⟨rule, _, hpart⟩ := List.mem_flatMap.1 _hpart
    exact Prod.Lex.right _ (PropertyRule.sizeOf_parts_lt hpart)
  · exact Prod.Lex.left _ _ (Registry.unfollowed_lt _hfollow)

/-- The properties that one rule finds for a node by itself, all rules taking part for other nodes.
A name may come more than once. -/
def PropertyRule.propertiesOf (rule : PropertyRule) (rules : List PropertyRule)
    (registry : Registry) (site : Site) : Except Error (List Property) :=
  let lists := (rule.parts site).mapM fun part =>
    match part with
    | .declared properties => Except.ok properties
    | .member inner => propertiesAt rules registry [] inner
    | .inherited target =>
      (inheritedFrom registry site target).bind (propertiesAt rules registry [])
  lists.map List.flatten

end ApiModel
