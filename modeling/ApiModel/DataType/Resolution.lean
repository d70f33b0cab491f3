import ApiModel.DataType.Rule
import ApiModel.Registry.Following

/-!
The type of a node: the first rule that applies decides, and a node that no rule applies to is
mixed. A reference met again while it is being followed is mixed too.
-/

namespace ApiModel

/-- The type of a node that was reached by following some references. -/
def typeAt (rules : List TypeRule) (registry : Registry) (followed : List String) (site : Site) :
    Except Error DataType :=
  match rules.find? (·.supports registry site) with
  | none => .ok .mixed
  | some rule =>
    match _hplan : rule.plan registry site with
    | .error error => .error error
    | .ok (.known type) => .ok type
    | .ok (.follow target) =>
      match _hfollow : registry.follow? followed target.reference with
      | none => .ok .mixed
      | some followed => typeAt rules registry followed target
    | .ok (.combine sites build) =>
      (sites.attach.mapM fun inner => typeAt rules registry followed inner.1).map build
termination_by (registry.unfollowed followed, sizeOf site.node)
decreasing_by
  · exact Prod.Lex.left _ _ (Registry.unfollowed_lt _hfollow)
  · exact Prod.Lex.right _ (TypeRule.sizeOf_plan_lt _hplan inner.2)

/-- The type that one rule finds for a node by itself, all rules taking part for other nodes. -/
def TypeRule.typeOf (rule : TypeRule) (rules : List TypeRule) (registry : Registry) (site : Site) :
    Except Error DataType :=
  match rule.plan registry site with
  | .error error => .error error
  | .ok (.known type) => .ok type
  | .ok (.follow target) => typeAt rules registry [] target
  | .ok (.combine sites build) => (sites.mapM (typeAt rules registry [])).map build

end ApiModel
