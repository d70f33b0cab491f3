import ApiModel.DataType.Rule

/-!
# What the rules for types plan

All that a rule can do with a node, case by case (`TypeRule.Planned`), with what the node and the
registry must be like for it.
-/

namespace ApiModel.TypeRule

/-- What a rule may plan for a node. -/
inductive Planned (registry : Registry) (site : Site) : TypeRule → TypePlan → Prop where
  /-- A reference to a class. -/
  | named {c : Class} : registry.class? (site.resolve (site.target?.getD "")) = some c →
    Planned registry site .reference
      (.known (.object (site.resolve (site.target?.getD "")) c.name))
  /-- A reference to a node that is no class. -/
  | followed {node : Document} :
    registry.class? (site.resolve (site.target?.getD "")) = none →
    registry.node? (site.resolve (site.target?.getD "")) = some node →
    Planned registry site .reference (.follow ⟨node, site.resolve (site.target?.getD "")⟩)
  /-- A node that is a class. -/
  | object : Planned registry site .object
    (.known (.object site.reference (((registry.class? site.reference).map Class.name).getD "")))
  /-- A text of format `date-time`. -/
  | dateTime {wrapper : String} {format : DateTimeFormat} :
    Planned registry site (.dateTime wrapper format) (.known (.dateTime wrapper format))
  /-- A list of types. -/
  | types {types : List Document} : site.node.itemsAt? "type" = some types →
    Planned registry site .multiple (.combine (variants site types) DataType.ofVariants)
  /-- The members of `oneOf` and `anyOf`. -/
  | members : site.node.itemsAt? "type" = none →
    Planned registry site .multiple
      (.combine (site.items "oneOf" ++ site.items "anyOf") .multiple)
  /-- An array whose items have one type. -/
  | items {items : Site} : site.object? "items" = some items →
    Planned registry site .array (.combine [items] fun types => .array (types.headD .mixed))
  /-- An array whose items have a type for each position. -/
  | tuple {items : List Document} : site.object? "items" = none →
    site.node.itemsAt? "items" = some items →
    Planned registry site .array
      (.combine (site.items "items") fun types => .array (.multiple types))
  /-- An array of anything. -/
  | untyped : site.object? "items" = none → site.node.itemsAt? "items" = none →
    Planned registry site .array (.known (.array .mixed))
  /-- A map whose values have one type. -/
  | values {values : Site} : site.object? "additionalProperties" = some values →
    Planned registry site .map (.combine [values] fun types => .map (types.headD .mixed))
  /-- A map of anything. -/
  | anything : site.object? "additionalProperties" = none →
    Planned registry site .map (.known (.map .mixed))
  /-- A scalar of a known kind. -/
  | scalar {kind : ScalarKind} :
    (site.node.textAt? "type").bind ScalarKind.ofKeyword? = some kind →
    Planned registry site .scalar (.known (.scalar kind))

variable {registry : Registry} {site : Site} {rule : TypeRule}

theorem planned_of_planReference {result : TypePlan} (h : planReference registry site = .ok result) :
    Planned registry site .reference result := by
  simp only [planReference] at h
  split at h
  · next hclass => cases h; exact .named hclass
  · next hnone =>
    split at h
    · next hnode => cases h; exact .followed hnone hnode
    · cases h

theorem planned_planMultiple : Planned registry site .multiple (planMultiple site) := by
  unfold planMultiple
  split
  · next htypes => exact .types htypes
  · next hnone => exact .members hnone

theorem planned_planArray : Planned registry site .array (planArray site) := by
  unfold planArray
  split
  · next hitems => exact .items hitems
  · next hnone =>
    split
    · next hitems => exact .tuple hnone hitems
    · next hitems => exact .untyped hnone hitems

theorem planned_planMap : Planned registry site .map (planMap site) := by
  unfold planMap
  split
  · next hvalues => exact .values hvalues
  · next hnone => exact .anything hnone

/-- A plan that is made is one of the cases. -/
theorem planned_of_plan {result : TypePlan} (h : rule.plan registry site = .ok result) :
    Planned registry site rule result := by
  cases rule with
  | reference => exact planned_of_planReference h
  | object => cases h; exact .object
  | dateTime => cases h; exact .dateTime
  | multiple => cases h; exact planned_planMultiple
  | array => cases h; exact planned_planArray
  | map => cases h; exact planned_planMap
  | scalar =>
    simp only [plan] at h
    split at h
    · next hkind => cases h; exact .scalar hkind
    · cases h

end ApiModel.TypeRule
