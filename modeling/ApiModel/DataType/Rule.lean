import ApiModel.Error
import ApiModel.Registry
import ApiModel.Site

/-!
The rules by which a node gets its type. A rule says what it does with a node: it knows the type, or
takes the type of another node, or combines the types of smaller nodes.
-/

namespace ApiModel

/-- One way to find the type of a node. -/
inductive TypeRule where
  /-- A `$ref` has the type of what it refers to. -/
  | reference
  /-- A node that is a class is an object. -/
  | object
  /-- A text of format `date-time` is decoded into a wrapper. -/
  | dateTime (wrapper : String) (format : DateTimeFormat)
  /-- Lists of types, `oneOf` and `anyOf`. -/
  | multiple
  | array
  /-- An object without structure. -/
  | map
  /-- A scalar by its `type`. -/
  | scalar
  deriving DecidableEq, Inhabited

/-- What a rule does with a node. -/
inductive TypePlan where
  | known (type : DataType)
  /-- The type of another node. -/
  | follow (site : Site)
  /-- A type made from the types of some nodes. -/
  | combine (sites : List Site) (build : List DataType → DataType)

/-- Whether a node is a text of format `date-time`. -/
def isDateTime (node : Document) : Bool :=
  node.textAt? "type" = some "string" && node.textAt? "format" = some "date-time"

/-- The type for the variants of a list of types: null for none, and a single one stands alone. -/
def DataType.ofVariants : List DataType → DataType
  | [] => .scalar .null
  | [type] => type
  | types => .multiple types

namespace TypeRule

/-- Whether a rule applies to a node. -/
def supports (registry : Registry) (site : Site) : TypeRule → Bool
  | reference => site.target?.isSome
  | object => site.target?.isNone && registry.hasClass site.reference
  | dateTime _ _ => isDateTime site.node
  | multiple => ["type", "oneOf", "anyOf"].any fun key => (site.node.itemsAt? key).isSome
  | array =>
    match site.node.textAt? "type" with
    | some kind => kind = "array"
    | none => (site.node.get? "items").isSome
  | map =>
    match site.node.textAt? "type" with
    | some kind => kind = "object"
    | none => (site.node.get? "additionalProperties").isSome
  | scalar => ((site.node.textAt? "type").bind ScalarKind.ofKeyword?).isSome

/-- A reference to a class is an object. Anything else has the type of the node it points at. -/
def planReference (registry : Registry) (site : Site) : Except Error TypePlan :=
  let target := site.target?.getD ""
  let reference := site.resolve target
  match registry.class? reference with
  | some c => .ok (.known (.object reference c.name))
  | none =>
    match registry.node? reference with
    | some node => .ok (.follow ⟨node, reference⟩)
    | none => .error (.unresolvableReference target site.reference)

/-- The node once for each type in its list, null left out. -/
def variants (site : Site) (types : List Document) : List Site :=
  (types.filter fun type => type.text?.any (· ≠ "null")).map fun type =>
    { site with node := site.node.set "type" type }

/-- A list of types gives a variant for each, and otherwise the members of `oneOf` and `anyOf` do. -/
def planMultiple (site : Site) : TypePlan :=
  match site.node.itemsAt? "type" with
  | some types => .combine (variants site types) DataType.ofVariants
  | none => .combine (site.items "oneOf" ++ site.items "anyOf") .multiple

/-- The items of an array have one type, or one for each position. -/
def planArray (site : Site) : TypePlan :=
  match site.object? "items" with
  | some items => .combine [items] fun types => .array (types.headD .mixed)
  | none =>
    match site.node.itemsAt? "items" with
    | some _ => .combine (site.items "items") fun types => .array (.multiple types)
    | none => .known (.array .mixed)

/-- The values of a map have the type of `additionalProperties`. -/
def planMap (site : Site) : TypePlan :=
  match site.object? "additionalProperties" with
  | some values => .combine [values] fun types => .map (types.headD .mixed)
  | none => .known (.map .mixed)

/-- What a rule does with a node, whether or not it applies to it. -/
def plan (registry : Registry) (site : Site) : TypeRule → Except Error TypePlan
  | reference => planReference registry site
  | object =>
    .ok (.known (.object site.reference (((registry.class? site.reference).map Class.name).getD "")))
  | dateTime wrapper format => .ok (.known (.dateTime wrapper format))
  | multiple => .ok (planMultiple site)
  | array => .ok (planArray site)
  | map => .ok (planMap site)
  | scalar =>
    match (site.node.textAt? "type").bind ScalarKind.ofKeyword? with
    | some kind => .ok (.known (.scalar kind))
    | none => .error .noScalarType

/-! The nodes that a rule combines are smaller. -/

theorem sizeOf_variants_lt {site inner : Site} {types : List Document}
    (htypes : site.node.itemsAt? "type" = some types) (h : inner ∈ variants site types) :
    sizeOf inner.node < sizeOf site.node := by
  unfold variants at h
  obtain ⟨type, htype, rfl⟩ := List.mem_map.1 h
  unfold Document.itemsAt? at htypes
  obtain ⟨old, hget, hitems⟩ := Option.bind_eq_some_iff.1 htypes
  refine Document.sizeOf_set_lt hget ?_
  cases old <;> simp [Document.items?] at hitems
  subst hitems
  exact Document.sizeOf_item_lt (List.mem_filter.1 htype).1

theorem sizeOf_planMultiple_lt {site inner : Site} {sites : List Site}
    {build : List DataType → DataType} (h : planMultiple site = .combine sites build)
    (hmem : inner ∈ sites) : sizeOf inner.node < sizeOf site.node := by
  unfold planMultiple at h
  split at h
  · next htypes => cases h; exact sizeOf_variants_lt htypes hmem
  · cases h
    rcases List.mem_append.1 hmem with hmem | hmem <;> exact Site.sizeOf_items_lt hmem

theorem sizeOf_planArray_lt {site inner : Site} {sites : List Site}
    {build : List DataType → DataType} (h : planArray site = .combine sites build)
    (hmem : inner ∈ sites) : sizeOf inner.node < sizeOf site.node := by
  unfold planArray at h
  split at h
  · next hitems =>
    cases h
    cases List.mem_singleton.1 hmem
    exact Site.sizeOf_object?_lt hitems
  · split at h
    · cases h; exact Site.sizeOf_items_lt hmem
    · cases h

theorem sizeOf_planMap_lt {site inner : Site} {sites : List Site}
    {build : List DataType → DataType} (h : planMap site = .combine sites build)
    (hmem : inner ∈ sites) : sizeOf inner.node < sizeOf site.node := by
  unfold planMap at h
  split at h
  · next hvalues =>
    cases h
    cases List.mem_singleton.1 hmem
    exact Site.sizeOf_object?_lt hvalues
  · cases h

theorem sizeOf_plan_lt {registry : Registry} {site inner : Site} {rule : TypeRule}
    {sites : List Site} {build : List DataType → DataType}
    (h : rule.plan registry site = .ok (.combine sites build)) (hmem : inner ∈ sites) :
    sizeOf inner.node < sizeOf site.node := by
  cases rule with
  | reference =>
    simp only [plan, planReference] at h
    split at h
    · cases h
    · split at h <;> cases h
  | object | dateTime => cases h
  | multiple => exact sizeOf_planMultiple_lt (Except.ok.inj h) hmem
  | array => exact sizeOf_planArray_lt (Except.ok.inj h) hmem
  | map => exact sizeOf_planMap_lt (Except.ok.inj h) hmem
  | scalar =>
    simp only [plan] at h
    split at h <;> cases h

end TypeRule

end ApiModel
