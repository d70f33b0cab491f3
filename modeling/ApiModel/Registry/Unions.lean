import ApiModel.Registry

/-!
Children of unions: each learns the union it belongs to, the last one if several list it.
-/

namespace ApiModel.Registry

/-- The references of a union and of one of its children, for all unions in order. -/
def unionLinks (registry : Registry) : List (String × String) :=
  registry.schemas.flatMap fun schema =>
    schema.classes.flatMap fun c => c.children.map fun child => (c.reference, child)

/-- Whether a child of a union is a class that can take the union as its parent. -/
def isLinkable (registry : Registry) (child : String) : Bool :=
  match registry.class? child with
  | some c => !c.isUnion
  | none => false

/-- Tells one child its union. A child that is missing, or a union itself, is left out. -/
def link (registry : Registry) (union child : String) : Registry :=
  if registry.isLinkable child then registry.modifyClass child (·.setUnionParent union)
  else registry

/-- Tells all children their unions. -/
def linkUnions (registry : Registry) : Registry :=
  registry.unionLinks.foldl (fun registry (union, child) => registry.link union child) registry

/-- The number of children that take a parent. -/
def linkCount (registry : Registry) : Nat :=
  registry.unionLinks.countP fun (_, child) => registry.isLinkable child

/-- Tells all children their unions one after another, and counts those that take it as it goes. A child
is looked up in the registry that the links before have left. -/
def hydrate (registry : Registry) : Registry × Nat :=
  registry.unionLinks.foldl
    (fun (registry, linked) (union, child) =>
      match registry.class? child with
      | some c =>
        if c.isUnion then (registry, linked)
        else (registry.modifyClass child (·.setUnionParent union), linked + 1)
      | none => (registry, linked))
    (registry, 0)

end ApiModel.Registry
