import ApiModel.Registry.Reachability

/-!
Pruning to the whitelist: only classes that some whitelisted operation leads to are kept. All
schemas are marked before any class goes.
-/

namespace ApiModel.Registry

/-- Every class that is kept. -/
def keptClasses (registry : Registry) : List String := registry.schemas.flatMap registry.marked

/-- Keeps the marked classes. Without a whitelist nothing changes. -/
def prune (registry : Registry) : Registry :=
  if registry.whitelist = [] then registry
  else
    let kept := registry.keptClasses
    let schemas := registry.schemas.map fun schema =>
      { schema with
        needed := registry.marked schema
        classes := schema.classes.filter (·.reference ∈ kept) }
    { registry with schemas }

/-- The number of classes that pruning drops. -/
def prunedCount (registry : Registry) : Nat :=
  if registry.whitelist = [] then 0
  else
    let kept := registry.keptClasses
    (registry.schemas.flatMap Schema.classes).countP (·.reference ∉ kept)

end ApiModel.Registry
