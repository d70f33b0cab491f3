import ApiModel.Registry

/-!
Reachability: the classes that whitelisted operations lead to. A class leads to its relations, to
its children and to its union; any other node leads to the references under it.
-/

namespace ApiModel

/-- A list without any copy of one element. -/
def without (reference : String) (references : List String) : List String :=
  references.filter (· ≠ reference)

theorem length_without_lt {reference : String} {references : List String}
    (h : reference ∈ references) : (without reference references).length < references.length :=
  List.length_filter_lt_length_iff_exists.2 ⟨reference, h, by simp⟩

/-- Visits references depth first, the first of `pending` first, and lists each once. Only those
among `unvisited` are met. -/
def visit (successors : String → List String) (unvisited pending : List String) : List String :=
  match pending with
  | [] => []
  | reference :: pending =>
    if reference ∈ unvisited then
      reference ::
        visit successors (without reference unvisited) (successors reference ++ pending)
    else visit successors unvisited pending
termination_by (unvisited.length, pending.length)
decreasing_by
  · exact Prod.Lex.left _ _ (length_without_lt (by assumption))
  · exact Prod.Lex.right _ (Nat.lt_succ_self _)

namespace Registry

/-- The references that a reference leads to. -/
def successors (registry : Registry) (reference : String) : List String :=
  match registry.class? reference with
  | some c =>
    (registry.relations? reference).getD [] ++ c.children ++ c.unionParent?.toList
  | none =>
    ((registry.node? reference).toList.flatMap Document.refs).map
      (Reference.resolve (Reference.document reference))

/-- The references under the whitelisted operations of a schema. -/
def entryPoints (registry : Registry) (schema : Schema) : List String :=
  (schema.operations.filter (·.path ∈ registry.whitelist)).flatMap fun operation =>
    operation.node.refs.map (Reference.resolve schema.origin)

/-- Every reference that another one can lead to. -/
def linked (registry : Registry) : List String :=
  registry.targets ++
    registry.schemas.flatMap fun schema =>
      schema.relations.flatMap Prod.snd ++
        schema.classes.flatMap fun c => c.children ++ c.unionParent?.toList

/-- The classes that the whitelisted operations of a schema lead to, in the order they are met. The
last reference of a node is followed first. -/
def marked (registry : Registry) (schema : Schema) : List String :=
  let start := (registry.entryPoints schema).reverse
  (visit (fun reference => (registry.successors reference).reverse) (start ++ registry.linked)
    start).filter registry.hasClass

end Registry

end ApiModel
