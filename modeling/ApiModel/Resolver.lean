import ApiModel.Rules

/-!
Rules at work. A resolver keeps the references that its calls are following, one list for types and one
for properties, and goes on with the same lists from one call to the next. A call puts a reference on its
list before it looks behind the reference, and takes it off afterwards, whether that succeeds or fails.
Calls nest only so deep.
-/

namespace ApiModel

/-- What works on a list of the references that are being followed. Nothing comes of what goes too deep. -/
abbrev Run := StateT (List String) Option

/-- A run that may fail. A failure comes out with the list as it is by then. -/
abbrev Following := ExceptT Error Run

/-- Looks behind a reference; `again` stands for what is behind it if it is being followed already. The
result of the call is handed on once the reference is off the list, so this is done for failures too. -/
def following {α : Type} (reference : String) (again : Except Error α)
    (call : Run (Except Error α)) : Run (Except Error α) := do
  if reference ∈ (← get) then return again
  modify (reference :: ·)
  let result ← call
  modify List.tail
  return result

/-- Finds the type of a node, with calls that nest up to some depth. -/
def resolveType (rules : List TypeRule) (registry : Registry) : Nat → Site → Following DataType
  | 0, _ => (failure : Run (Except Error DataType))
  | depth + 1, site =>
    match rules.find? (·.supports registry site) with
    | none => return .mixed
    | some rule =>
      match rule.plan registry site with
      | .error error => throw error
      | .ok (.known type) => return type
      | .ok (.follow target) =>
        following target.reference (.ok .mixed) (resolveType rules registry depth target)
      | .ok (.combine sites build) =>
        return build (← sites.mapM (resolveType rules registry depth))

/-- Finds the properties of a node, with calls that nest up to some depth. -/
def resolveProperties (rules : List PropertyRule) (registry : Registry) :
    Nat → Site → Following (List Property)
  | 0, _ => (failure : Run (Except Error (List Property)))
  | depth + 1, site => do
    let lists ← (propertyParts rules site).mapM fun part =>
      match part with
      | .declared properties => return properties
      | .member inner => resolveProperties rules registry depth inner
      | .inherited target =>
        match inheritedFrom registry site target with
        | .error error => throw error
        | .ok base =>
          following base.reference (.error (.cyclicAllOf target site.reference))
            (resolveProperties rules registry depth base)
    return Keyed.firsts Property.name lists.flatten

/-- Rules, and the references that are being followed with them. -/
structure Resolver where
  rules : Rules
  /-- How deep calls may nest. -/
  depth : Nat
  /-- The references that are being followed for a type. -/
  types : List String := []
  /-- The references that are being followed for properties. -/
  properties : List String := []

namespace Resolver

/-- What can be asked of a resolver, about any registry. -/
inductive Question where
  | type (registry : Registry) (site : Site)
  | properties (registry : Registry) (site : Site)

/-- The answer to a question, a failure being one too. -/
inductive Answer where
  | type (result : Except Error DataType)
  | properties (result : Except Error (List Property))

/-- Answers a question. -/
def answer (question : Question) : StateT Resolver Option Answer := fun resolver =>
  match question with
  | .type registry site =>
    ((resolveType resolver.rules.types registry resolver.depth site).run resolver.types).map
      fun (result, types) => (.type result, { resolver with types })
  | .properties registry site =>
    ((resolveProperties resolver.rules.properties registry resolver.depth site).run
      resolver.properties).map
      fun (result, properties) => (.properties result, { resolver with properties })

/-- Answers questions in turn. -/
def answers (questions : List Question) : StateT Resolver Option (List Answer) :=
  questions.mapM answer

end Resolver

end ApiModel
