import ApiModel.Yaml.Scalar

/-!
A YAML document with its aliases resolved, and the value it stands for. Anchors are numbered by how
many names were known before them, and an alias stands for the last node with the number of its
name. How often aliases may be followed, and how deep collections may nest, is limited.
-/

namespace ApiModel.Yaml

/-- The state of numbering: the names known so far with their numbers. -/
abbrev Names := List (String × Nat)

/-- Nodes by their numbers, in the order they begin. -/
abbrev Targets := List (Nat × Node Nat)

namespace Node

/-- The names after an anchor, and the number it gets. -/
def nameAnchor (names : Names) (anchor : Option String) : Names × Option Nat :=
  match anchor with
  | none => (names, none)
  | some name => (Keyed.put Prod.fst (name, names.length) names, some names.length)

/-- The target that a numbered node gives. -/
def target (number : Option Nat) (node : Node Nat) : Targets :=
  (number.map fun n => (n, node)).toList

mutual

/-- Replaces the names of aliases by numbers; none if a name is unknown. -/
def link? (names : Names) : Node String → Option (Node Nat × Targets × Names)
  | .alias name => (names.lookup name).map fun n => (.alias n, [], names)
  | .scalar props style text =>
    let (names, number) := nameAnchor names props.anchor
    let node := Node.scalar props style text
    some (node, target number node, names)
  | .sequence props items =>
    let (names, number) := nameAnchor names props.anchor
    (linkItems? names items).map fun (items, targets, names) =>
      let node := Node.sequence props items
      (node, target number node ++ targets, names)
  | .mapping props entries =>
    let (names, number) := nameAnchor names props.anchor
    (linkEntries? names entries).map fun (entries, targets, names) =>
      let node := Node.mapping props entries
      (node, target number node ++ targets, names)

/-- Links the items of a sequence in turn. -/
def linkItems? (names : Names) : List (Node String) → Option (List (Node Nat) × Targets × Names)
  | [] => some ([], [], names)
  | item :: rest =>
    (link? names item).bind fun (item, before, names) =>
      (linkItems? names rest).map fun (items, after, names) =>
        (item :: items, before ++ after, names)

/-- Links the entries of a mapping in turn, each key before its value. -/
def linkEntries? (names : Names) :
    List (Node String × Node String) → Option (List (Node Nat × Node Nat) × Targets × Names)
  | [] => some ([], [], names)
  | (key, value) :: rest =>
    (link? names key).bind fun (key, ofKey, names) =>
      (link? names value).bind fun (value, ofValue, names) =>
        (linkEntries? names rest).map fun (entries, after, names) =>
          ((key, value) :: entries, ofKey ++ ofValue ++ after, names)

end

mutual

/-- The number of events of a node: one for a scalar or an alias, two for a collection. -/
def events {α : Type} : Node α → Nat
  | .alias _ => 1
  | .scalar _ _ _ => 1
  | .sequence _ items => 2 + eventsOfItems items
  | .mapping _ entries => 2 + eventsOfEntries entries

/-- The number of events of items. -/
def eventsOfItems {α : Type} : List (Node α) → Nat
  | [] => 0
  | item :: rest => events item + eventsOfItems rest

/-- The number of events of entries. -/
def eventsOfEntries {α : Type} : List (Node α × Node α) → Nat
  | [] => 0
  | (key, value) :: rest => events key + events value + eventsOfEntries rest

end

end Node

/-- A document with numbered aliases. -/
structure Graph where
  root : Node Nat
  targets : Targets
  /-- How often aliases may be followed. -/
  limit : Nat

namespace Graph

/-- The graph of a document; none if an alias has no anchor before it. -/
def ofNode? (node : Node String) : Option Graph :=
  (node.link? []).map fun (root, targets, _) => { root, targets, limit := 100 * node.events }

/-- The node that a number stands for. -/
def target? (graph : Graph) (number : Nat) : Option (Node Nat) := graph.targets.reverse.lookup number

/-- Follows an alias; `jumps` counts how many have been followed before. -/
def follow? (graph : Graph) (node : Node Nat) (jumps : Nat) : Option (Node Nat × Nat) :=
  match node with
  | .alias number =>
    if jumps < graph.limit then (graph.target? number).map fun node => (node, jumps + 1) else none
  | node => some (node, jumps)

/-- The text of a scalar in any style. -/
def text? (graph : Graph) (node : Node Nat) (jumps : Nat) : Option (String × Nat) :=
  (graph.follow? node jumps).bind fun (node, jumps) =>
    match node with
    | .scalar _ _ text => some (text, jumps)
    | _ => none

/-- Whether a tag is the writer's own. -/
def isOwnTag (props : Props) : Bool := props.tag.any (·.startsWith "!")

mutual

/-- The value of a node, its collections nested at most `depth` deep. Keys are the texts of scalars. -/
def value? (graph : Graph) (depth : Nat) (node : Node Nat) (jumps : Nat) :
    Option (Document × Nat) :=
  match graph.follow? node jumps with
  | none => none
  | some (.alias _, _) => none
  | some (.scalar props style text, jumps) =>
    (scalarValue? props style text).map fun value => (value, jumps)
  | some (.sequence props items, jumps) =>
    match depth with
    | 0 => none
    | inner + 1 =>
      if isOwnTag props then none
      else (values? graph inner items jumps).map fun (items, jumps) => (.list items, jumps)
  | some (.mapping props entries, jumps) =>
    match depth with
    | 0 => none
    | inner + 1 =>
      if isOwnTag props then none
      else
        (pairs? graph inner entries jumps).map fun (pairs, jumps) =>
          (Document.ofEntries pairs, jumps)
termination_by (depth, 0)

/-- The values of items in turn. -/
def values? (graph : Graph) (depth : Nat) (items : List (Node Nat)) (jumps : Nat) :
    Option (List Document × Nat) :=
  match items with
  | [] => some ([], jumps)
  | item :: rest =>
    (value? graph depth item jumps).bind fun (value, jumps) =>
      (values? graph depth rest jumps).map fun (values, jumps) => (value :: values, jumps)
termination_by (depth, items.length + 1)

/-- The keys and values of entries in turn. -/
def pairs? (graph : Graph) (depth : Nat) (entries : List (Node Nat × Node Nat)) (jumps : Nat) :
    Option (List (String × Document) × Nat) :=
  match entries with
  | [] => some ([], jumps)
  | (key, value) :: rest =>
    (graph.text? key jumps).bind fun (key, jumps) =>
      (value? graph depth value jumps).bind fun (value, jumps) =>
        (pairs? graph depth rest jumps).map fun (pairs, jumps) => ((key, value) :: pairs, jumps)
termination_by (depth, entries.length + 1)

end

end Graph

/-- The graph of the only document of a text. The outer option is empty for a text that is not YAML,
the inner one where there is no document. -/
def graph? (text : String) : Option (Option Graph) :=
  ((tokens? text).bind Node.ofTokens?).bind fun
    | none => some none
    | some node => (Graph.ofNode? node).map some

/-- How deep collections may nest. -/
def maxDepth : Nat := 128

/-- The value of a document; null for a text without one. -/
def parse? (text : String) : Option Document :=
  (graph? text).bind fun
    | none => some .null
    | some graph => (graph.value? maxDepth graph.root 0).map Prod.fst

end ApiModel.Yaml
