import ApiModel.Yaml.Token.Reading

/-!
Nodes of a YAML text: scalars, sequences, mappings and aliases, read from its tokens. A text holds
at most one document.
-/

namespace ApiModel.Yaml

/-- The anchor and the tag of a node. -/
structure Props where
  anchor : Option String := none
  tag : Option String := none

/-- A node whose aliases name their targets by values of `α`. -/
inductive Node (α : Type) where
  | alias (target : α)
  | scalar (props : Props) (style : Style) (text : String)
  | sequence (props : Props) (items : List (Node α))
  | mapping (props : Props) (entries : List (Node α × Node α))
  deriving Inhabited

namespace Node

/-- The node that stands where nothing is written. -/
def empty (props : Props) : Node String := .scalar props .plain ""

/-- Where a node stands. -/
inductive Position where
  | block
  /-- At a key or a value of a block mapping, where the entries of a sequence need no opening token. -/
  | blockPart
  | flow
  deriving DecidableEq

/-- What a reader takes from tokens, and the tokens after it, which are no more than before. -/
abbrev Reading (β : Type) (tokens : List Token) :=
  Option { taken : β × List Token // taken.2.length ≤ tokens.length }

/-- The tag with its handle replaced by the text it is declared for. An empty handle stands for
itself. -/
def tagText? (handles : List (String × String)) (handle suffix : String) : Option String :=
  if handle.isEmpty then some suffix else (handles.lookup handle).map (· ++ suffix)

/-- Reads an anchor and a tag, in either order. -/
def props? (handles : List (String × String)) (tokens : List Token) : Reading Props tokens :=
  match tokens with
  | .anchor anchor :: .tag handle suffix :: rest =>
    (tagText? handles handle suffix).map fun tag =>
      ⟨({ anchor := some anchor, tag := some tag }, rest), Nat.le_add_right rest.length 2⟩
  | .tag handle suffix :: .anchor anchor :: rest =>
    (tagText? handles handle suffix).map fun tag =>
      ⟨({ anchor := some anchor, tag := some tag }, rest), Nat.le_add_right rest.length 2⟩
  | .anchor anchor :: rest => some ⟨({ anchor := some anchor }, rest), Nat.le_succ rest.length⟩
  | .tag handle suffix :: rest =>
    (tagText? handles handle suffix).map fun tag =>
      ⟨({ tag := some tag }, rest), Nat.le_succ rest.length⟩
  | tokens => some ⟨({}, tokens), Nat.le_refl _⟩

/-- Whether the next token is one of those given. -/
def sees (tokens : List Token) (expected : List Token) : Bool := tokens.head?.any (· ∈ expected)

/-- The empty node that an anchor or a tag stands on. -/
def bare? (props : Props) (tokens : List Token) : Reading (Node String) tokens :=
  if props.anchor.isSome || props.tag.isSome then some ⟨(empty props, tokens), Nat.le_refl _⟩
  else none

/-- The tokens of the next entry of a flow collection: after a comma unless it is the first. -/
def separated? (isFirst : Bool) (tokens : List Token) :
    Option { rest : List Token // rest.length + (if isFirst then 0 else 1) ≤ tokens.length } :=
  match isFirst, tokens with
  | true, tokens => some ⟨tokens, by simp⟩
  | false, .flowEntry :: rest => some ⟨rest, by simp⟩
  | false, _ => none

mutual

/-- Reads a node. -/
def read? (handles : List (String × String)) (position : Position) (tokens : List Token) :
    Reading (Node String) tokens :=
  match tokens with
  | .alias name :: rest => some ⟨(.alias name, rest), by grind⟩
  | tokens => do
    let ⟨(props, rest), _⟩ ← props? handles tokens
    let ⟨(node, rest), _⟩ ← content? handles position props rest
    some ⟨(node, rest), by grind⟩
termination_by tokens.length * 8 + 1
decreasing_by grind

/-- Reads a node after its anchor and tag. Block collections are read in block context only. -/
def content? (handles : List (String × String)) (position : Position) (props : Props)
    (tokens : List Token) : Reading (Node String) tokens :=
  match tokens with
  | .scalar style text :: rest => some ⟨(.scalar props style text, rest), by grind⟩
  | .flowSequenceStart :: rest => do
    let ⟨(items, rest), _⟩ ← flowItems? handles true rest
    some ⟨(.sequence props items, rest), by grind⟩
  | .flowMappingStart :: rest => do
    let ⟨(entries, rest), _⟩ ← flowEntries? handles true rest
    some ⟨(.mapping props entries, rest), by grind⟩
  | .blockSequenceStart :: rest =>
    if position = .flow then bare? props (.blockSequenceStart :: rest)
    else do
      let ⟨(items, rest), _⟩ ← blockItems? handles rest
      some ⟨(.sequence props items, rest), by grind⟩
  | .blockMappingStart :: rest =>
    if position = .flow then bare? props (.blockMappingStart :: rest)
    else do
      let ⟨(entries, rest), _⟩ ← blockEntries? handles rest
      some ⟨(.mapping props entries, rest), by grind⟩
  | .blockEntry :: rest =>
    if position = .blockPart then do
      let ⟨(items, rest), _⟩ ← bareItems? handles rest
      some ⟨(.sequence props items, rest), by grind⟩
    else bare? props (.blockEntry :: rest)
  | tokens => bare? props tokens
termination_by tokens.length * 8
decreasing_by all_goals grind

/-- Reads a node, which is empty before a token of `ends`. -/
def part? (handles : List (String × String)) (position : Position) (ends tokens : List Token) :
    Reading (Node String) tokens :=
  if sees tokens ends then some ⟨(empty {}, tokens), Nat.le_refl _⟩
  else read? handles position tokens
termination_by tokens.length * 8 + 2
decreasing_by grind

/-- Reads the value after a key, which is empty without an indicator. -/
def value? (handles : List (String × String)) (position : Position) (ends tokens : List Token) :
    Reading (Node String) tokens :=
  match tokens with
  | .value :: rest => do
    let ⟨(node, rest), _⟩ ← part? handles position ends rest
    some ⟨(node, rest), by grind⟩
  | tokens => some ⟨(empty {}, tokens), Nat.le_refl _⟩
termination_by tokens.length * 8
decreasing_by grind

/-- Reads the entries of a block sequence and its end. -/
def blockItems? (handles : List (String × String)) (tokens : List Token) :
    Reading (List (Node String)) tokens :=
  match tokens with
  | .blockEntry :: rest => do
    let ⟨(item, rest), _⟩ ← part? handles .block [.blockEntry, .blockEnd] rest
    let ⟨(items, rest), _⟩ ← blockItems? handles rest
    some ⟨(item :: items, rest), by grind⟩
  | .blockEnd :: rest => some ⟨([], rest), by grind⟩
  | _ => none
termination_by tokens.length * 8
decreasing_by all_goals grind

/-- Reads the entries of a sequence without an opening token, after the indicator of the first. They
go on as long as there are any. -/
def bareItems? (handles : List (String × String)) (tokens : List Token) :
    Reading (List (Node String)) tokens := do
  let ⟨(item, after), h⟩ ← part? handles .block [.blockEntry, .key, .value, .blockEnd] tokens
  match after, h with
  | .blockEntry :: rest, _ =>
    let ⟨(items, rest), _⟩ ← bareItems? handles rest
    some ⟨(item :: items, rest), by grind⟩
  | after, _ => some ⟨([item], after), by grind⟩
termination_by tokens.length * 8 + 3
decreasing_by all_goals grind

/-- Reads the keys and values of a block mapping and its end. -/
def blockEntries? (handles : List (String × String)) (tokens : List Token) :
    Reading (List (Node String × Node String)) tokens :=
  match tokens with
  | .key :: rest => do
    let ends := [Token.key, .value, .blockEnd]
    let ⟨(key, rest), _⟩ ← part? handles .blockPart ends rest
    let ⟨(value, rest), _⟩ ← value? handles .blockPart ends rest
    let ⟨(entries, rest), _⟩ ← blockEntries? handles rest
    some ⟨((key, value) :: entries, rest), by grind⟩
  | .blockEnd :: rest => some ⟨([], rest), by grind⟩
  | _ => none
termination_by tokens.length * 8
decreasing_by all_goals grind

/-- Reads the key of a mapping that is an item of a flow sequence. Where the key is empty, the token
after its indicator is passed over. -/
def itemKey? (handles : List (String × String)) (tokens : List Token) :
    Reading (Node String) tokens :=
  if sees tokens [.value, .flowEntry, .flowSequenceEnd] then
    some ⟨(empty {}, tokens.tail), by grind⟩
  else read? handles .flow tokens
termination_by tokens.length * 8 + 2
decreasing_by grind

/-- Reads the items of a flow sequence and its end. An item with a key indicator is a mapping of one
entry. -/
def flowItems? (handles : List (String × String)) (isFirst : Bool) (tokens : List Token) :
    Reading (List (Node String)) tokens :=
  match tokens with
  | .flowSequenceEnd :: rest => some ⟨([], rest), by grind⟩
  | tokens => do
    let ⟨start, h⟩ ← separated? isFirst tokens
    match start, h with
    | .flowSequenceEnd :: rest, _ => some ⟨([], rest), by grind⟩
    | .key :: rest, _ =>
      let ⟨(key, rest), _⟩ ← itemKey? handles rest
      let ⟨(value, rest), _⟩ ← value? handles .flow [.flowEntry, .flowSequenceEnd] rest
      let ⟨(items, rest), _⟩ ← flowItems? handles false rest
      some ⟨(.mapping {} [(key, value)] :: items, rest), by grind⟩
    | start, _ =>
      let ⟨(item, rest), _⟩ ← read? handles .flow start
      let ⟨(items, rest), _⟩ ← flowItems? handles false rest
      some ⟨(item :: items, rest), by grind⟩
termination_by tokens.length * 8 + (if isFirst then 4 else 3)
decreasing_by all_goals grind

/-- Reads the entries of a flow mapping and its end. A key without indicator has an empty value. -/
def flowEntries? (handles : List (String × String)) (isFirst : Bool) (tokens : List Token) :
    Reading (List (Node String × Node String)) tokens :=
  match tokens with
  | .flowMappingEnd :: rest => some ⟨([], rest), by grind⟩
  | tokens => do
    let ⟨start, h⟩ ← separated? isFirst tokens
    match start, h with
    | .flowMappingEnd :: rest, _ => some ⟨([], rest), by grind⟩
    | .key :: rest, _ =>
      let ⟨(key, rest), _⟩ ← part? handles .flow [.value, .flowEntry, .flowMappingEnd] rest
      let ⟨(value, rest), _⟩ ← value? handles .flow [.flowEntry, .flowMappingEnd] rest
      let ⟨(entries, rest), _⟩ ← flowEntries? handles false rest
      some ⟨((key, value) :: entries, rest), by grind⟩
    | start, _ =>
      let ⟨(key, rest), _⟩ ← read? handles .flow start
      let ⟨(entries, rest), _⟩ ← flowEntries? handles false rest
      some ⟨((key, empty {}) :: entries, rest), by grind⟩
termination_by tokens.length * 8 + (if isFirst then 4 else 3)
decreasing_by all_goals grind

end

/-- The tag handles that need no directive. -/
def defaultHandles : List (String × String) := [("!", "!"), ("!!", "tag:yaml.org,2002:")]

/-- Reads the directives before a document: at most one version, 1.1 or 1.2, and each handle once. -/
def directives? (versionSeen : Bool) (handles : List (String × String)) :
    List Token → Option (List (String × String) × List Token)
  | .version major minor :: rest =>
    if versionSeen || major ≠ 1 || (minor ≠ 1 && minor ≠ 2) then none
    else directives? true handles rest
  | .tagDirective handle lead :: rest =>
    if (handles.lookup handle).isSome then none
    else directives? versionSeen (handles ++ [(handle, lead)]) rest
  | tokens => some (handles, tokens)

/-- Whether a token can stand before a document only. -/
def isBeforeDocument : Token → Bool
  | .version _ _ => true
  | .tagDirective _ _ => true
  | .documentStart => true
  | _ => false

/-- The node of the only document; none if there is no document at all. -/
def ofTokens? (tokens : List Token) : Option (Option (Node String)) :=
  match tokens with
  | [] => some none
  | first :: _ =>
    let reading : Option (Node String × List Token) :=
      if isBeforeDocument first then
        match directives? false [] tokens with
        | some (handles, .documentStart :: rest) =>
          if rest = [] || rest.head?.any (fun t => isBeforeDocument t || t = .documentEnd) then
            some (empty {}, rest)
          else (read? (handles ++ defaultHandles) .block rest).map Subtype.val
        | _ => none
      else (read? defaultHandles .block tokens).map Subtype.val
    match reading with
    | some (node, rest) => if rest.all (· = .documentEnd) then some (some node) else none
    | none => none

end Node

end ApiModel.Yaml
