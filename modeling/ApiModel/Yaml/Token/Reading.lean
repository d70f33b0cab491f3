import ApiModel.Yaml.ScalarText
import ApiModel.Yaml.TagText

/-!
Tokens of a YAML text. A place where a simple key may begin is remembered until a colon shows that
it was one; its token then goes in front of what has been read since.
-/

namespace ApiModel.Yaml

/-- A place where a simple key may begin. -/
structure SimpleKey where
  /-- Whether nothing but a key can stand there. -/
  required : Bool
  /-- The number of tokens before it. -/
  position : Nat
  place : Cursor

/-- What is known between two tokens. -/
structure TokenState where
  /-- The tokens so far, in reverse. -/
  tokens : List Token := []
  count : Nat := 0
  /-- The column of the innermost block collection, -1 outside of all. -/
  indent : Int := -1
  /-- The columns around it. -/
  outer : List Int := []
  /-- Whether a simple key may begin here. -/
  keyAllowed : Bool := true
  /-- A possible key for each open flow collection, the innermost first. -/
  flowKeys : List (Option SimpleKey) := []
  /-- The possible key of the block context. -/
  blockKey : Option SimpleKey := none

namespace TokenState

/-- Whether a flow collection is open. -/
def inFlow (s : TokenState) : Bool := !s.flowKeys.isEmpty

/-- The possible key of the current context. -/
def currentKey (s : TokenState) : Option SimpleKey :=
  match s.flowKeys with
  | [] => s.blockKey
  | key :: _ => key

/-- Replaces the possible key of the current context. -/
def setKey (s : TokenState) (key : Option SimpleKey) : TokenState :=
  match s.flowKeys with
  | [] => { s with blockKey := key }
  | _ :: keys => { s with flowKeys := key :: keys }

/-- Adds a token. -/
def emit (s : TokenState) (token : Token) : TokenState :=
  { s with tokens := token :: s.tokens, count := s.count + 1 }

/-- Puts a token behind the first `position` ones. -/
def insert (s : TokenState) (position : Nat) (token : Token) : TokenState :=
  let late := s.count - position
  { s with
    tokens := s.tokens.take late ++ token :: s.tokens.drop late
    count := s.count + 1 }

/-- Whether a possible key can no longer be one: a key ends on its line and within 1024 characters. -/
def isExpired (here : Cursor) (key : SimpleKey) : Bool :=
  key.place.line < here.line || here.left + 1024 < key.place.left

/-- Forgets the keys that can no longer be one. It is an error if one of them had to be. -/
def dropExpired? (s : TokenState) (here : Cursor) : Option TokenState :=
  let expired := fun key : Option SimpleKey => key.any (isExpired here)
  let lost := fun key : Option SimpleKey => expired key && key.any (·.required)
  if lost s.blockKey || s.flowKeys.any lost then none
  else
    some
      { s with
        blockKey := if expired s.blockKey then none else s.blockKey
        flowKeys := s.flowKeys.map fun key => if expired key then none else key }

/-- Forgets the possible key of the current context. It is an error if it had to be one. -/
def forgetKey? (s : TokenState) : Option TokenState :=
  if s.currentKey.any (·.required) then none else some (s.setKey none)

/-- Remembers that a key may begin here. -/
def rememberKey? (s : TokenState) (here : Cursor) : Option TokenState :=
  if !s.keyAllowed then some s
  else
    let required := !s.inFlow && s.indent = here.column
    s.forgetKey?.map fun s => s.setKey (some { required, position := s.count, place := here })

/-- Opens a block collection at a column right of the current one; its token goes behind the first
`position` ones. -/
def openBlock (s : TokenState) (column position : Nat) (token : Token) : TokenState :=
  if s.inFlow || column ≤ s.indent then s
  else { s with indent := column, outer := s.indent :: s.outer }.insert position token

/-- Closes the block collections right of a column; `columns` are the open ones. -/
def closeBlocks (s : TokenState) (column : Int) : List Int → TokenState
  | [] => s
  | next :: columns =>
    if column < s.indent then
      closeBlocks { s.emit .blockEnd with indent := next, outer := columns } column columns
    else s

/-- Closes the block collections right of a column, if no flow collection is open. -/
def closeDeeper (s : TokenState) (column : Int) : TokenState :=
  if s.inFlow then s else s.closeBlocks column s.outer

/-- Passes over blanks, comments and line breaks. A line break in block context allows a key. -/
def skipGap? (s : TokenState) (here : Cursor) : Option (TokenState × Cursor) :=
  here.repeat? s fun s here =>
    let start := if here.column = 0 && here.sees '\ufeff' then here.skip 1 else here
    let after :=
      (start.skipWhile fun c => c = ' ' || (c = '\t' && (s.inFlow || !s.keyAllowed))).skipComment
    if after.peek?.any isBreak then
      some (.more (if s.inFlow then s else { s with keyAllowed := true }) after.lineBreak.2)
    else some (.done (s, after))

/-- Ends block context before a directive or the mark of a document. -/
def endDocument? (s : TokenState) : Option TokenState :=
  (s.closeDeeper (-1)).forgetKey?.map fun s => { s with keyAllowed := false }

/-- Opens a flow collection. -/
def openFlow? (s : TokenState) (here : Cursor) (token : Token) : Option TokenState :=
  (s.rememberKey? here).map fun s =>
    { s with flowKeys := none :: s.flowKeys, keyAllowed := true }.emit token

/-- Closes a flow collection. -/
def closeFlow? (s : TokenState) (token : Token) : Option TokenState :=
  s.forgetKey?.map fun s =>
    { s with flowKeys := s.flowKeys.drop 1, keyAllowed := false }.emit token

/-- An entry of a block sequence or a key with its own indicator. -/
def blockIndicator? (s : TokenState) (here : Cursor) (start token : Token) (keyAllowed : Bool) :
    Option TokenState :=
  if !s.inFlow && !s.keyAllowed then none
  else
    (s.openBlock here.column s.count start).forgetKey?.map fun s =>
      { s with keyAllowed := keyAllowed }.emit token

/-- A colon that ends a key. -/
def valueIndicator? (s : TokenState) (here : Cursor) : Option TokenState :=
  match s.currentKey with
  | some key =>
    let s := s.insert key.position .key
    let s := s.openBlock key.place.column key.position .blockMappingStart
    some ({ s.setKey none with keyAllowed := false }.emit .value)
  | none =>
    if !s.inFlow && !s.keyAllowed then none
    else
      let s := s.openBlock here.column s.count .blockMappingStart
      some ({ s with keyAllowed := !s.inFlow }.emit .value)

/-- A scalar, alias, anchor or tag that has been read up to `after`. -/
def content? (s : TokenState) (here : Cursor) (read : Option (Token × Cursor)) :
    Option (TokenState × Cursor) := do
  let s ← s.rememberKey? here
  let (token, after) ← read
  some ({ s with keyAllowed := false }.emit token, after)

/-- Reads a plain scalar. A line break after it allows a key. -/
def plain? (s : TokenState) (here : Cursor) : Option (TokenState × Cursor) := do
  let s ← s.rememberKey? here
  let (text, after, broken) ← here.plainScalar? s.inFlow (s.indent + 1)
  some ({ s with keyAllowed := broken }.emit (.scalar .plain (String.ofList text)), after)

/-- Reads a block scalar. -/
def block? (s : TokenState) (here : Cursor) (style : Style) : Option (TokenState × Cursor) := do
  let s ← s.forgetKey?
  let (text, after) ← (here.skip 1).blockScalar? (style = .folded) s.indent
  some ({ s with keyAllowed := true }.emit (.scalar style (String.ofList text)), after)

/-- Whether a plain scalar may begin with the character here. -/
def startsPlain (s : TokenState) (here : Cursor) (c : Char) : Bool :=
  if c = '-' then !(here.peekAt? 1).any isBlank
  else if c = '?' || c = ':' then !s.inFlow && !here.gapAt 1
  else
    !here.gapAt 0 &&
      c ∉ [',', '[', ']', '\x7b', '\x7d', '#', '&', '*', '!', '|', '>', '\'', '"', '%', '@',
        '\x60']

/-- Reads the next token, where `c` is the next character. -/
def token? (s : TokenState) (here : Cursor) (c : Char) : Option (TokenState × Cursor) :=
  let passing := fun (s : Option TokenState) => s.map fun s => (s, here.skip 1)
  let flowOrGap := s.inFlow || here.gapAt 1
  if here.column = 0 && c = '%' then do
    let s ← s.endDocument?
    let (token, after) ← here.directive?
    some (s.emit token, after)
  else if here.atDocumentMark then
    s.endDocument?.map fun s =>
      (s.emit (if c = '-' then .documentStart else .documentEnd), here.skip 3)
  else if c = '[' then passing (s.openFlow? here .flowSequenceStart)
  else if c = '\x7b' then passing (s.openFlow? here .flowMappingStart)
  else if c = ']' then passing (s.closeFlow? .flowSequenceEnd)
  else if c = '\x7d' then passing (s.closeFlow? .flowMappingEnd)
  else if c = ',' then
    passing (s.forgetKey?.map fun s => { s with keyAllowed := true }.emit .flowEntry)
  else if c = '-' && here.gapAt 1 then
    passing (s.blockIndicator? here .blockSequenceStart .blockEntry true)
  else if c = '?' && flowOrGap then
    passing (s.blockIndicator? here .blockMappingStart .key (!s.inFlow))
  else if c = ':' && flowOrGap then passing (s.valueIndicator? here)
  else if c = '*' then
    s.content? here ((here.skip 1).anchorName?.map fun (name, after) => (.alias name, after))
  else if c = '&' then
    s.content? here ((here.skip 1).anchorName?.map fun (name, after) => (.anchor name, after))
  else if c = '!' then s.content? here (here.tag? s.inFlow)
  else if c = '|' && !s.inFlow then s.block? here .literal
  else if c = '>' && !s.inFlow then s.block? here .folded
  else if c = '\'' || c = '"' then
    let style := if c = '"' then Style.doubleQuoted else .singleQuoted
    s.content? here (((here.skip 1).quotedScalar? c).map fun (text, after) =>
      (.scalar style (String.ofList text), after))
  else if s.startsPlain here c then s.plain? here
  else none

/-- Closes what is open at the end of the text. -/
def finish? (s : TokenState) : Option (List Token) :=
  (s.closeDeeper (-1)).forgetKey?.map fun s => s.tokens.reverse

/-- Reads up to and with the next token, or to the end. -/
def step? (s : TokenState) (here : Cursor) : Option (Next TokenState (List Token)) := do
  let (s, here) ← s.skipGap? here
  let s ← s.dropExpired? here
  let s := s.closeDeeper here.column
  match here.peek? with
  | none => s.finish?.map .done
  | some c => (s.token? here c).map fun (s, after) => .more s after

end TokenState

/-- Whether a character may stand in a YAML text. -/
def isAllowed (c : Char) : Bool :=
  c ∈ ['\t', '\n', '\x0d', '\u0085'] || (' ' ≤ c && c ≤ '~') ||
    ('\u00a0' ≤ c && c ≤ '\ufffd') || 0x10000 ≤ c.toNat

/-- The tokens of a text. -/
def tokens? (text : String) : Option (List Token) :=
  let start : Cursor := { rest := text.toList }
  if start.rest.all isAllowed then start.repeat? ({} : TokenState) TokenState.step? else none

end ApiModel.Yaml
