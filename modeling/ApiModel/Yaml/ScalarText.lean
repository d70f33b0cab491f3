import ApiModel.Text.Percent
import ApiModel.Yaml.Cursor
import ApiModel.Yaml.Token

/-!
The texts of scalars in their five styles: which characters belong to one, how line breaks inside it
fold into spaces, and what escapes stand for.
-/

namespace ApiModel.Yaml

/-- Blanks and line breaks between the words of a scalar. -/
structure Gap where
  /-- The blanks before the first line break. -/
  blanks : List Char := []
  /-- The first line break. -/
  first : List Char := []
  /-- The line breaks after it. -/
  others : List Char := []
  /-- Whether there is a line break. -/
  broken : Bool := false

/-- What a gap counts for between two words: its blanks, one space for a line break, or the line
breaks after the first. -/
def Gap.text (gap : Gap) : List Char :=
  if !gap.broken then gap.blanks
  else if gap.first.head? = some '\n' then
    if gap.others = [] then [' '] else gap.others
  else gap.first ++ gap.others

/-- Reads a gap. After a line break no tab may stand left of the column `limit`. -/
def Cursor.gap? (here : Cursor) (limit : Int) (gap : Gap) : Option (Gap × Cursor) :=
  here.repeat? gap fun gap here =>
    match here.peek? with
    | none => some (.done (gap, here))
    | some c =>
      if isBlank c then
        if gap.broken && here.column < limit && c = '\t' then none
        else if gap.broken then some (.more gap (here.skip 1))
        else some (.more { gap with blanks := gap.blanks ++ [c] } (here.skip 1))
      else if isBreak c then
        let (text, next) := here.lineBreak
        if gap.broken then some (.more { gap with others := gap.others ++ text } next)
        else some (.more { gap with blanks := [], first := text, broken := true } next)
      else some (.done (gap, here))

/-- Whether a character opens, closes or separates flow collections. -/
def isFlowIndicator (c : Char) : Bool := c ∈ [',', '[', ']', '\x7b', '\x7d']

/-- Reads the characters of one word of a plain scalar, in reverse. In a flow collection no colon may
touch an indicator. -/
def Cursor.plainWord? (here : Cursor) (inFlow : Bool) (word : List Char) :
    Option (List Char × Cursor) :=
  here.repeat? word fun word here =>
    match here.peek? with
    | none => some (.done (word, here))
    | some c =>
      if here.gapAt 0 then some (.done (word, here))
      else if inFlow && c = ':' && (here.peekAt? 1).any (fun d => isFlowIndicator d || d = '?') then
        none
      else if (c = ':' && here.gapAt 1) || (inFlow && isFlowIndicator c) then
        some (.done (word, here))
      else some (.more (c :: word) (here.skip 1))

/-- Reads a plain scalar. The last part of the result tells whether a line break follows it. -/
def Cursor.plainScalar? (here : Cursor) (inFlow : Bool) (indent : Int) :
    Option (List Char × Cursor × Bool) :=
  here.repeat? (([] : List Char), ({} : Gap)) fun (text, gap) here =>
    let ended := some (.done (text.reverse, here, gap.broken))
    if here.atDocumentMark || here.sees '#' then ended
    else
      (here.plainWord? inFlow []).bind fun (word, after) =>
        let (text, gap) :=
          if word = [] then (text, gap) else (word ++ gap.text.reverse ++ text, ({} : Gap))
        let ended := some (Next.done (text.reverse, after, gap.broken))
        match after.peek? with
        | none => ended
        | some c =>
          if !isBlank c && !isBreak c then ended
          else
            (after.gap? indent gap).bind fun (gap, next) =>
              if !inFlow && next.column < indent then
                some (.done (text.reverse, next, gap.broken))
              else some (.more (text, gap) next)

/-- The number of digits an escape takes, by its letter. -/
def codeLength? : Char → Option Nat
  | 'x' => some 2
  | 'u' => some 4
  | 'U' => some 8
  | _ => none

/-- The character of an escape without digits. -/
def escaped? : Char → Option Char
  | '0' => some '\x00'
  | 'a' => some '\x07'
  | 'b' => some '\x08'
  | 't' => some '\t'
  | '\t' => some '\t'
  | 'n' => some '\n'
  | 'v' => some '\x0b'
  | 'f' => some '\x0c'
  | 'r' => some '\x0d'
  | 'e' => some '\x1b'
  | ' ' => some ' '
  | '"' => some '"'
  | '/' => some '/'
  | '\\' => some '\\'
  | 'N' => some '\u0085'
  | '_' => some '\u00a0'
  | 'L' => some '\u2028'
  | 'P' => some '\u2029'
  | _ => none

/-- Reads an escape after its backslash. -/
def Cursor.escape? (here : Cursor) : Option (Char × Cursor) :=
  here.peek?.bind fun letter =>
    match codeLength? letter with
    | none => (escaped? letter).map fun c => (c, here.skip 1)
    | some length =>
      let digits := (here.rest.drop 1).take length
      if digits.length < length then none
      else
        (digits.mapM Text.Percent.hexValue?).bind fun values =>
          let code := values.foldl (fun n d => n * 16 + d) 0
          if h : code.isValidChar then
            some (Char.ofNatAux code h, here.skip (1 + length))
          else none

/-- Reads the characters of one word of a quoted scalar, in reverse. The last part of the result
tells whether an escaped line break ended it. -/
def Cursor.quotedWord? (here : Cursor) (quote : Char) (word : List Char) :
    Option (List Char × Cursor × Bool) :=
  here.repeat? word fun word here =>
    match here.peek? with
    | none => some (.done (word, here, false))
    | some c =>
      if here.gapAt 0 then some (.done (word, here, false))
      else if c = quote then
        if quote = '\'' && here.peekAt? 1 = some '\'' then some (.more ('\'' :: word) (here.skip 2))
        else some (.done (word, here, false))
      else if quote = '"' && c = '\\' then
        if (here.peekAt? 1).any isBreak then
          some (.done (word, (here.skip 1).lineBreak.2, true))
        else (here.skip 1).escape?.map fun (c, next) => .more (c :: word) next
      else some (.more (c :: word) (here.skip 1))

/-- Reads a quoted scalar after its opening quote. -/
def Cursor.quotedScalar? (here : Cursor) (quote : Char) : Option (List Char × Cursor) :=
  here.repeat? ([] : List Char) fun text here =>
    if here.atDocumentMark || here.rest = [] then none
    else
      (here.quotedWord? quote []).bind fun (word, after, escapedBreak) =>
        let text := word ++ text
        if after.sees quote then some (.done (text.reverse, after.skip 1))
        else
          (after.gap? 0 { broken := escapedBreak }).map fun (gap, next) =>
            .more (gap.text.reverse ++ text) next

/-- What is done with the line breaks at the end of a block scalar. -/
inductive Chomping where
  | strip
  | clip
  | keep
  deriving DecidableEq

/-- Reads the indicators after `|` or `>`: how to chomp, and the indentation if it is given. -/
def Cursor.blockHeader? (here : Cursor) : Option (Chomping × Nat × Cursor) :=
  let chomping? := fun (here : Cursor) =>
    if here.sees '+' then some Chomping.keep else if here.sees '-' then some .strip else none
  let digit? := fun (here : Cursor) =>
    (here.peek?.filter Char.isDigit).map fun c => c.toNat - 48
  match chomping? here with
  | some chomping =>
    match digit? (here.skip 1) with
    | some 0 => none
    | some n => some (chomping, n, here.skip 2)
    | none => some (chomping, 0, here.skip 1)
  | none =>
    match digit? here with
    | some 0 => none
    | some n =>
      match chomping? (here.skip 1) with
      | some chomping => some (chomping, n, here.skip 2)
      | none => some (.clip, n, here.skip 1)
    | none => some (.clip, 0, here)

/-- Reads indentation and empty lines before a line of a block scalar: the line breaks, and the
largest column met. An indentation of zero is not known yet. -/
def Cursor.blockBreaks? (here : Cursor) (indent : Nat) : Option (List Char × Nat × Cursor) :=
  here.repeat? (([] : List Char), 0) fun (breaks, widest) here =>
    let room := fun (c : Cursor) => indent = 0 || c.column < indent
    let spaces := (here.rest.takeWhile (· = ' ')).length
    let after :=
      here.skip (if indent = 0 then spaces else min spaces (indent - here.column))
    let widest := max widest after.column
    if room after && after.sees '\t' then none
    else
      match after.peek? with
      | some c =>
        if isBreak c then
          let (text, next) := after.lineBreak
          some (.more (breaks ++ text, widest) next)
        else some (.done (breaks, widest, after))
      | none => some (.done (breaks, widest, after))

/-- What has been read of a block scalar. -/
structure BlockText where
  /-- The text, in reverse. -/
  text : List Char := []
  /-- The line break after the last line. -/
  first : List Char := []
  /-- The line breaks after that one. -/
  others : List Char := []
  /-- Whether the last line starts with a blank. -/
  blankLine : Bool := false

/-- The text with the line breaks that come before another line. In a folded scalar a single line
break between lines that start with no blank is a space. -/
def BlockText.joined (block : BlockText) (folds startsBlank : Bool) : List Char :=
  let first :=
    if folds && block.first.head? = some '\n' && !block.blankLine && !startsBlank then
      if block.others = [] then [' '] else []
    else block.first
  block.others.reverse ++ first.reverse ++ block.text

/-- Reads a block scalar after its first indicator. `parent` is the indentation around it. -/
def Cursor.blockScalar? (here : Cursor) (folds : Bool) (parent : Int) :
    Option (List Char × Cursor) := do
  let (chomping, given, here) ← here.blockHeader?
  let here ← here.endLine?
  let base := parent.toNat
  let (breaks, widest, here) ← here.blockBreaks? (if given = 0 then 0 else base + given)
  let indent := if given = 0 then max widest (max (parent + 1).toNat 1) else base + given
  let (block, here) ← here.repeat? ({ others := breaks } : BlockText) fun block here =>
    if here.column ≠ indent || here.rest = [] then some (.done (block, here))
    else
      let startsBlank := here.peek?.any isBlank
      let (line, after) := here.span (!isBreak ·)
      let (first, next) := after.lineBreak
      (next.blockBreaks? indent).map fun (others, _, next) =>
        .more
          { text := line.reverse ++ block.joined folds startsBlank
            first, others, blankLine := startsBlank } next
  let text := block.text.reverse
  some (match chomping with
    | .strip => text
    | .clip => text ++ block.first
    | .keep => text ++ block.first ++ block.others, here)

end ApiModel.Yaml
