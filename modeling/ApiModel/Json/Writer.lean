import ApiModel.Decimal.Shortest
import ApiModel.Document

/-!
Writing JSON: on one line without blanks, or with one entry a line and two blanks a level. Strings
escape quotes, backslashes and control characters and hold everything else as it is.
-/

namespace ApiModel.Json

/-- How a value is laid out. -/
inductive Layout where
  | compact
  | pretty
  deriving DecidableEq

/-- A lower-case hexadecimal digit. -/
def lowerHex (n : Nat) : Char := if n < 10 then Char.ofNat (48 + n) else Char.ofNat (87 + n)

/-- A character inside a string. -/
def escapeChar (c : Char) : String :=
  match c with
  | '"' => "\\\""
  | '\\' => "\\\\"
  | '\x08' => "\\b"
  | '\x0c' => "\\f"
  | '\n' => "\\n"
  | '\x0d' => "\\r"
  | '\t' => "\\t"
  | c =>
    if c < ' ' then
      "\\u00" ++ String.ofList [lowerHex (c.toNat / 16), lowerHex (c.toNat % 16)]
    else String.singleton c

/-- A string in quotes. -/
def quote (text : String) : String :=
  text.foldl (fun written c => written ++ escapeChar c) "\"" ++ "\""

/-- The start of a line at a depth; nothing in compact layout. -/
def Layout.line (layout : Layout) (depth : Nat) : String :=
  match layout with
  | .compact => ""
  | .pretty => "\n" ++ String.ofList (List.replicate (2 * depth) ' ')

/-- What stands between a key and its value. -/
def Layout.colon : Layout → String
  | .compact => ":"
  | .pretty => ": "

mutual

/-- Writes a value that stands at a depth. -/
def write (layout : Layout) (depth : Nat) : Document → String
  | .null => "null"
  | .bool value => if value then "true" else "false"
  | .int value => toString value
  | .float bits => Decimal.floatText bits
  | .string text => quote text
  | .list [] => "[]"
  | .list (item :: items) =>
    "[" ++ layout.line (depth + 1) ++ write layout (depth + 1) item ++
      writeItems layout depth items ++ layout.line depth ++ "]"
  | .map [] => "\x7b\x7d"
  | .map ((key, value) :: entries) =>
    "\x7b" ++ layout.line (depth + 1) ++ quote key ++ layout.colon ++
      write layout (depth + 1) value ++ writeEntries layout depth entries ++
      layout.line depth ++ "\x7d"

/-- Writes the items after the first. -/
def writeItems (layout : Layout) (depth : Nat) : List Document → String
  | [] => ""
  | item :: items =>
    "," ++ layout.line (depth + 1) ++ write layout (depth + 1) item ++
      writeItems layout depth items

/-- Writes the entries after the first. -/
def writeEntries (layout : Layout) (depth : Nat) : List (String × Document) → String
  | [] => ""
  | (key, value) :: entries =>
    "," ++ layout.line (depth + 1) ++ quote key ++ layout.colon ++
      write layout (depth + 1) value ++ writeEntries layout depth entries

end

/-- The text of a value. -/
def render (layout : Layout) (value : Document) : String := write layout 0 value

end ApiModel.Json
