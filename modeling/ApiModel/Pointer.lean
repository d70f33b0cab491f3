import ApiModel.Document
import ApiModel.Text.Percent
import ApiModel.Text.Words

/-!
JSON pointers inside documents. A key is written as a segment by percent-coding what is no plain
ASCII and then writing `~` as `~0` and `/` as `~1`; reading a segment undoes both in turn.
-/

namespace ApiModel.Pointer

/-- Whether a character stands for itself in a segment, tilde and slash apart. -/
def isPlain (c : Char) : Bool := ' ' ≤ c && c ≤ '~' && c ≠ '%'

/-- Writes `~` as `~0` and `/` as `~1`. -/
def escapeTildes : List Char → List Char
  | [] => []
  | c :: rest =>
    (if c = '~' then ['~', '0'] else if c = '/' then ['~', '1'] else [c]) ++ escapeTildes rest

/-- Reads `~1` as `/` and `~0` as `~`; any other tilde stands for itself. -/
def unescapeTildes : List Char → List Char
  | '~' :: '1' :: rest => '/' :: unescapeTildes rest
  | '~' :: '0' :: rest => '~' :: unescapeTildes rest
  | c :: rest => c :: unescapeTildes rest
  | [] => []

/-- The segment for a key. -/
def escape (key : String) : String :=
  String.ofList (escapeTildes (Text.Percent.encode isPlain key.toList))

/-- The key a segment stands for. -/
def unescape (segment : List Char) : String :=
  String.ofList (Text.Percent.decode (unescapeTildes segment))

/-- The value of decimal digits. -/
def decimal (digits : List Char) : Nat :=
  digits.foldl (fun value digit => value * 10 + (digit.toNat - 48)) 0

/-- The array position a key stands for: an optional plus sign and decimal digits, below 2^64. -/
def index? (key : String) : Option Nat :=
  let digits :=
    match key.toList with
    | '+' :: rest => rest
    | chars => chars
  if digits ≠ [] && digits.all Char.isDigit && decimal digits < Nat.pow 2 64 then some (decimal digits)
  else none

/-- The part of a value under one key. -/
def step? (node : Document) (key : String) : Option Document :=
  match node with
  | .map _ => node.get? key
  | .list items => (index? key).bind (items[·]?)
  | _ => none

/-- The value at the end of a path of keys. -/
def walk? (node : Document) : List String → Option Document
  | [] => some node
  | key :: rest => (step? node key).bind (walk? · rest)

/-- The keys of a pointer that is neither empty nor a single slash. Slashes at its start count as
one. -/
def keys (pointer : List Char) : List String :=
  (Text.splitWhere (· = '/') (pointer.dropWhile (· = '/'))).map unescape

/-- The value a pointer leads to. An empty pointer and a single slash lead to the root. -/
def find? (root : Document) (pointer : String) : Option Document :=
  match pointer.toList with
  | [] => some root
  | ['/'] => some root
  | '/' :: rest => walk? root (keys rest)
  | _ => none

end ApiModel.Pointer
