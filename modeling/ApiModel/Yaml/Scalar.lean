import ApiModel.Decimal.Reading
import ApiModel.Document
import ApiModel.Text.Percent
import ApiModel.Yaml.Node

/-!
What plain scalars stand for: null, truth values, integers in four bases, and numbers with a point
or an exponent. Everything else is a text.
-/

namespace ApiModel.Yaml

/-- Whether a text stands for null. -/
def isNull (text : String) : Bool := text ∈ ["null", "Null", "NULL", "~"]

/-- The truth value a text stands for. -/
def bool? (text : String) : Option Bool :=
  if text ∈ ["true", "True", "TRUE"] then some true
  else if text ∈ ["false", "False", "FALSE"] then some false
  else none

/-- The number that digits of a base stand for. -/
def digits? (base : Nat) (chars : List Char) : Option Nat :=
  if chars = [] then none
  else
    (chars.mapM Text.Percent.hexValue?).bind fun values =>
      if values.all (· < base) then some (values.foldl (fun n d => n * base + d) 0) else none

/-- Whether a text is a sign, a zero and at least one more digit, which makes it no number. -/
def hasLeadingZero (chars : List Char) : Bool :=
  let unsigned :=
    match chars with
    | '-' :: rest => rest
    | '+' :: rest => rest
    | chars => chars
  match unsigned with
  | '0' :: d :: rest => (d :: rest).all Char.isDigit
  | _ => false

/-- The magnitude of an integer in base 16, 8, 2 or 10, without its sign. -/
def magnitude? : List Char → Option Nat
  | '0' :: 'x' :: rest => digits? 16 rest
  | '0' :: 'o' :: rest => digits? 8 rest
  | '0' :: 'b' :: rest => digits? 2 rest
  | chars => digits? 10 chars

/-- The integer a text stands for, of any size. -/
def integer? (chars : List Char) : Option Int :=
  if hasLeadingZero chars then none
  else
    match chars with
    | '-' :: rest => (magnitude? rest).map fun n => -(n : Int)
    | '+' :: rest => (magnitude? rest).map Int.ofNat
    | _ => (magnitude? chars).map Int.ofNat

/-- The number a text of digits, a point and an exponent stands for, without its sign. -/
def decimal? (chars : List Char) : Option Float :=
  let whole := chars.takeWhile Char.isDigit
  let afterWhole := chars.dropWhile Char.isDigit
  let (places, afterPlaces) :=
    match afterWhole with
    | '.' :: rest => (rest.takeWhile Char.isDigit, rest.dropWhile Char.isDigit)
    | rest => ([], rest)
  let exponent : Option Int :=
    match afterPlaces with
    | [] => some 0
    | c :: rest =>
      if c = 'e' || c = 'E' then
        match rest with
        | '-' :: digits => (digits? 10 digits).map fun n => -(n : Int)
        | '+' :: digits => (digits? 10 digits).map Int.ofNat
        | digits => (digits? 10 digits).map Int.ofNat
      else none
  (digits? 10 (whole ++ places)).bind fun significand =>
    exponent.map fun exponent => Decimal.nearest significand (exponent - places.length)

/-- The number a text stands for: finite, or one of the words for infinity and for no number, which
give null. -/
def float? (text : String) : Option Document :=
  if text ∈ [".inf", ".Inf", ".INF", "+.inf", "+.Inf", "+.INF", "-.inf", "-.Inf", "-.INF",
      ".nan", ".NaN", ".NAN"] then
    some .null
  else
    let (negative, chars) : Bool × List Char :=
      match text.toList with
      | '-' :: rest => (true, rest)
      | '+' :: rest => (false, rest)
      | chars => (false, chars)
    (decimal? chars).bind fun value =>
      if value.isFinite then some (.float (Decimal.signed negative value).toBits) else none

/-- The value of an integer: none if it needs more than 64 bits. -/
def ofInteger? (n : Int) : Option Document :=
  if -Int.pow 2 63 ≤ n && n < Int.pow 2 64 then some (.int n) else none

/-- Whether an integer can be held in 128 bits. -/
def fits128 (n : Int) : Bool := -Int.pow 2 127 ≤ n && n < Int.pow 2 128

/-- The value of a plain scalar; none for an integer between 64 and 128 bits. -/
def plainValue? (text : String) : Option Document :=
  if text.isEmpty || isNull text then some .null
  else
    match bool? text with
    | some value => some (.bool value)
    | none =>
      match (integer? text.toList).filter fits128 with
      | some n => ofInteger? n
      | none =>
        if hasLeadingZero text.toList then some (.string text)
        else some ((float? text).getD (.string text))

/-- The value of a scalar. Four tags of the core schema force a kind, one that begins with a mark of
its own is an error, and any other tag makes the scalar a text. -/
def scalarValue? (props : Props) (style : Style) (text : String) : Option Document :=
  match props.tag with
  | none => if style = .plain then plainValue? text else some (.string text)
  | some tag =>
    if tag.startsWith "!" then none
    else if tag = "tag:yaml.org,2002:bool" then (bool? text).map .bool
    else if tag = "tag:yaml.org,2002:int" then (integer? text.toList).bind ofInteger?
    else if tag = "tag:yaml.org,2002:float" then float? text
    else if tag = "tag:yaml.org,2002:null" then if isNull text then some .null else none
    else some (.string text)

end ApiModel.Yaml
