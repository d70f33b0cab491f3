import ApiModel.Text.Percent
import ApiModel.Text.Words

/-!
Hosts of URLs: domain names, addresses of version 4 and 6, and the hosts of schemes that give their
hosts no meaning.
-/

namespace ApiModel.Url

/-- A host. -/
inductive Host where
  /-- A name; the empty one stands in `x:///path`. -/
  | name (text : String)
  | ipv4 (address : Nat)
  /-- The eight groups of an address. -/
  | ipv6 (groups : List Nat)
  deriving DecidableEq

namespace Host

/-- The value of digits in a base of at most sixteen. -/
def digitsValue (base : Nat) (digits : List Char) : Nat :=
  digits.foldl (fun value digit => value * base + (Text.Percent.hexValue? digit).getD 0) 0

/-- Lower-case hexadecimal digits of a number. -/
def hexText (n : Nat) : String := String.ofList (Nat.toDigits 16 n)

/-- The base a number of a version 4 address is written in, and its digits. -/
def ipv4Digits : List Char → Nat × List Char
  | '0' :: 'x' :: rest => (16, rest)
  | '0' :: 'X' :: rest => (16, rest)
  | '0' :: d :: rest => (8, d :: rest)
  | digits => (10, digits)

/-- Whether every digit has a value below the base. -/
def allBelow (base : Nat) (digits : List Char) : Bool :=
  digits.all fun digit => (Text.Percent.hexValue? digit).any (· < base)

/-- A number of a version 4 address, of any size. -/
def ipv4Number? (text : List Char) : Option Nat :=
  let (base, digits) := ipv4Digits text
  if text = [] || !allBelow base digits then none else some (digitsValue base digits)

/-- The labels of a name; a dot at its end begins no label. -/
def labels (chars : List Char) : List (List Char) :=
  match (Text.splitWhere (· = '.') chars).reverse with
  | [] :: last :: rest => (last :: rest).reverse
  | reversed => reversed.reverse

/-- Whether a name has to be an address, by its last label. -/
def endsInNumber (chars : List Char) : Bool :=
  match (labels chars).getLast? with
  | none => false
  | some last => last ≠ [] && (last.all Char.isDigit || (ipv4Number? last).isSome)

/-- The address of up to four numbers: the last one fills the bytes that remain. -/
def ipv4OfNumbers? (numbers : List Nat) : Option Nat :=
  match numbers.reverse with
  | [] => none
  | last :: reversed =>
    if numbers.length ≤ 4 && last < Nat.pow 256 (5 - numbers.length) && reversed.all (· < 256) then
      some (reversed.reverse.foldr (fun n value => n * Nat.pow 256 3 + value / 256) 0 + last)
    else none

/-- Reads a version 4 address. -/
def ipv4? (chars : List Char) : Option Host :=
  ((labels chars).mapM ipv4Number?).bind fun numbers => (ipv4OfNumbers? numbers).map .ipv4

/-- One byte of a version 4 address inside a version 6 address: no leading zeros. -/
def ipv4Byte? (digits : List Char) : Option Nat :=
  let value := digitsValue 10 digits
  if digits ≠ [] && digits.all Char.isDigit && value < 256 &&
      (digits.length = 1 || digits.head? ≠ some '0') then
    some value
  else none

/-- One group of hexadecimal digits. -/
def ipv6Group? (digits : List Char) : Option Nat :=
  if digits ≠ [] && digits.length ≤ 4 && allBelow 16 digits then some (digitsValue 16 digits)
  else none

/-- Groups between colons; the last may be a version 4 address that stands for two. -/
def ipv6Groups? : List (List Char) → Option (List Nat)
  | [] => some []
  | [last] =>
    if '.' ∈ last then
      match (Text.splitWhere (· = '.') last).mapM ipv4Byte? with
      | some [a, b, c, d] => some [a * 256 + b, c * 256 + d]
      | _ => none
    else (ipv6Group? last).map ([·])
  | group :: rest => (ipv6Group? group).bind fun n => (ipv6Groups? rest).map (n :: ·)

/-- The texts before and after the first double colon. -/
def splitDoubleColon : List Char → Option (List Char × List Char)
  | [] => none
  | [_] => none
  | c :: d :: rest =>
    if c = ':' && d = ':' then some ([], rest)
    else (splitDoubleColon (d :: rest)).map fun (before, after) => (c :: before, after)

/-- The groups of a side of a double colon, which may be empty. -/
def ipv6Side? (chars : List Char) : Option (List Nat) :=
  if chars = [] then some [] else ipv6Groups? (Text.splitWhere (· = ':') chars)

/-- Reads a version 6 address. A double colon stands for at least one group of zeros. -/
def ipv6? (chars : List Char) : Option Host :=
  match splitDoubleColon chars with
  | none =>
    (ipv6Groups? (Text.splitWhere (· = ':') chars)).bind fun groups =>
      if groups.length = 8 then some (.ipv6 groups) else none
  | some (before, after) =>
    if '.' ∈ before then none
    else
      (ipv6Side? before).bind fun left =>
        (ipv6Side? after).bind fun right =>
          if left.length + right.length ≤ 7 then
            some (.ipv6 (left ++ List.replicate (8 - left.length - right.length) 0 ++ right))
          else none

/-- Whether a character may not stand in any host. -/
def isForbidden (c : Char) : Bool :=
  c ∈ ['\x00', '\t', '\n', '\x0d', ' ', '#', '/', ':', '<', '>', '?', '@', '[', '\\', ']', '^', '|']

/-- Whether a character may not stand in a domain name. -/
def isForbiddenInName (c : Char) : Bool := isForbidden c || c ≤ ' ' || c = '%' || c = '\x7f'

/-! Labels with characters beyond ASCII are written in the coding of RFC 3492. -/

/-- The digit for a value below 36. -/
def codeDigit (n : Nat) : Char := if n < 26 then Char.ofNat (97 + n) else Char.ofNat (22 + n)

/-- The bias after a number was written. -/
def adapt (delta count : Nat) (isFirst : Bool) : Nat :=
  let scaled := if isFirst then delta / 700 else delta / 2
  go 0 (scaled + scaled / count) (scaled + scaled / count)
where
  /-- Divides until the number is small; `bound` limits the steps. -/
  go (k delta : Nat) : Nat → Nat
    | 0 => k + 36 * delta / (delta + 38)
    | bound + 1 => if 455 < delta then go (k + 36) (delta / 35) bound else k + 36 * delta / (delta + 38)

/-- The threshold of the digit at `k`. -/
def threshold (bias k : Nat) : Nat := if k ≤ bias then 1 else if bias + 26 ≤ k then 26 else k - bias

theorem threshold_pos (bias k : Nat) : 0 < threshold bias k := by
  unfold threshold
  split
  · omega
  · split <;> omega

/-- The digits of a number of variable length. -/
def codeNumber (bias q k : Nat) : List Char :=
  if _h : q < threshold bias k then [codeDigit q]
  else
    codeDigit (threshold bias k + (q - threshold bias k) % (36 - threshold bias k)) ::
      codeNumber bias ((q - threshold bias k) / (36 - threshold bias k)) (k + 36)
termination_by q
decreasing_by
  have hpos := threshold_pos bias k
  have hle := Nat.div_le_self (q - threshold bias k) (36 - threshold bias k)
  omega

/-- One pass over a label that writes every occurrence of `code`. -/
def codePass (code basicCount : Nat) : List Nat → Nat → Nat → Nat → Nat × Nat × Nat × List Char
  | [], delta, bias, handled => (delta, bias, handled, [])
  | c :: rest, delta, bias, handled =>
    if c < code then codePass code basicCount rest (delta + 1) bias handled
    else if c = code then
      let digits := codeNumber bias delta 36
      let next := adapt delta (handled + 1) (handled = basicCount)
      let (delta', bias', handled', more) := codePass code basicCount rest 0 next (handled + 1)
      (delta', bias', handled', digits ++ more)
    else codePass code basicCount rest delta bias handled

/-- Writes the code points from `n` on, in increasing order. -/
def codeRest (label : List Nat) (basicCount : Nat) :
    List Nat → Nat → Nat → Nat → Nat → List Char
  | [], _, _, _, _ => []
  | code :: codes, n, delta, bias, handled =>
    let start := delta + (code - n) * (handled + 1)
    let (delta', bias', handled', digits) := codePass code basicCount label start bias handled
    digits ++ codeRest label basicCount codes (code + 1) (delta' + 1) bias' handled'

/-- A label in ASCII characters. -/
def codeLabel (label : List Char) : List Char :=
  let codes := label.map Char.toNat
  let basic := label.filter (·.toNat < 0x80)
  let others := ((codes.filter (0x80 ≤ ·)).mergeSort).eraseDups
  if others = [] then label
  else
    ['x', 'n', '-', '-'] ++ basic ++ (if basic = [] then [] else ['-']) ++
      codeRest codes basic.length others 0x80 0 72 basic.length

/-- The form of a character in a domain name: lower case, plain forms of wide ones, and nothing for
those that are not seen. -/
def foldChar (c : Char) : List Char :=
  if 0xFF01 ≤ c.toNat && c.toNat ≤ 0xFF5E then [(Char.ofNat (c.toNat - 0xFEE0)).toLower]
  else if c ∈ ['\u3002', '\uff61'] then ['.']
  else if c ∈ ['\u00ad', '\u200b', '\u2060', '\ufeff'] then []
  else Text.lower c

/-- A domain name in ASCII characters. -/
def asciiName (chars : List Char) : List Char :=
  let parts := Text.splitWhere (· = '.') (chars.flatMap foldChar)
  (List.intersperse ['.'] (parts.map codeLabel)).flatten

/-- The address between square brackets. -/
def bracketed? (chars : List Char) : Option Host :=
  match chars.reverse with
  | ']' :: reversed => ipv6? reversed.reverse
  | _ => none

/-- Reads the host of a special scheme. -/
def parse? : List Char → Option Host
  | '[' :: rest => bracketed? rest
  | chars =>
    let name := asciiName (Text.Percent.decode chars)
    if name = [] || name.any isForbiddenInName then none
    else if endsInNumber name then ipv4? name
    else some (.name (String.ofList name))

/-- Reads the host of any other scheme. -/
def parseOpaque? : List Char → Option Host
  | '[' :: rest => bracketed? rest
  | chars =>
    if chars.any isForbidden then none
    else some (.name (String.ofList (Text.Percent.encode (fun c => ' ' ≤ c && c ≤ '~') chars)))

/-- The length of the run of zeros at the start of the groups. -/
def zeroRun (groups : List Nat) : Nat := (groups.takeWhile (· = 0)).length

/-- The position and length of the first longest run of zeros. -/
def longestZeros : List Nat → Nat × Nat
  | [] => (0, 0)
  | group :: rest =>
    let (start, length) := longestZeros rest
    let run := zeroRun (group :: rest)
    if length ≤ run then (0, run) else (start + 1, length)

/-- The text of a version 6 address, its longest run of at least two zeros left out. -/
def ipv6Text (groups : List Nat) : String :=
  let (start, length) := longestZeros groups
  let texts := groups.map hexText
  if 2 ≤ length then
    ":".intercalate (texts.take start) ++ "::" ++ ":".intercalate (texts.drop (start + length))
  else ":".intercalate texts

/-- The text of a host. -/
def text : Host → String
  | name text => text
  | ipv4 address =>
    ".".intercalate ([24, 16, 8, 0].map fun shift => toString (address / Nat.pow 2 shift % 256))
  | ipv6 groups => "[" ++ ipv6Text groups ++ "]"

end Host

end ApiModel.Url
