import ApiModel.Url.Host

/-!
Absolute URLs, and relative ones joined to them, by the URL living standard. Only what stands before
the fragment is read. `Url.parse?` decides what counts as an absolute URL, and `Url.join?` with
`Url.text` gives the address a relative text has beside another document.
-/

namespace ApiModel

/-- What stands between the authority and the query. -/
inductive UrlPath where
  /-- A text without segments, as in `urn:isbn:1`; nothing can be joined to it. -/
  | plain (text : String)
  /-- Segments, each after a slash. -/
  | segments (names : List String)
  deriving DecidableEq

/-- A URL up to its fragment. User, password, path and query are held percent-coded. -/
structure Url where
  scheme : String
  user : String := ""
  password : String := ""
  host : Option Url.Host := none
  /-- The port, if it is not the scheme's own. -/
  port : Option Nat := none
  path : UrlPath
  query : Option String := none

namespace Url

/-- Schemes with an authority of known form, and their ports. -/
def specialPorts : List (String × Option Nat) :=
  [("http", some 80), ("https", some 443), ("ws", some 80), ("wss", some 443), ("ftp", some 21),
    ("file", none)]

/-- Whether a scheme is special. -/
def isSpecial (scheme : String) : Bool := specialPorts.any (·.1 = scheme)

/-! Which characters are written as they are. -/

/-- Plain in any part: printable ASCII. -/
def isPrintable (c : Char) : Bool := ' ' ≤ c && c ≤ '~'

/-- Plain in a path. -/
def isPathChar (c : Char) : Bool :=
  isPrintable c && c ∉ [' ', '"', '<', '>', '\x60', '#', '?', '\x7b', '\x7d']

/-- Plain in a user's name or password. -/
def isUserChar (c : Char) : Bool :=
  isPathChar c && c ∉ ['/', ':', ';', '=', '@', '[', '\\', ']', '^', '|']

/-- Plain in a query. -/
def isQueryChar (special : Bool) (c : Char) : Bool :=
  isPrintable c && c ∉ [' ', '"', '#', '<', '>'] && !(special && c = '\'')

/-! Paths. -/

/-- Whether a segment is a dot, plain or coded. -/
def isDot (segment : String) : Bool := Text.asciiLower segment ∈ [".", "%2e"]

/-- Whether a segment is two dots, plain or coded. -/
def isTwoDots (segment : String) : Bool :=
  Text.asciiLower segment ∈ ["..", ".%2e", "%2e.", "%2e%2e"]

/-- Whether a text is a letter and a colon or bar. -/
def isDriveLetter : List Char → Bool
  | [c, d] => c.isAlpha && (d = ':' || d = '|')
  | _ => false

/-- Whether a text begins with a drive letter that is a segment of its own. -/
def startsWithDriveLetter : List Char → Bool
  | c :: d :: rest =>
    isDriveLetter [c, d] && rest.head?.all (fun e => e ∈ ['/', '\\', '?', '#'])
  | _ => false

/-- Drops the last segment, unless it is the drive letter of a file. -/
def shorten (isFile : Bool) (names : List String) : List String :=
  match names with
  | [name] =>
    if isFile && isDriveLetter name.toList && name.endsWith ":" then [name] else []
  | _ => names.dropLast

/-- Adds a segment; the drive letter of a file takes a colon. -/
def addSegment (isFile : Bool) (names : List String) (segment : String) : List String :=
  if isFile && names.all (·.isEmpty) && isDriveLetter segment.toList then
    names ++ [String.ofList (segment.toList.take 1 ++ [':'])]
  else names ++ [segment]

/-- Adds segments in turn. A dot adds nothing and two dots drop a segment; at the end both leave an
empty segment. -/
def addSegments (isFile : Bool) (names : List String) : List String → List String
  | [] => names
  | [last] =>
    if isTwoDots last then shorten isFile names ++ [""]
    else if isDot last then names ++ [""]
    else addSegment isFile names last
  | segment :: rest =>
    if isTwoDots segment then addSegments isFile (shorten isFile names) rest
    else if isDot segment then addSegments isFile names rest
    else addSegments isFile (addSegment isFile names segment) rest

/-- Drops empty segments before others. -/
def dropEmpty : List String → List String
  | "" :: second :: rest => dropEmpty (second :: rest)
  | names => names

/-- The path and query of a text, its segments added to those of `names`. A backslash is a slash in
special schemes, and the path of a file begins with one slash only. -/
def withPath (url : Url) (names : List String) (text : List Char) : Url :=
  let special := isSpecial url.scheme
  let isFile := url.scheme = "file"
  let chars := text.takeWhile (· ≠ '?')
  let raw := Text.splitWhere (fun c => c = '/' || (special && c = '\\')) chars
  let segments := raw.map fun run => String.ofList (Text.Percent.encode isPathChar run)
  let added := addSegments isFile names segments
  let query :=
    match text.dropWhile (· ≠ '?') with
    | [] => none
    | _ :: rest => some (String.ofList (Text.Percent.encode (isQueryChar special) rest))
  { url with path := .segments (if isFile then dropEmpty added else added), query := query }

/-- The path and query of a text that begins at the path. Only other schemes can lack a path. -/
def withRootPath (url : Url) (text : List Char) : Url :=
  match text with
  | '/' :: rest => withPath url [] rest
  | '\\' :: rest => if isSpecial url.scheme then withPath url [] rest else withPath url [] text
  | _ =>
    if isSpecial url.scheme || text.takeWhile (· ≠ '?') ≠ [] then withPath url [] text
    else { withPath url [] text with path := .segments [] }

/-! Authorities. -/

/-- The user and password before the last `@` of an authority, and the rest; none if the host after
them is empty. -/
def splitUser? (authority : List Char) : Option (String × String × List Char) :=
  match authority.reverse.dropWhile (· ≠ '@') with
  | [] => some ("", "", authority)
  | _ :: reversed =>
    let credentials := reversed.reverse
    let host := (authority.reverse.takeWhile (· ≠ '@')).reverse
    let coded := fun chars => String.ofList (Text.Percent.encode isUserChar chars)
    if host = [] then none
    else
      some (coded (credentials.takeWhile (· ≠ ':')),
        coded ((credentials.dropWhile (· ≠ ':')).drop 1), host)

/-- Splits the host from a colon outside square brackets and what follows it. -/
def splitPort (inBrackets : Bool) : List Char → List Char × List Char
  | [] => ([], [])
  | c :: rest =>
    if c = ':' && !inBrackets then ([], c :: rest)
    else
      let (host, port) := splitPort (c = '[' || (inBrackets && c ≠ ']')) rest
      (c :: host, port)

/-- The port after a colon, if it is written and not the scheme's own. The outer option is empty
for a text that is no port. -/
def port? (scheme : String) : List Char → Option (Option Nat)
  | ':' :: digits =>
    if digits = [] then some none
    else if digits.all Char.isDigit && Host.digitsValue 10 digits < 65536 then
      let port := Host.digitsValue 10 digits
      some (if specialPorts.lookup scheme = some (some port) then none else some port)
    else none
  | _ => some none

/-- The URL of a text that begins at the authority. -/
def ofAuthority? (scheme : String) (text : List Char) : Option Url :=
  let special := isSpecial scheme
  let ends := fun c => c = '/' || c = '?' || (special && c = '\\')
  let authority := text.takeWhile (!ends ·)
  let rest := text.dropWhile (!ends ·)
  (splitUser? authority).bind fun (user, password, hostAndPort) =>
    let (hostText, portText) := splitPort false hostAndPort
    let beforeBackslash := portText.takeWhile (· ≠ '\\')
    if hostText = [] && (special || portText ≠ []) then none
    else
      (if special then Host.parse? hostText else Host.parseOpaque? hostText).bind fun host =>
        (port? scheme beforeBackslash).map fun port =>
          withRootPath
            { scheme, user, password, host := some host, port, path := .segments [] }
            (portText.dropWhile (· ≠ '\\') ++ rest)

/-- The host of a file; the local host is left out. -/
def fileHost? (text : List Char) : Option (Option Host) :=
  if text = [] then some none
  else
    (Host.parse? text).map fun host => if host = .name "localhost" then none else some host

/-- The URL of a text that follows `file:`, beside the file `base` if there is one. -/
def ofFile? (base : Option Url) (text : List Char) : Option Url :=
  let isSlash := fun c => c = '/' || c = '\\'
  let blank : Url := { scheme := "file", path := .segments [] }
  match text with
  | c :: d :: rest =>
    if isSlash c && isSlash d then
      let hostText := rest.takeWhile fun c => !isSlash c && c ≠ '?'
      let after := rest.dropWhile fun c => !isSlash c && c ≠ '?'
      if isDriveLetter hostText then some (withPath blank [] rest)
      else (fileHost? hostText).map fun host => withRootPath { blank with host } after
    else if isSlash c then some (fromRoot blank (d :: rest))
    else some (fromBase blank)
  | [c] => if isSlash c then some (fromRoot blank []) else some (fromBase blank)
  | [] => some (fromBase blank)
where
  /-- A path from the root, on the host or drive of the base. -/
  fromRoot (blank : Url) (rest : List Char) : Url :=
    match base with
    | none => withPath blank [] rest
    | some base =>
      if startsWithDriveLetter rest then withPath blank [] rest
      else
        match base.path with
        | .segments (drive :: _) =>
          if isDriveLetter drive.toList && drive.endsWith ":" then withPath blank [drive] rest
          else withPath { blank with host := base.host } [] rest
        | _ => withPath { blank with host := base.host } [] rest
  /-- A path beside the base. -/
  fromBase (blank : Url) : Url :=
    match base with
    | none => withPath blank [] text
    | some base =>
      let names :=
        match base.path with
        | .segments names => names
        | .plain _ => []
      match text with
      | [] => base
      | '?' :: _ => { withPath base names text with path := base.path }
      | _ =>
        if startsWithDriveLetter text then withPath blank [] text
        else withPath base (shorten true names) text

/-- The URL of a text without a scheme, beside a base that is no file. -/
def ofRelative? (base : Url) (text : List Char) : Option Url :=
  match base.path with
  | .plain _ => none
  | .segments names =>
    let isSlash := fun c => c = '/' || c = '\\'
    match text with
    | [] => some base
    | '?' :: _ => some { withPath base names text with path := base.path }
    | c :: rest =>
      if isSlash c then
        if rest.head?.any isSlash then
          if c = '/' && rest.head? = some '/' then ofAuthority? base.scheme (rest.drop 1)
          else ofAuthority? base.scheme (text.dropWhile isSlash)
        else some (withPath base [] rest)
      else some (withPath base (shorten false names) text)

/-- The scheme before the first colon, in lower case, and what follows it. -/
def splitScheme? (text : List Char) : Option (String × List Char) :=
  let isSchemeChar := fun c : Char => c.isAlphanum || c = '+' || c = '-' || c = '.'
  match text.takeWhile isSchemeChar, text.dropWhile isSchemeChar with
  | c :: name, ':' :: rest =>
    if c.isAlpha then some (String.ofList ((c :: name).map Char.toLower), rest) else none
  | _, _ => none

/-- The text without what stands around and inside it unseen, and without its fragment. -/
def visible (text : String) : List Char :=
  let kept := (text.toList.dropWhile (· ≤ ' ')).reverse.dropWhile (· ≤ ' ')
  (kept.reverse.filter (· ∉ ['\t', '\n', '\x0d'])).takeWhile (· ≠ '#')

/-- The URL of a text, beside a base if there is one. -/
def read? (base : Option Url) (text : List Char) : Option Url :=
  match splitScheme? text with
  | none =>
    base.bind fun base =>
      match base.path with
      | .plain _ => none
      | .segments _ =>
        if base.scheme = "file" then ofFile? (some base) text else ofRelative? base text
  | some (scheme, rest) =>
    let isSlash := fun c => c = '/' || c = '\\'
    if scheme = "file" then ofFile? (base.filter (·.scheme = "file")) rest
    else if isSpecial scheme then
      let slashes := rest.takeWhile isSlash
      match base.filter (·.scheme = scheme) with
      | some base =>
        if slashes.length < 2 then ofRelative? base rest
        else ofAuthority? scheme (rest.dropWhile isSlash)
      | none => ofAuthority? scheme (rest.dropWhile isSlash)
    else
      match rest with
      | '/' :: '/' :: authority => ofAuthority? scheme authority
      | '/' :: path => some (withPath { scheme, path := .segments [] } [] path)
      | _ =>
        let coded := fun isPlain chars => String.ofList (Text.Percent.encode isPlain chars)
        some
          { scheme
            path := .plain (coded isPrintable (rest.takeWhile (· ≠ '?')))
            query :=
              match rest.dropWhile (· ≠ '?') with
              | [] => none
              | _ :: query => some (coded (isQueryChar false) query) }

/-- Reads an absolute URL. -/
def parse? (text : String) : Option Url := read? none (visible text)

/-- Reads a URL beside another one. -/
def join? (base : Url) (text : String) : Option Url :=
  read? (some base) (visible text)

/-- The user, the password and the sign after them. -/
def credentials (url : Url) : String :=
  if url.user.isEmpty && url.password.isEmpty then ""
  else url.user ++ (if url.password.isEmpty then "" else ":" ++ url.password) ++ "@"

/-- The path as it is written. -/
def pathText (url : Url) : String :=
  match url.path with
  | .plain text => text
  | .segments names =>
    let text := String.join (names.map ("/" ++ ·))
    if url.host.isNone && url.scheme ≠ "file" && text.startsWith "//" then "/." ++ text else text

/-- The URL as text. -/
def text (url : Url) : String :=
  let authority :=
    match url.host with
    | some host =>
      "//" ++ url.credentials ++ host.text ++ (url.port.map fun n => ":" ++ toString n).getD ""
    | none => if url.scheme = "file" then "//" else ""
  url.scheme ++ ":" ++ authority ++ url.pathText ++ (url.query.map ("?" ++ ·)).getD ""

/-- The path of a file on this machine; none for a file of another host. -/
def filePath? (url : Url) : Option String :=
  match url.path, url.host with
  | .segments names, none =>
    let path := names.flatMap fun name => '/' :: Text.Percent.decode name.toList
    let endsInDrive := 2 < path.length && isDriveLetter (path.drop (path.length - 2))
    some (String.ofList (if endsInDrive then path ++ ['/'] else path))
  | _, _ => none

end Url

end ApiModel
