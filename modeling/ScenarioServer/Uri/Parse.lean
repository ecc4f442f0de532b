import ScenarioServer.Uri.Basic
import ScenarioServer.Uri.Host

/-!
# Reading a URI

`Uri.parse` reads an absolute URI. Control characters and blanks around the text, and tabs and line
breaks inside it, do not count. Six schemes are special: their URIs always have a host (which may
be empty only for files), a non-empty path, and accept a backslash for a slash. Any other URI has an
authority if two slashes follow the scheme, a hierarchical path if one does, and an opaque path
otherwise.
-/

namespace ScenarioServer

namespace Uri

inductive SchemeKind where
  | file
  | special
  | other
deriving Repr, DecidableEq

def SchemeKind.ofScheme (scheme : String) : SchemeKind :=
  if scheme = "file" then .file
  else if ["http", "https", "ws", "wss", "ftp"].contains scheme then .special
  else .other

def defaultPort? (scheme : String) : Option Nat :=
  match scheme with
  | "http" | "ws" => some 80
  | "https" | "wss" => some 443
  | "ftp" => some 21
  | _ => none

/-- The text without surrounding control characters and blanks, and without any tab or line break. -/
def clean (text : List Char) : List Char :=
  let outer (c : Char) : Bool := c.toNat ≤ 0x20
  let trimmed := ((text.dropWhile outer).reverse.dropWhile outer).reverse
  trimmed.filter fun c => !(c = '\t' || c = '\n' || c = '\r')

/-- A character that may follow the first letter of a scheme. -/
def isSchemeChar (c : Char) : Bool := c.isAlphanum || c = '+' || c = '-' || c = '.'

/-- The scheme in lower case and the text behind its colon. -/
def scheme? (text : List Char) : Option (String × List Char) :=
  match text.head?, text.dropWhile isSchemeChar with
  | some first, ':' :: rest =>
    if first.isAlpha then
      some (String.ofList ((text.takeWhile isSchemeChar).map Char.toLower), rest)
    else none
  | _, _ => none

/-! ## The authority -/

def endsAuthority (special : Bool) (c : Char) : Bool :=
  c = '/' || c = '?' || c = '#' || (special && c = '\\')

/-- Splits at the last `@`; none if there is no `@`. -/
def splitUserinfo (text : List Char) : Option (List Char × List Char) :=
  if text.contains '@' then
    let host := (text.reverse.takeWhile (· ≠ '@')).reverse
    some (text.take (text.length - host.length - 1), host)
  else none

/-- User information with its final `@`: a name, and a password behind the first colon unless it is
empty. Nothing is written if both are missing. -/
def userinfoText (text : List Char) : List Char :=
  let name := percentEncode .userinfo (text.takeWhile (· ≠ ':'))
  let secret := percentEncode .userinfo ((text.dropWhile (· ≠ ':')).drop 1)
  let whole := name ++ (if secret.isEmpty then [] else ':' :: secret)
  if whole.isEmpty then [] else whole ++ ['@']

/-- Splits a host from what follows at the first colon outside square brackets. -/
def splitHost : Bool → List Char → List Char × List Char
  | _, [] => ([], [])
  | inside, c :: rest =>
    if c = ':' && !inside then ([], c :: rest)
    else
      let (host, rest) := splitHost (if c = '[' then true else if c = ']' then false else inside) rest
      (c :: host, rest)

/-- Reads the port behind a colon. A port that the scheme implies is dropped. -/
def readPort (implied : Option Nat) (text : List Char) : Except UriError (Option Nat × List Char) :=
  let digits := text.takeWhile Char.isDigit
  let rest := text.dropWhile Char.isDigit
  let port := (digitsIn? 10 digits).getD 0
  if port > 65535 then .error .invalidPort
  else if rest.head?.any (· ≠ '\\') then .error .invalidPort
  else if digits.isEmpty || implied = some port then .ok (none, rest)
  else .ok (some port, rest)

/-- Reads the authority of a URI that is not a file, and returns the rest of the text. -/
def readAuthority (scheme : String) (special : Bool) (text : List Char) :
    Except UriError (Authority × List Char) := do
  let whole := text.takeWhile fun c => !endsAuthority special c
  let rest := text.dropWhile fun c => !endsAuthority special c
  let (userinfo, hostPort) := (splitUserinfo whole).getD ([], whole)
  if whole = ['@'] && !rest.isEmpty then throw .emptyHost
  let userinfo := userinfoText userinfo
  let (hostText, portText) := splitHost false hostPort
  if special && hostText.isEmpty then throw .emptyHost
  let host ← if special then specialHost hostText else opaqueHost hostText
  if host.isEmpty && portText.head? = some ':' then throw .emptyHost
  let (port, left) ← match portText with
    | ':' :: portText => readPort (defaultPort? scheme) portText
    | portText => .ok (none, portText)
  if host.isEmpty && !userinfo.isEmpty then throw .emptyHost
  return (⟨String.ofList userinfo, String.ofList host, port⟩, left ++ rest)

/-! ## Query and fragment -/

/-- Splits the path from query and fragment, each without its mark. -/
def splitSuffixes (text : List Char) : List Char × Option (List Char) × Option (List Char) :=
  let isMark (c : Char) : Bool := c = '?' || c = '#'
  let path := text.takeWhile fun c => !isMark c
  match text.dropWhile fun c => !isMark c with
  | '?' :: rest =>
    let query := rest.takeWhile (· ≠ '#')
    match rest.dropWhile (· ≠ '#') with
    | '#' :: fragment => (path, some query, some fragment)
    | _ => (path, some query, none)
  | '#' :: fragment => (path, none, some fragment)
  | _ => (path, none, none)

/-- Puts a URI together from its path and the raw query and fragment. -/
def assemble (scheme : String) (authority : Option Authority) (path : List Char)
    (query fragment : Option (List Char)) : Uri :=
  let component : Component := if SchemeKind.ofScheme scheme = .other then .query else .specialQuery
  { scheme
    authority
    path := String.ofList path
    query := query.map fun q => String.ofList (percentEncode component q)
    fragment := fragment.map fun f => String.ofList (percentEncode .fragment f) }

/-! ## The three kinds of URI -/

/-- Whether a character is a slash of either direction. -/
def isSlash (c : Char) : Bool := c = '/' || c = '\\'

def dropSlash : List Char → List Char
  | c :: rest => if isSlash c then rest else c :: rest
  | [] => []

/-- The host of a file URI and the text behind it. The local host counts as no host, and a drive
letter in the place of the host belongs to the path. -/
def readFileHost (text : List Char) : Except UriError (List Char × List Char) := do
  let ends (c : Char) : Bool := isSlash c || c = '?' || c = '#'
  let host := text.takeWhile fun c => !ends c
  let rest := text.dropWhile fun c => !ends c
  if host.isEmpty then return ([], rest)
  else if isDriveLetter host then return ([], text)
  else
    let host ← specialHost host
    return (if host = "localhost".toList then [] else host, rest)

/-- The host of a file URI, the segments of its path that are closed at the outset, and the text
that is left. Only two slashes introduce a host; a single slash is the root of the path itself. -/
def openFile (text : List Char) :
    Except UriError (List Char × List (List Char) × List Char) :=
  match text with
  | a :: b :: rest =>
    if isSlash a && isSlash b then do
      let (host, rest) ← readFileHost rest
      return (host, [[]], if host.isEmpty then rest else dropSlash rest)
    else if isSlash a then .ok ([], [], text)
    else .ok ([], [[]], text)
  | [a] => .ok ([], if isSlash a then [] else [[]], text)
  | [] => .ok ([], [[]], [])

/-- Reads a file URI behind its scheme. A drive letter at the root of the path removes the host. -/
def parseFile (text : List Char) : Except UriError Uri := do
  let (host, closed, text) ← openFile text
  let (pathText, query, fragment) := splitSuffixes text
  let (path, drive) := normalizePath true true closed pathText
  let host := if drive then [] else host
  return assemble "file" (some { host := String.ofList host }) path query fragment

def parseSpecial (scheme : String) (text : List Char) : Except UriError Uri := do
  let (authority, text) ← readAuthority scheme true (text.dropWhile isSlash)
  let (pathText, query, fragment) := splitSuffixes text
  let (path, _) := normalizePath true false [[]] (dropSlash pathText)
  return assemble scheme (some authority) path query fragment

def parseOther (scheme : String) (text : List Char) : Except UriError Uri := do
  match text with
  | '/' :: '/' :: rest =>
    let (authority, rest) ← readAuthority scheme false rest
    let (pathText, query, fragment) := splitSuffixes rest
    let path := match pathText with
      | [] => []
      | '/' :: pathText => (normalizePath false false [[]] pathText).1
      | pathText => (normalizePath false false [[]] pathText).1
    return assemble scheme (some authority) path query fragment
  | '/' :: rest =>
    let (pathText, query, fragment) := splitSuffixes rest
    return assemble scheme none (normalizePath false false [[]] pathText).1 query fragment
  | text =>
    let (pathText, query, fragment) := splitSuffixes text
    return assemble scheme none (percentEncode .opaquePath pathText) query fragment

def parse (text : String) : Except UriError Uri :=
  match scheme? (clean text.toList) with
  | none => .error .relativeWithoutBase
  | some (scheme, rest) =>
    match SchemeKind.ofScheme scheme with
    | .file => parseFile rest
    | .special => parseSpecial scheme rest
    | .other => parseOther scheme rest

end Uri

end ScenarioServer
