import ScenarioServer.Json.Token
import ScenarioServer.Text.Position

/-!
# URIs

Normalized URIs with the encoding of their parts and the normal form of their paths. What a URI says
about files stands at the end.
-/

namespace ScenarioServer

/-!
## Percent encoding

Inside a URI a character outside the allowed set of its component is written as its UTF-8 bytes,
each as a percent sign and two capital hexadecimal digits. Every component encodes control
characters and everything beyond ASCII; the components differ in the further characters they list
in `Component.reserved`. A percent sign is encoded only in the name of a file, where it has no
meaning yet; elsewhere encoding twice changes nothing.
-/

namespace Uri

/-- The parts of a URI that encode different sets of characters. -/
inductive Component where
  | userinfo
  | opaqueHost
  | path
  | fileName
  | opaquePath
  | query
  | specialQuery
  | fragment
deriving Repr, DecidableEq

/-- The printable ASCII characters that a component encodes. -/
def Component.reserved : Component → List Char
  | .opaqueHost | .opaquePath => []
  | .fragment => [' ', '"', '<', '>', '\x60']
  | .path => [' ', '"', '<', '>', '\x60', '#', '?', '\x7b', '\x7d']
  | .fileName => [' ', '"', '<', '>', '\x60', '#', '?', '\x7b', '\x7d', '/', '%', '\\']
  | .userinfo =>
    [' ', '"', '<', '>', '\x60', '#', '?', '\x7b', '\x7d', '/', ':', ';', '=', '@', '[', '\\', ']', '^', '|']
  | .query => [' ', '"', '#', '<', '>']
  | .specialQuery => [' ', '"', '#', '<', '>', '\x27']

def Component.encodes (component : Component) (c : Char) : Bool :=
  c.toNat < 0x20 || c.toNat > 0x7E || component.reserved.contains c

def upperHexDigit (n : Nat) : Char :=
  if n < 10 then Char.ofNat ('0'.toNat + n) else Char.ofNat ('A'.toNat + (n - 10))

def encodeByte (byte : UInt8) : List Char :=
  ['%', upperHexDigit (byte.toNat / 16), upperHexDigit (byte.toNat % 16)]

/-- The UTF-8 bytes of a character, each percent-encoded. -/
def encodeChar (c : Char) : List Char := (String.singleton c).toUTF8.toList.flatMap encodeByte

def percentEncode (component : Component) (text : List Char) : List Char :=
  text.flatMap fun c => if component.encodes c then encodeChar c else [c]

/-- The bytes of a text in which percent signs followed by two hexadecimal digits stand for a byte;
any other percent sign stands for itself. -/
def percentDecodeBytes : List Char → List UInt8
  | '%' :: high :: low :: rest =>
    match Json.hexValue? high, Json.hexValue? low with
    | some h, some l => UInt8.ofNat (h * 16 + l) :: percentDecodeBytes rest
    | _, _ => '%'.toNat.toUInt8 :: percentDecodeBytes (high :: low :: rest)
  | c :: rest => (String.singleton c).toUTF8.toList ++ percentDecodeBytes rest
  | [] => []

/-- The decoded text, if its bytes are UTF-8. -/
def percentDecode? (text : List Char) : Option String :=
  String.fromUTF8? ⟨(percentDecodeBytes text).toArray⟩

/-!
## Paths of a URI

A hierarchical path is read segment by segment. A single dot is dropped, a double dot takes back the
segment before it, and both may be written with an encoded dot. Two exceptions protect drive
letters: a double dot never takes back a segment that looks like one, and directly behind the root
of a file path a drive letter written with a bar is written with a colon.

While a path is read, the segments that a slash has closed are kept last first; the path so far is
each of them followed by its slash.
-/

/-- Whether a segment is a single dot, as it is or encoded. -/
def isSingleDot (segment : List Char) : Bool :=
  let text := segment.map Char.toLower
  text = ['.'] || text = ['%', '2', 'e']

def isDoubleDot (segment : List Char) : Bool :=
  let text := segment.map Char.toLower
  text = ['.', '.'] || text = ['.', '%', '2', 'e'] || text = ['%', '2', 'e', '.'] ||
    text = ['%', '2', 'e', '%', '2', 'e']

/-- Whether a segment is an ASCII letter followed by a colon or a bar. -/
def isDriveLetter : List Char → Bool
  | [letter, mark] => letter.isAlpha && (mark = ':' || mark = '|')
  | _ => false

/-- A path that is being read: the segments closed so far, last first, and whether a drive letter
was met directly behind the root. -/
structure PathScan where
  closed : List (List Char)
  drive : Bool := false
deriving Repr, DecidableEq

namespace PathScan

/-- Whether a drive letter stands directly behind the root of a file path. -/
def isDrive (scan : PathScan) (file : Bool) (segment : List Char) : Bool :=
  file && scan.closed = [[]] && isDriveLetter segment

/-- The text of an ordinary segment at this place. -/
def segmentText (scan : PathScan) (file : Bool) (segment : List Char) : List Char :=
  if scan.isDrive file segment then segment.take 1 ++ [':'] else percentEncode .path segment

/-- The segments that remain after a double dot. -/
def takeBack : List (List Char) → List (List Char)
  | last :: before =>
    if before.isEmpty || isDriveLetter last then last :: before else before
  | [] => [[]]

/-- Reads a segment that a slash closes. -/
def close (file : Bool) (scan : PathScan) (segment : List Char) : PathScan :=
  if isDoubleDot segment then { scan with closed := takeBack scan.closed }
  else if isSingleDot segment then
    { scan with closed := if scan.closed.isEmpty then [[]] else scan.closed }
  else
    { closed := scan.segmentText file segment :: scan.closed
      drive := scan.drive || scan.isDrive file segment }

/-- Reads the last segment and returns the scan with the text of that segment. -/
def finish (file : Bool) (scan : PathScan) (segment : List Char) : PathScan × List Char :=
  if isDoubleDot segment || isSingleDot segment then (scan.close file segment, [])
  else
    ({ scan with drive := scan.drive || scan.isDrive file segment }, scan.segmentText file segment)

end PathScan

/-- The segments of a path; in a special URI a backslash counts as a slash. -/
def splitPath (special : Bool) (path : List Char) : List (List Char) :=
  Text.splitWhere (fun c => c = '/' || (special && c = '\\')) path

/-- The normal form of a path whose first segments are given as closed, and whether a drive letter
stands directly behind its root. -/
def normalizePath (special file : Bool) (closed : List (List Char)) (text : List Char) :
    List Char × Bool :=
  let segments := splitPath special text
  let scan := segments.dropLast.foldl (PathScan.close file) { closed }
  let (scan, last) := scan.finish file (segments.getLast?.getD [])
  let path := scan.closed.reverse.flatMap (· ++ ['/']) ++ last
  (if file then '/' :: path.dropWhile (· = '/') else path, scan.drive)

end Uri

/-!
## URIs

A `Uri` is a parsed and normalized URI; `Uri.text` writes it back. Documents are known by their URI,
and two URIs are the same if all their parts are.

`segments?` are the parts of a hierarchical path between the slashes, as they are written.
`filePath?` is the local path that a URI names, whatever its scheme: the decoded segments, provided
that the host is absent or the local one.
-/

/-- The authority of a URI: user information with its final `@`, host and port, each possibly
absent. -/
structure Authority where
  userinfo : String := ""
  host : String := ""
  port : Option Nat := none
deriving Repr, DecidableEq

structure Uri where
  scheme : String
  authority : Option Authority
  path : String
  query : Option String := none
  fragment : Option String := none
deriving Repr, DecidableEq

namespace Authority

def text (a : Authority) : String :=
  a.userinfo ++ a.host ++ (match a.port with | some port => ":" ++ Nat.repr port | none => "")

end Authority

namespace Uri

/-- The written form of a URI. A path that starts with two slashes is set off from a missing
authority by a dot segment. -/
def text (uri : Uri) : String :=
  let authority := match uri.authority with
    | some a => "//" ++ a.text
    | none => if uri.path.startsWith "//" then "/." else ""
  let query := match uri.query with
    | some q => "?" ++ q
    | none => ""
  let fragment := match uri.fragment with
    | some f => "#" ++ f
    | none => ""
  uri.scheme ++ ":" ++ authority ++ uri.path ++ query ++ fragment

def segments? (uri : Uri) : Option (List String) :=
  match uri.path.toList with
  | '/' :: rest => some ((splitPath false rest).map String.ofList)
  | _ => none

/-- Whether the host of a URI is absent or the local one. -/
def isLocal (uri : Uri) : Bool :=
  match uri.authority with
  | some a => a.host = "" || a.host = "localhost"
  | none => true

/-- A path that ends in a drive letter is closed by a slash. -/
def closeDrive (path : String) : String :=
  match path.toList.reverse with
  | mark :: letter :: _ :: _ => if isDriveLetter [letter, mark] then path ++ "/" else path
  | _ => path

/-- The local path that a URI names. The paths of a `FileSystem` are texts, so a path whose bytes are
not UTF-8 can lead to no file of it and is left out here. -/
def filePath? (uri : Uri) : Option String := do
  let segments ← uri.segments?
  if uri.isLocal then
    let decoded ← segments.mapM fun segment => percentDecode? segment.toList
    return closeDrive (String.join (decoded.map ("/" ++ ·)))
  else none

def ofFilePath (path : String) : Uri :=
  let names := (Text.splitWhere (· = '/') path.toList).filter (· ≠ [])
  let segments := names.flatMap fun name => '/' :: percentEncode .fileName name
  { scheme := "file", authority := some {}, path := if names.isEmpty then "/" else String.ofList segments }

end Uri

end ScenarioServer
