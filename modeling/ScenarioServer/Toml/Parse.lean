import ScenarioServer.Json.Token
import ScenarioServer.Toml.Value

/-!
# The TOML reader

From the text of a document to its root table, with quoted strings first.
-/

namespace ScenarioServer

/-!
## Quoted strings

Four kinds of string: basic strings in double quotes with escapes, literal strings in single quotes
without, and a multi-line form of each in three quotes. Control characters other than the tab may
not stand in any of them. In the multi-line forms line feeds may, a line feed right behind the
opening quotes does not count, and up to two quotes may stand anywhere, also in front of the closing
ones.

Each kind is one pass over the text with a small state, the `Phase`.
-/

namespace Toml

/-- Whether a character may not stand in a string or a comment. -/
def isControl (c : Char) : Bool := (c.toNat < 0x20 && c ≠ '\t') || c.toNat = 0x7F

def simpleEscape? : Char → Option Char
  | 'b' => some '\x08'
  | 't' => some '\t'
  | 'n' => some '\n'
  | 'f' => some '\x0c'
  | 'r' => some '\r'
  | '"' => some '"'
  | '\\' => some '\\'
  | _ => none

/-- How many hexadecimal digits follow the letter of a code point escape. -/
def codeDigits? : Char → Option Nat
  | 'u' => some 4
  | 'U' => some 8
  | _ => none

/-- The character of a code point, which may not be a surrogate. -/
def charOfCode? (code : Nat) : Option Char :=
  if code < 0xD800 || (0xE000 ≤ code && code ≤ 0x10FFFF) then some (Char.ofNat code) else none

inductive Phase where
  | plain
  /-- Behind this many quotes in a row. -/
  | quotes (count : Nat)
  | escape
  /-- Inside a code point escape with this many digits to come. -/
  | code (left : Nat) (value : Nat)
  /-- Behind a backslash and blanks, looking for the line break. -/
  | lineEnd
  /-- Behind a backslash and a line break, skipping blanks and line breaks. -/
  | skipping
deriving Repr, DecidableEq

/-- Reads a literal string whose opening quote has been read. `found` is held last first. -/
def scanLiteral (found : List Char) : List Char → Option (String × List Char)
  | [] => none
  | c :: rest =>
    if c = '\x27' then some (String.ofList found.reverse, rest)
    else if isControl c then none
    else scanLiteral (c :: found) rest

/-- Reads a basic string whose opening quote has been read. -/
def scanBasic : Phase → List Char → List Char → Option (String × List Char)
  | _, _, [] => none
  | .escape, found, c :: rest =>
    match simpleEscape? c, codeDigits? c with
    | some e, _ => scanBasic .plain (e :: found) rest
    | none, some count => scanBasic (.code count 0) found rest
    | none, none => none
  | .code left value, found, c :: rest =>
    match Json.hexValue? c with
    | none => none
    | some d =>
      let value := value * 16 + d
      if left ≤ 1 then
        match charOfCode? value with
        | some e => scanBasic .plain (e :: found) rest
        | none => none
      else scanBasic (.code (left - 1) value) found rest
  | _, found, c :: rest =>
    if c = '"' then some (String.ofList found.reverse, rest)
    else if c = '\\' then scanBasic .escape found rest
    else if isControl c then none
    else scanBasic .plain (c :: found) rest

/-- The text of a multi-line string that a run of quotes ends, if the run is long enough to hold the
closing quotes and at most two more. -/
def closing? (quote : Char) (found : List Char) (count : Nat) : Option String :=
  if 3 ≤ count && count ≤ 5 then
    some (String.ofList (List.replicate (count - 3) quote ++ found).reverse)
  else none

/-- Reads a multi-line literal string whose opening quotes have been read. -/
def scanMultilineLiteral : Phase → List Char → List Char → Option (String × List Char)
  | .quotes count, found, [] => (closing? '\x27' found count).map (·, [])
  | _, _, [] => none
  | .quotes count, found, c :: rest =>
    if c = '\x27' then scanMultilineLiteral (.quotes (count + 1)) found rest
    else if 3 ≤ count then (closing? '\x27' found count).map (·, c :: rest)
    else
      let found := List.replicate count '\x27' ++ found
      if c = '\n' then scanMultilineLiteral .plain ('\n' :: found) rest
      else if isControl c then none
      else scanMultilineLiteral .plain (c :: found) rest
  | _, found, c :: rest =>
    if c = '\x27' then scanMultilineLiteral (.quotes 1) found rest
    else if c = '\n' then scanMultilineLiteral .plain ('\n' :: found) rest
    else if isControl c then none
    else scanMultilineLiteral .plain (c :: found) rest

def scanMultilineBasic : Phase → List Char → List Char → Option (String × List Char)
  | .quotes count, found, [] => (closing? '"' found count).map (·, [])
  | _, _, [] => none
  | .quotes count, found, c :: rest =>
    if c = '"' then scanMultilineBasic (.quotes (count + 1)) found rest
    else if 3 ≤ count then (closing? '"' found count).map (·, c :: rest)
    else
      let found := List.replicate count '"' ++ found
      if c = '\\' then scanMultilineBasic .escape found rest
      else if c = '\n' then scanMultilineBasic .plain ('\n' :: found) rest
      else if isControl c then none
      else scanMultilineBasic .plain (c :: found) rest
  | .escape, found, c :: rest =>
    match simpleEscape? c, codeDigits? c with
    | some e, _ => scanMultilineBasic .plain (e :: found) rest
    | none, some count => scanMultilineBasic (.code count 0) found rest
    | none, none =>
      if c = ' ' || c = '\t' then scanMultilineBasic .lineEnd found rest
      else if c = '\n' then scanMultilineBasic .skipping found rest
      else none
  | .code left value, found, c :: rest =>
    match Json.hexValue? c with
    | none => none
    | some d =>
      let value := value * 16 + d
      if left ≤ 1 then
        match charOfCode? value with
        | some e => scanMultilineBasic .plain (e :: found) rest
        | none => none
      else scanMultilineBasic (.code (left - 1) value) found rest
  | .lineEnd, found, c :: rest =>
    if c = ' ' || c = '\t' then scanMultilineBasic .lineEnd found rest
    else if c = '\n' then scanMultilineBasic .skipping found rest
    else none
  | .skipping, found, c :: rest =>
    if c = ' ' || c = '\t' || c = '\n' then scanMultilineBasic .skipping found rest
    else if c = '"' then scanMultilineBasic (.quotes 1) found rest
    else if c = '\\' then scanMultilineBasic .escape found rest
    else if isControl c then none
    else scanMultilineBasic .plain (c :: found) rest
  | .plain, found, c :: rest =>
    if c = '"' then scanMultilineBasic (.quotes 1) found rest
    else if c = '\\' then scanMultilineBasic .escape found rest
    else if c = '\n' then scanMultilineBasic .plain ('\n' :: found) rest
    else if isControl c then none
    else scanMultilineBasic .plain (c :: found) rest

/-- The text behind one line feed, or the text itself if it does not start with one. -/
def dropLineBreak : List Char → List Char
  | '\n' :: rest => rest
  | text => text

/-- Reads a string of any of the four kinds. -/
def scanString : List Char → Option (String × List Char)
  | '"' :: '"' :: '"' :: rest => scanMultilineBasic .plain [] (dropLineBreak rest)
  | '"' :: rest => scanBasic .plain [] rest
  | '\x27' :: '\x27' :: '\x27' :: rest => scanMultilineLiteral .plain [] (dropLineBreak rest)
  | '\x27' :: rest => scanLiteral [] rest
  | _ => none

/-- Reads a string of one of the two kinds that stay on a line. -/
def scanLineString : List Char → Option (String × List Char)
  | '"' :: rest => scanBasic .plain [] rest
  | '\x27' :: rest => scanLiteral [] rest
  | _ => none

/-!
## Reading a TOML document

The grammar of TOML 1.0 over the characters of a text. Every reader consumes what it recognizes and
fails otherwise. A byte order mark may open the document, a line ends with a line feed that one
carriage return may precede, and containers and dotted keys have a bounded depth.

Readers that repeat take fuel; the length of the text is always enough, since each round consumes a
character.
-/

/-- A reader of a part of a text: its result with the rest of the text, or failure. -/
abbrev Reader := StateT (List Char) Option

/-- How deep arrays and inline tables may nest, and how many names a dotted key may have. -/
def depthLimit : Nat := 79

namespace Reader

def fail {α : Type} : Reader α := fun _ => none

/-- The next character, which stays. -/
def peek : Reader (Option Char) := fun text => some (text.head?, text)

def expect (c : Char) : Reader Unit := fun text =>
  match text with
  | first :: rest => if first = c then some ((), rest) else none
  | [] => none

/-- Consumes the given character if it comes next, and tells whether it did. -/
def accept (c : Char) : Reader Bool := fun text =>
  match text with
  | first :: rest => if first = c then some (true, rest) else some (false, text)
  | [] => some (false, [])

def takeWhile (p : Char → Bool) : Reader (List Char) := fun text =>
  some (text.takeWhile p, text.dropWhile p)

def scan {α : Type} (scanner : List Char → Option (α × List Char)) : Reader α := scanner

/-- Consumes blanks within a line. -/
def blanks : Reader Unit := do
  let _ ← takeWhile fun c => c = ' ' || c = '\t'

def lineBreak : Reader Unit := expect '\n'

/-- Consumes a comment up to the end of its line, if one comes next. -/
def comment : Reader Unit := do
  if ← accept '#' then
    let _ ← takeWhile fun c => !isControl c

/-- Consumes the rest of a line: blanks, a comment, and the line break or the end of the text. -/
def lineEnd : Reader Unit := do
  blanks
  comment
  if (← peek).isSome then lineBreak

/-- Consumes blanks, comments and line breaks between the values of an array. -/
def filler : Nat → Reader Unit
  | 0 => fail
  | fuel + 1 => do
    blanks
    match ← peek with
    | some '#' => do
      comment
      lineBreak
      filler fuel
    | some '\n' => do
      lineBreak
      filler fuel
    | _ => return

/-! ### Keys -/

def isBareKeyChar (c : Char) : Bool := c.isAlphanum || c = '-' || c = '_'

def keyName : Reader String := do
  match ← peek with
  | some '"' | some '\x27' => scan scanLineString
  | _ =>
    let name ← takeWhile isBareKeyChar
    if name.isEmpty then fail else return String.ofList name

/-- The names of a dotted key, with blanks around each of them. -/
def keyNames : Nat → Reader (List String)
  | 0 => fail
  | fuel + 1 => do
    blanks
    let name ← keyName
    blanks
    if ← accept '.' then
      let names ← keyNames fuel
      return name :: names
    else return [name]

/-- A dotted key: the names before the last, and the last. -/
def key : Reader (List String × String) := do
  let names ← keyNames depthLimit
  match names.getLast? with
  | some last => return (names.dropLast, last)
  | none => fail

/-! ### Values -/

def isScalarChar (c : Char) : Bool :=
  c.isAlphanum || c = '+' || c = '-' || c = '_' || c = '.' || c = ':'

/-- An unquoted value. A blank and a digit behind a date continue it with a time. -/
def scalar : Reader Item := do
  let first ← takeWhile isScalarChar
  let text ← get
  match text with
  | ' ' :: c :: _ =>
    if afterDate? first = some [] && c.isDigit then
      set (text.drop 1)
      let time ← takeWhile isScalarChar
      scalar? (first ++ ' ' :: time)
    else scalar? first
  | _ => scalar? first

mutual

/-- A value that nests at most `depth` containers. -/
def value : Nat → Nat → Reader Item
  | 0, _ => fail
  | fuel + 1, depth => do
    match ← peek with
    | some '"' | some '\x27' => return .string (← scan scanString)
    | some '[' =>
      if depth = 0 then fail
      else
        expect '['
        return .array (← arrayItems fuel (depth - 1))
    | some '\x7b' =>
      if depth = 0 then fail
      else
        expect '\x7b'
        blanks
        if ← accept '\x7d' then return .inlineTable []
        else inlineTable? (← inlinePairs fuel (depth - 1))
    | _ => scalar

def arrayItems : Nat → Nat → Reader (List Item)
  | 0, _ => fail
  | fuel + 1, depth => do
    filler fuel
    if ← accept ']' then return []
    else
      let item ← value fuel depth
      filler fuel
      if ← accept ',' then
        let items ← arrayItems fuel depth
        return item :: items
      else
        expect ']'
        return [item]

/-- The keys and values of an inline table that is not empty, up to its closing brace. -/
def inlinePairs : Nat → Nat → Reader (List (List String × String × Item))
  | 0, _ => fail
  | fuel + 1, depth => do
    let (path, name) ← key
    expect '='
    blanks
    let item ← value fuel depth
    blanks
    if ← accept ',' then
      let pairs ← inlinePairs fuel depth
      return (path, name, item) :: pairs
    else
      expect '\x7d'
      return [(path, name, item)]

end

/-! ### Statements -/

def header : Reader Statement := do
  expect '['
  if ← accept '[' then
    let (path, name) ← key
    expect ']'
    expect ']'
    return .arrayTable path name
  else
    let (path, name) ← key
    expect ']'
    return .table path name

def keyValue (fuel : Nat) : Reader Statement := do
  let (path, name) ← key
  expect '='
  blanks
  let item ← value fuel depthLimit
  return .keyValue path name item

/-- The statements up to the end of the text, after those in `found`, which are held last first. -/
def statements : Nat → List Statement → Reader (List Statement)
  | 0, _ => fail
  | fuel + 1, found => do
    blanks
    match ← peek with
    | none => return found.reverse
    | some '#' | some '\n' => do
      lineEnd
      statements fuel found
    | some '[' => do
      let statement ← header
      lineEnd
      statements fuel (statement :: found)
    | some _ => do
      let statement ← keyValue fuel
      lineEnd
      statements fuel (statement :: found)

end Reader

/-- The text with a line feed for every carriage return and line feed. Any other carriage return
stays, and no reader accepts it. -/
def unifyLineBreaks : List Char → List Char
  | '\r' :: '\n' :: rest => '\n' :: unifyLineBreaks rest
  | c :: rest => c :: unifyLineBreaks rest
  | [] => []

def dropByteOrderMark : List Char → List Char
  | c :: rest => if c = Char.ofNat 0xFEFF then rest else c :: rest
  | [] => []

def parse? (text : String) : Option Members := do
  let text := unifyLineBreaks (dropByteOrderMark text.toList)
  let (statements, _) ← Reader.statements (2 * text.length + 2) [] text
  let document ← Document.ofStatements? statements
  return document.root

end Toml

end ScenarioServer
