import ScenarioServer.Json.Token

/-!
# TOML documents and scalars

What a TOML document is put together from, and the values that are written without quotes.
-/

namespace ScenarioServer

/-!
## TOML documents

A `Statement` is one line of a TOML document: a key with its value, the header of a table, or the
header of an element of an array of tables. `Document.ofStatements?` puts the statements together
and refuses a document that defines something twice.

How a table came into being decides what may still be added to it:

* a table with a header of its own is complete with the lines below that header; it cannot have a
  second header, and dotted keys of another table cannot reach into it;
* a table implied by the header of a table below it may still get its own header, once;
* a table implied by a dotted key can be extended by further dotted keys and by headers of tables
  below it, and never gets a header of its own;
* an inline table is closed.
-/

namespace Toml

inductive Origin where
  | header
  | impliedByHeader
  | impliedByKey
deriving Repr, DecidableEq

/-- A value of a TOML document. Floats and dates are kept as written. -/
inductive Item where
  | string (value : String)
  | integer (value : Int)
  | float (literal : String)
  | boolean (value : Bool)
  | datetime (literal : String)
  | array (items : List Item)
  | inlineTable (members : List (String × Item))
  | table (origin : Origin) (members : List (String × Item))
  | tables (elements : List (List (String × Item)))
deriving Repr

abbrev Members := List (String × Item)

/-- One statement of a document. A key or the name of a table is a path of at least one name, given
as the names before the last and the last one. -/
inductive Statement where
  | keyValue (path : List String) (key : String) (value : Item)
  | table (path : List String) (name : String)
  | arrayTable (path : List String) (name : String)

def Members.replace (members : Members) (name : String) (item : Item) : Members :=
  members.map fun entry => if entry.1 = name then (name, item) else entry

/-- Applies a change to the last element of an array of tables. -/
def changeLast (change : Members → Option Members) (elements : List Members) :
    Option (List Members) :=
  match elements.getLast? with
  | none => none
  | some last => (change last).map fun changed => elements.dropLast ++ [changed]

/-- Adds a value under a dotted key. The names before the last have to lead through tables implied
by dotted keys, and the last name has to be new. On the way, but not as its end, a table implied by
a header or the last element of an array of tables may be passed. -/
def Members.insertKey (key : String) (value : Item) : List String → Members → Option Members
  | [], members =>
    if (members.lookup key).isSome then none else some (members ++ [(key, value)])
  | name :: path, members =>
    match members.lookup name with
    | none =>
      (insertKey key value path []).map fun inner => members ++ [(name, .table .impliedByKey inner)]
    | some (.table .impliedByKey inner) =>
      (insertKey key value path inner).map fun inner =>
        members.replace name (.table .impliedByKey inner)
    | some (.table .impliedByHeader inner) =>
      if path.isEmpty then none
      else (insertKey key value path inner).map fun inner =>
        members.replace name (.table .impliedByHeader inner)
    | some (.tables elements) =>
      if path.isEmpty then none
      else (changeLast (insertKey key value path) elements).map fun elements =>
        members.replace name (.tables elements)
    | some _ => none

/-- Applies a change to the table that a header path leads to, making the tables on the way. -/
def Members.change (change : Members → Option Members) : List String → Members → Option Members
  | [], members => change members
  | name :: path, members =>
    match members.lookup name with
    | none =>
      (Members.change change path []).map fun inner =>
        members ++ [(name, .table .impliedByHeader inner)]
    | some (.table origin inner) =>
      (Members.change change path inner).map fun inner => members.replace name (.table origin inner)
    | some (.tables elements) =>
      (changeLast (Members.change change path) elements).map fun elements =>
        members.replace name (.tables elements)
    | some _ => none

/-- Gives a table its header. -/
def Members.openTable (name : String) (members : Members) : Option Members :=
  match members.lookup name with
  | none => some (members ++ [(name, .table .header [])])
  | some (.table .impliedByHeader inner) => some (members.replace name (.table .header inner))
  | some _ => none

/-- Starts a further element of an array of tables. -/
def Members.openElement (name : String) (members : Members) : Option Members :=
  match members.lookup name with
  | none => some (members ++ [(name, .tables [[]])])
  | some (.tables elements) => some (members.replace name (.tables (elements ++ [[]])))
  | some _ => none

def inlineTable? (pairs : List (List String × String × Item)) : Option Item :=
  (pairs.foldlM (fun members (path, key, value) => Members.insertKey key value path members) []).map
    .inlineTable

/-- A document that is being put together: its root table and the path of the last header. -/
structure Document where
  root : Members := []
  header : List String := []

namespace Document

def add (document : Document) : Statement → Option Document
  | .keyValue path key value =>
    (document.root.change (Members.insertKey key value path) document.header).map fun root =>
      { document with root }
  | .table path name =>
    (document.root.change (Members.openTable name) path).map fun root =>
      { root, header := path ++ [name] }
  | .arrayTable path name =>
    (document.root.change (Members.openElement name) path).map fun root =>
      { root, header := path ++ [name] }

/-- The document that a list of statements makes, unless it defines something twice. -/
def ofStatements? (statements : List Statement) : Option Document :=
  statements.foldlM add {}

end Document

/-!
## Numbers, dates and words

A value that is neither a string nor a container is written without blanks, except for the one that
may stand between a date and a time. `scalar?` reads such a text as a whole: a truth value, an
integer, a float, or a date and time. Integers have 64 bits. A float may not be too large to
represent, unless it is negative.
-/

/-! ### Digits -/

/-- Decimal digits with single underscores between digits, without the underscores. -/
def digitGroup? (isDigit : Char → Bool) : List Char → Option (List Char)
  | [] => none
  | [c] => if isDigit c then some [c] else none
  | c :: '_' :: rest => if isDigit c then (digitGroup? isDigit rest).map (c :: ·) else none
  | c :: rest => if isDigit c then (digitGroup? isDigit rest).map (c :: ·) else none

def digitsValue (base : Nat) (digits : List Char) : Nat :=
  digits.foldl (fun n c => n * base + (Json.hexValue? c).getD 0) 0

def isDigitOf (base : Nat) (c : Char) : Bool := (Json.hexValue? c).any (· < base)

/-- Splits off the sign of a number. The flag tells a negative one. -/
def splitSign : List Char → Bool × List Char
  | '+' :: rest => (false, rest)
  | '-' :: rest => (true, rest)
  | text => (false, text)

/-- The digits of a decimal integer without leading zeros. -/
def decimalDigits? (text : List Char) : Option (List Char) :=
  match digitGroup? Char.isDigit text with
  | some ('0' :: _ :: _) => none
  | digits => digits

/-! ### Integers -/

def maxInteger : Nat := 0x7FFFFFFFFFFFFFFF

/-- An integer in base 16, 8 or 2, or a decimal one with an optional sign. -/
def integer? (text : List Char) : Option Int :=
  let based (base : Nat) (digits : List Char) : Option Int :=
    (digitGroup? (isDigitOf base) digits).bind fun digits =>
      let value := digitsValue base digits
      if value ≤ maxInteger then some value else none
  match text with
  | '0' :: 'x' :: digits => based 16 digits
  | '0' :: 'o' :: digits => based 8 digits
  | '0' :: 'b' :: digits => based 2 digits
  | text =>
    let (negative, text) := splitSign text
    (decimalDigits? text).bind fun digits =>
      let value := digitsValue 10 digits
      if negative then (if value ≤ maxInteger + 1 then some (-(value : Int)) else none)
      else (if value ≤ maxInteger then some value else none)

/-! ### Floats -/

/-- Whether `digits · 10 ^ exponent` is too large for a double. Digits and exponent are compared in
size first, so that no huge power is computed. -/
def tooLarge (digits : List Char) (exponent : Int) : Bool :=
  let significand := digitsValue 10 digits
  let limit := Nat.pow 2 1024 - Nat.pow 2 970
  if significand = 0 then false
  else if exponent + (digits.length : Int) < 300 then false
  else if exponent > 400 then true
  else if exponent ≥ 0 then significand * Nat.pow 10 exponent.toNat ≥ limit
  else significand ≥ limit * Nat.pow 10 (-exponent).toNat

def exponent? (text : List Char) : Option Int :=
  let (negative, text) := splitSign text
  (digitGroup? Char.isDigit text).map fun digits =>
    let value : Int := digitsValue 10 digits
    if negative then -value else value

def isExponentMark (c : Char) : Bool := c = 'e' || c = 'E'

/-- Whether a text is a float: a decimal integer with a fraction, an exponent or both, or one of the
words for infinity and for an undefined value. -/
def isFloat (text : List Char) : Bool :=
  let (negative, body) := splitSign text
  if body = ['i', 'n', 'f'] || body = ['n', 'a', 'n'] then true
  else
    let mantissa := body.takeWhile fun c => !isExponentMark c
    let hasExponent := body.any isExponentMark
    let exponent := if hasExponent then
        exponent? ((body.dropWhile fun c => !isExponentMark c).drop 1)
      else some 0
    let whole := mantissa.takeWhile (· ≠ '.')
    let hasFraction := mantissa.contains '.'
    let fraction := if hasFraction then
        digitGroup? Char.isDigit ((mantissa.dropWhile (· ≠ '.')).drop 1)
      else some []
    match decimalDigits? whole, fraction, exponent with
    | some whole, some fraction, some exponent =>
      (hasFraction || hasExponent) &&
        (negative || !tooLarge (whole ++ fraction) (exponent - fraction.length))
    | _, _, _ => false

/-! ### Dates and times -/

/-- The value of exactly `count` digits at the start of a text, and the rest. -/
def fixedDigits? (count : Nat) (text : List Char) : Option (Nat × List Char) :=
  let digits := text.take count
  if digits.length = count && digits.all Char.isDigit then
    some (digitsValue 10 digits, text.drop count)
  else none

def daysInMonth (year month : Nat) : Nat :=
  if month = 2 then
    if (year % 4 = 0 && year % 100 ≠ 0) || year % 400 = 0 then 29 else 28
  else if [4, 6, 9, 11].contains month then 30
  else 31

def afterDate? (text : List Char) : Option (List Char) := do
  let (year, text) ← fixedDigits? 4 text
  let text ← if text.head? = some '-' then some (text.drop 1) else none
  let (month, text) ← fixedDigits? 2 text
  let text ← if text.head? = some '-' then some (text.drop 1) else none
  let (day, text) ← fixedDigits? 2 text
  if 1 ≤ month && month ≤ 12 && 1 ≤ day && day ≤ daysInMonth year month then some text else none

def afterMinutes? (text : List Char) : Option (List Char) := do
  let (hour, text) ← fixedDigits? 2 text
  let text ← if text.head? = some ':' then some (text.drop 1) else none
  let (minute, text) ← fixedDigits? 2 text
  if hour ≤ 23 && minute ≤ 59 then some text else none

/-- The text behind a time of day, with its fraction of a second. -/
def afterTime? (text : List Char) : Option (List Char) := do
  let text ← afterMinutes? text
  let text ← if text.head? = some ':' then some (text.drop 1) else none
  let (second, text) ← fixedDigits? 2 text
  if second > 60 then none
  else match text with
    | '.' :: fraction =>
      if fraction.head?.any Char.isDigit then some (fraction.dropWhile Char.isDigit) else none
    | text => some text

/-- Whether a text is nothing or the offset of a time from universal time. -/
def isOffset : List Char → Bool
  | [] => true
  | sign :: rest =>
    if sign = 'Z' || sign = 'z' then rest.isEmpty
    else (sign = '+' || sign = '-') && afterMinutes? rest = some []

/-- Whether a text is a date, a time of day, or a date with a time of day and perhaps an offset. -/
def isDatetime (text : List Char) : Bool :=
  match afterDate? text with
  | some [] => true
  | some (mark :: rest) =>
    (mark = 'T' || mark = 't' || mark = ' ') && (afterTime? rest).any isOffset
  | none => afterTime? text = some []

/-! ### All of them -/

def scalar? (text : List Char) : Option Item :=
  if text = ['t', 'r', 'u', 'e'] then some (.boolean true)
  else if text = ['f', 'a', 'l', 's', 'e'] then some (.boolean false)
  else match integer? text with
    | some value => some (.integer value)
    | none =>
      if isFloat text then some (.float (String.ofList text))
      else if isDatetime text then some (.datetime (String.ofList text))
      else none

end Toml

end ScenarioServer
