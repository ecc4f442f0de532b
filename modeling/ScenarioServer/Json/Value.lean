import ScenarioServer.Json.Token

/-!
# JSON documents and values

A list of tokens becomes a document, a document a value, and a value a text again.
-/

namespace ScenarioServer

/-!
## JSON documents as written

A `Node` is a JSON document before anyone has asked what it means: members stay in order with
repeated names, number literals are not judged, and a string with an unpaired surrogate escape has
no value. A reader that ignores a part of the document accepts any node there.

The reader keeps the open arrays and objects on a stack of its own, so nesting has no limit here.
Limits and the treatment of repeated names belong to the readers of nodes.
-/

namespace Json

inductive Node where
  | null
  | bool (value : Bool)
  | number (literal : NumberLiteral)
  | string (value : Option String)
  | array (items : List Node)
  | object (members : List (Option String × Node))
deriving Repr

namespace Node

/-- An array or object that is still open: what it holds so far, the last one first, and for an
object the name whose value is awaited. -/
inductive Frame where
  | array (items : List Node)
  | object (members : List (Option String × Node)) (name : Option String)

/-- What may come next. -/
inductive Expected where
  | value
  /-- The first item of an array, or its end. -/
  | itemOrEnd
  /-- The first name of an object, or its end. -/
  | nameOrEnd
  | name
  | colon
  /-- A comma or the end of the innermost open array or object. -/
  | commaOrEnd
  /-- Nothing: the document is complete. -/
  | nothing
deriving Repr, DecidableEq

/-- The state of the reader: the open frames, innermost first, what may come next, and the document
once it is complete. -/
structure Reading where
  stack : List Frame := []
  expected : Expected := .value
  result : Option Node := none

namespace Reading

/-- Hands a complete value to the innermost open frame. -/
def deliver (stack : List Frame) (value : Node) : Reading :=
  match stack with
  | [] => { expected := .nothing, result := some value }
  | .array items :: outer => { stack := .array (value :: items) :: outer, expected := .commaOrEnd }
  | .object members name :: outer =>
    { stack := .object ((name, value) :: members) name :: outer, expected := .commaOrEnd }

def startValue (stack : List Frame) : Token → Option Reading
  | .null => some (deliver stack .null)
  | .bool value => some (deliver stack (.bool value))
  | .number literal => some (deliver stack (.number literal))
  | .string value => some (deliver stack (.string value))
  | .openBracket => some { stack := .array [] :: stack, expected := .itemOrEnd }
  | .openBrace => some { stack := .object [] none :: stack, expected := .nameOrEnd }
  | _ => none

/-- Closes the innermost open frame, which the token has to match. -/
def close : List Frame → Token → Option Reading
  | .array items :: outer, .closeBracket => some (deliver outer (.array items.reverse))
  | .object members _ :: outer, .closeBrace => some (deliver outer (.object members.reverse))
  | _, _ => none

def startMember : List Frame → Token → Option Reading
  | .object members _ :: outer, .string name =>
    some { stack := .object members name :: outer, expected := .colon }
  | _, _ => none

/-- Reads what follows a comma: another item or another name. -/
def afterComma (stack : List Frame) : Reading :=
  match stack with
  | .object _ _ :: _ => { stack, expected := .name }
  | _ => { stack, expected := .value }

def step (r : Reading) (token : Token) : Option Reading :=
  match r.expected with
  | .value => startValue r.stack token
  | .itemOrEnd => (close r.stack token).or (startValue r.stack token)
  | .nameOrEnd => (close r.stack token).or (startMember r.stack token)
  | .name => startMember r.stack token
  | .colon => if token = .colon then some { r with expected := .value } else none
  | .commaOrEnd => if token = .comma then some (afterComma r.stack) else close r.stack token
  | .nothing => none

end Reading

def ofTokens? (tokens : List Token) : Option Node :=
  (tokens.foldlM Reading.step {}).bind Reading.result

def parse? (text : String) : Option Node := (tokens text.toList).bind ofTokens?

/-! ### Records -/

/-- The names of an object's members, if each of them can be represented. -/
def memberNames? (members : List (Option String × Node)) : Option (List (String × Node)) :=
  members.mapM fun (name, value) => name.map (·, value)

/-- The fields of a record, in the order of `names`. A record is an object, in which unknown members
are ignored and a known one appears at most once, or an array with the fields in order, from which
trailing ones may be missing. -/
def fields? (names : List String) : Node → Option (List (Option Node))
  | .object members => do
    let members ← memberNames? members
    if names.all fun name => (members.filter (·.1 = name)).length ≤ 1 then
      return names.map fun name => members.lookup name
    else none
  | .array items =>
    if items.length ≤ names.length then
      some (items.map some ++ List.replicate (names.length - items.length) none)
    else none
  | _ => none

def text? : Node → Option String
  | .string value => value
  | _ => none

/-- The value of an unsigned integer below `bound`. -/
def natural? (bound : Nat) : Node → Option Nat
  | .number literal =>
    match Number.ofLiteral? literal with
    | some (.natural value) => if value < bound then some value else none
    | _ => none
  | _ => none

end Node

/-!
## JSON values

A `Value` is a JSON document with its meaning: numbers are judged, strings are sound, and of
repeated names in an object the last one counts. A document is read as a value only if it nests at
most `nestingLimit` arrays and objects.
-/

/-- A JSON value. The names of an object's members are distinct. -/
inductive Value where
  | null
  | bool (value : Bool)
  | number (value : Number)
  | string (value : String)
  | array (items : List Value)
  | object (members : List (String × Value))
deriving Repr

namespace Value

/-- How many arrays and objects a document that is read as a value may nest. -/
def nestingLimit : Nat := 127

/-- Sets a member, replacing an earlier one of the same name. -/
def setMember (members : List (String × Value)) (name : String) (value : Value) :
    List (String × Value) :=
  members.filter (·.1 ≠ name) ++ [(name, value)]

/-- The value of a document that nests at most `depth` arrays and objects. -/
def ofNode? (depth : Nat) : Node → Option Value
  | .null => some .null
  | .bool value => some (.bool value)
  | .number literal => (Number.ofLiteral? literal).map .number
  | .string value => value.map .string
  | .array items =>
    match depth with
    | 0 => none
    | depth + 1 => (items.mapM (ofNode? depth)).map .array
  | .object members =>
    match depth with
    | 0 => none
    | depth + 1 => do
      let members ← members.mapM fun (name, value) => do
        return (← name, ← ofNode? depth value)
      return .object (members.foldl (fun found (name, value) => setMember found name value) [])

def parse? (text : String) : Option Value := (Node.parse? text).bind (ofNode? nestingLimit)

/-! ### Access -/

/-- The member of an object with the given name; other values have none. -/
def get? (value : Value) (name : String) : Option Value :=
  match value with
  | .object members => members.lookup name
  | _ => none

/-- The value as an unsigned 64-bit integer, if it is written as one. -/
def natural? : Value → Option Nat
  | .number n => n.natural?
  | _ => none

/-- The value as an integer, if it is written as one and fits 64 bits. -/
def integer? : Value → Option Int
  | .number (.natural n) => some n
  | .number (.negative n) => some (-(n : Int))
  | _ => none

def text? : Value → Option String
  | .string text => some text
  | _ => none

def items? : Value → Option (List Value)
  | .array items => some items
  | _ => none

def members? : Value → Option (List (String × Value))
  | .object members => some members
  | _ => none

def bool? : Value → Option Bool
  | .bool value => some value
  | _ => none

end Value

def Value.ofNat (n : Nat) : Value := .number (.natural n)

def Value.ofInt : Int → Value
  | .ofNat n => .number (.natural n)
  | .negSucc n => .number (.negative (n + 1))

/-!
## Printing JSON

Two layouts of a value as text: `compact` without any blank, and `pretty` with one item or member
per line and two spaces of indentation per level. Strings are written with the short escapes where
JSON has one, other control characters as `\u` escapes, and everything else as it is.
-/

/-- The hexadecimal digit of a value below 16, in lower case. -/
def hexDigit (n : Nat) : Char :=
  if n < 10 then Char.ofNat ('0'.toNat + n) else Char.ofNat ('a'.toNat + (n - 10))

/-- A character inside a quoted string. -/
def escapeChar (c : Char) : List Char :=
  if c = '"' then ['\\', '"']
  else if c = '\\' then ['\\', '\\']
  else if c = '\x08' then ['\\', 'b']
  else if c = '\x0c' then ['\\', 'f']
  else if c = '\n' then ['\\', 'n']
  else if c = '\r' then ['\\', 'r']
  else if c = '\t' then ['\\', 't']
  else if c.toNat < 0x20 then ['\\', 'u', '0', '0', hexDigit (c.toNat / 16), hexDigit (c.toNat % 16)]
  else [c]

def quote (text : String) : String :=
  String.ofList ('"' :: text.toList.flatMap escapeChar ++ ['"'])

def digitsText (digits : List Nat) : String := String.join (digits.map Nat.repr)

/-- A number literal as it was written. -/
def NumberLiteral.text (n : NumberLiteral) : String :=
  let sign := if n.negative then "-" else ""
  let fraction := match n.fraction with
    | some digits => "." ++ digitsText digits
    | none => ""
  let exponent := match n.exponent with
    | some (negative, digits) => (if negative then "e-" else "e") ++ digitsText digits
    | none => ""
  sign ++ digitsText n.whole ++ fraction ++ exponent

def Number.text : Number → String
  | .natural value => Nat.repr value
  | .negative value => "-" ++ Nat.repr value
  | .real literal => literal.text

mutual

/-- A value without blanks. -/
def compact : Value → String
  | .null => "null"
  | .bool true => "true"
  | .bool false => "false"
  | .number n => n.text
  | .string text => quote text
  | .array items => "[" ++ String.intercalate "," (compactItems items) ++ "]"
  | .object members => "\x7b" ++ String.intercalate "," (compactMembers members) ++ "\x7d"

def compactItems : List Value → List String
  | [] => []
  | value :: rest => compact value :: compactItems rest

def compactMembers : List (String × Value) → List String
  | [] => []
  | (name, value) :: rest => (quote name ++ ":" ++ compact value) :: compactMembers rest

end

/-- A list of lines between brackets, indented one level deeper than `indent`; brackets without
lines stand together. -/
def block (opening closing indent : String) (lines : List String) : String :=
  if lines.isEmpty then opening ++ closing
  else
    let inner := indent ++ "  "
    opening ++ "\n" ++ String.intercalate ",\n" (lines.map (inner ++ ·)) ++ "\n" ++ indent ++ closing

mutual

/-- A value with one item or member per line, whose first line is already indented by `indent`. -/
def pretty (indent : String) : Value → String
  | .array items => block "[" "]" indent (prettyItems (indent ++ "  ") items)
  | .object members => block "\x7b" "\x7d" indent (prettyMembers (indent ++ "  ") members)
  | value => compact value

def prettyItems (indent : String) : List Value → List String
  | [] => []
  | value :: rest => pretty indent value :: prettyItems indent rest

def prettyMembers (indent : String) : List (String × Value) → List String
  | [] => []
  | (name, value) :: rest => (quote name ++ ": " ++ pretty indent value) :: prettyMembers indent rest

end

end Json

end ScenarioServer
