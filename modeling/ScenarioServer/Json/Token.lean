/-!
# JSON numbers and tokens

The first stage of reading JSON: a text becomes a list of tokens, and number literals get a meaning.
-/

namespace ScenarioServer

/-!
## JSON numbers

A number is read in two stages. `NumberLiteral` is what the text holds, digit by digit, and any
literal of the right form is one. `Number.ofLiteral?` then decides what it denotes: an integer
written without point and exponent is exact as long as it fits 64 bits, every other literal is a
real number, and a real number too large for a double is refused.

The size of a real number is judged the way a reader with a 64-bit significand sees it: digits that
no longer fit the significand only shift the exponent, and significand and power of ten are each
rounded to a double before they are multiplied.
-/

namespace Json

/-- A number as it is written: sign, integer digits, and the digits of fraction and exponent if it
has them. -/
structure NumberLiteral where
  negative : Bool
  whole : List Nat
  fraction : Option (List Nat) := none
  exponent : Option (Bool × List Nat) := none
deriving Repr, DecidableEq

inductive Number where
  /-- An integer from 0 to the largest 64-bit word. -/
  | natural (value : Nat)
  /-- The integer `-value`, from -1 down to the least signed 64-bit integer. -/
  | negative (value : Nat)
  /-- Any other number. -/
  | real (literal : NumberLiteral)
deriving Repr, DecidableEq

def maxWord : Nat := 0xFFFFFFFFFFFFFFFF

def digitsValue (digits : List Nat) : Nat := digits.foldl (fun n d => n * 10 + d) 0

namespace NumberLiteral

/-! ### Size of a real number -/

/-- The integer digits as a significand within 64 bits and a decimal shift: once the significand is
full, each further digit shifts by one. -/
def wholePart (digits : List Nat) : Nat × Nat :=
  digits.foldl (fun (sig, shift) d =>
    if shift = 0 ∧ sig * 10 + d ≤ maxWord then (sig * 10 + d, 0) else (sig, shift + 1)) (0, 0)

/-- Extends a significand by the digits of a fraction as far as they fit, and counts them. -/
def fractionPart (sig count : Nat) : List Nat → Nat × Nat
  | [] => (sig, count)
  | d :: rest =>
    if sig * 10 + d ≤ maxWord then fractionPart (sig * 10 + d) (count + 1) rest else (sig, count)

def scaled (n : NumberLiteral) : Nat × Int :=
  let (whole, shift) := wholePart n.whole
  let (sig, count) := fractionPart whole 0 (n.fraction.getD [])
  let written : Int := match n.exponent with
    | none => 0
    | some (true, digits) => -(digitsValue digits : Int)
    | some (false, digits) => digitsValue digits
  (sig, (shift : Int) - count + written)

/-- The nearest integer with at most 53 significant bits, ties to even. -/
def roundToDouble (n : Nat) : Nat :=
  let excess := n.log2 + 1 - 53
  if excess = 0 then n
  else
    let unit := Nat.pow 2 excess
    let kept := n / unit
    let rest := n % unit
    let up := 2 * rest > unit || (2 * rest = unit && kept % 2 = 1)
    (if up then kept + 1 else kept) * unit

/-- Whether the magnitude of a literal is beyond the largest double. -/
def overflows (n : NumberLiteral) : Bool :=
  let (sig, exponent) := n.scaled
  if sig = 0 then false
  else if exponent > 308 then true
  else if exponent < 0 then false
  else roundToDouble sig * roundToDouble (Nat.pow 10 exponent.toNat) ≥ Nat.pow 2 1024 - Nat.pow 2 970

end NumberLiteral

/-- The number that a literal denotes, unless it is too large for a double. -/
def Number.ofLiteral? (n : NumberLiteral) : Option Number :=
  let value := digitsValue n.whole
  match n.fraction, n.exponent with
  | none, none =>
    if !n.negative && value ≤ maxWord then some (.natural value)
    else if n.negative && 0 < value && value ≤ 0x8000000000000000 then some (.negative value)
    else if n.overflows then none else some (.real n)
  | _, _ => if n.overflows then none else some (.real n)

/-- The number as an unsigned 64-bit integer, if it is written as one. -/
def Number.natural? : Number → Option Nat
  | .natural value => some value
  | _ => none

/-!
## JSON tokens

Cuts a JSON text into its tokens. Blanks are the space, the tab, the line feed and the carriage
return, and nothing else; there are no comments.

A string token keeps its text only if the text is sound: a surrogate escape without its partner
leaves a string that cannot be represented, which matters only to a reader that wants the string.
-/

/-- A token of a JSON text. A string with an unpaired surrogate escape has no value. -/
inductive Token where
  | openBracket
  | closeBracket
  | openBrace
  | closeBrace
  | comma
  | colon
  | null
  | bool (value : Bool)
  | number (literal : NumberLiteral)
  | string (value : Option String)
deriving Repr, DecidableEq

/-- Whether a character separates tokens without being part of one. -/
def isBlank (c : Char) : Bool := c = ' ' || c = '\t' || c = '\n' || c = '\r'

def hexValue? (c : Char) : Option Nat :=
  if '0' ≤ c ∧ c ≤ '9' then some (c.toNat - '0'.toNat)
  else if 'a' ≤ c ∧ c ≤ 'f' then some (c.toNat - 'a'.toNat + 10)
  else if 'A' ≤ c ∧ c ≤ 'F' then some (c.toNat - 'A'.toNat + 10)
  else none

/-! ### Strings -/

/-- What has been read of a string: its characters, the last one first; a high surrogate that waits
for its partner; and whether every surrogate so far had one. -/
structure StringScan where
  chars : List Char := []
  pending : Option Nat := none
  sound : Bool := true
deriving Repr, DecidableEq

namespace StringScan

/-- Adds a character. A surrogate that still waits stays without a partner. -/
def push (scan : StringScan) (c : Char) : StringScan :=
  { chars := c :: scan.chars, pending := none, sound := scan.sound && scan.pending.isNone }

/-- Adds a UTF-16 code unit, joining a surrogate pair into one character. -/
def pushUnit (scan : StringScan) (unit : Nat) : StringScan :=
  if 0xD800 ≤ unit ∧ unit < 0xDC00 then
    { scan with pending := some unit, sound := scan.sound && scan.pending.isNone }
  else if 0xDC00 ≤ unit ∧ unit < 0xE000 then
    match scan.pending with
    | some high =>
      { scan with
        chars := Char.ofNat (0x10000 + (high - 0xD800) * 0x400 + (unit - 0xDC00)) :: scan.chars
        pending := none }
    | none => { scan with sound := false }
  else scan.push (Char.ofNat unit)

/-- The text of a finished string, if it is sound. -/
def value? (scan : StringScan) : Option String :=
  if scan.sound && scan.pending.isNone then some (String.ofList scan.chars.reverse) else none

end StringScan

/-- Where a string scan stands: between characters, behind a backslash, or inside the four digits of
a code unit with the value of those read so far. -/
inductive StringPhase where
  | plain
  | escape
  | unit (read : Nat) (value : Nat)
deriving Repr, DecidableEq

def simpleEscape? : Char → Option Char
  | '"' => some '"'
  | '\\' => some '\\'
  | '/' => some '/'
  | 'b' => some '\x08'
  | 'f' => some '\x0c'
  | 'n' => some '\n'
  | 'r' => some '\r'
  | 't' => some '\t'
  | _ => none

/-- Reads a string whose opening quote has been read, and returns the rest of the text. -/
def scanString : StringPhase → StringScan → List Char → Option (StringScan × List Char)
  | _, _, [] => none
  | .plain, scan, c :: rest =>
    if c = '"' then some (scan, rest)
    else if c = '\\' then scanString .escape scan rest
    else if c.toNat < 0x20 then none
    else scanString .plain (scan.push c) rest
  | .escape, scan, c :: rest =>
    if c = 'u' then scanString (.unit 0 0) scan rest
    else match simpleEscape? c with
      | some e => scanString .plain (scan.push e) rest
      | none => none
  | .unit read value, scan, c :: rest =>
    match hexValue? c with
    | none => none
    | some d =>
      if read = 3 then scanString .plain (scan.pushUnit (value * 16 + d)) rest
      else scanString (.unit (read + 1) (value * 16 + d)) scan rest

/-! ### Numbers -/

def takeDigits (text : List Char) : List Nat × List Char :=
  ((text.takeWhile Char.isDigit).map fun c => c.toNat - '0'.toNat, text.dropWhile Char.isDigit)

/-- The integer part: a zero alone, or digits that start with another digit. -/
def scanWhole (text : List Char) : Option (List Nat × List Char) :=
  match takeDigits text with
  | ([], _) => none
  | (0 :: _ :: _, _) => none
  | found => some found

/-- The fraction: a point and at least one digit. -/
def scanFraction : List Char → Option (Option (List Nat) × List Char)
  | '.' :: rest =>
    match takeDigits rest with
    | ([], _) => none
    | (digits, rest) => some (some digits, rest)
  | text => some (none, text)

/-- The exponent: its mark, an optional sign and at least one digit. The flag tells a negative one. -/
def scanExponent : List Char → Option (Option (Bool × List Nat) × List Char)
  | [] => some (none, [])
  | c :: rest =>
    if c = 'e' || c = 'E' then
      let (negative, rest) := match rest with
        | '+' :: rest => (false, rest)
        | '-' :: rest => (true, rest)
        | rest => (false, rest)
      match takeDigits rest with
      | ([], _) => none
      | (digits, rest) => some (some (negative, digits), rest)
    else some (none, c :: rest)

def scanNumber (text : List Char) : Option (NumberLiteral × List Char) := do
  let (negative, text) := match text with
    | '-' :: rest => (true, rest)
    | rest => (false, rest)
  let (whole, text) ← scanWhole text
  let (fraction, text) ← scanFraction text
  let (exponent, text) ← scanExponent text
  return ({ negative, whole, fraction, exponent }, text)

/-! ### The token list -/

/-- Reads one token off a text that starts with `c`. -/
def scanToken (c : Char) (rest : List Char) : Option (Token × List Char) :=
  match c with
  | '[' => some (.openBracket, rest)
  | ']' => some (.closeBracket, rest)
  | '\x7b' => some (.openBrace, rest)
  | '\x7d' => some (.closeBrace, rest)
  | ',' => some (.comma, rest)
  | ':' => some (.colon, rest)
  | '"' => (scanString .plain {} rest).map fun (scan, rest) => (.string scan.value?, rest)
  | 'n' => if rest.take 3 = ['u', 'l', 'l'] then some (.null, rest.drop 3) else none
  | 't' => if rest.take 3 = ['r', 'u', 'e'] then some (.bool true, rest.drop 3) else none
  | 'f' => if rest.take 4 = ['a', 'l', 's', 'e'] then some (.bool false, rest.drop 4) else none
  | c => (scanNumber (c :: rest)).map fun (literal, rest) => (.number literal, rest)

/-- Appends the tokens of a text to those read so far, which are held last first. Each round reads a
blank or a token, so the length of the text is enough fuel. -/
def tokensFrom : Nat → List Token → List Char → Option (List Token)
  | _, found, [] => some found.reverse
  | 0, _, _ :: _ => none
  | fuel + 1, found, c :: rest =>
    if isBlank c then tokensFrom fuel found rest
    else match scanToken c rest with
      | some (token, rest) => tokensFrom fuel (token :: found) rest
      | none => none

def tokens (text : List Char) : Option (List Token) := tokensFrom text.length [] text

end Json

end ScenarioServer
