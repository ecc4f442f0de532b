import ScenarioServer.Json.Token
import ScenarioServer.Text.Position
import ScenarioServer.Uri.Basic

/-!
# Hosts

The normal form of the host of a URI: addresses, domain names in ASCII form, and opaque hosts.
-/

namespace ScenarioServer

/-!
## Numeric hosts

A host whose last label is a number is an IPv4 address. It has up to four parts, each decimal, octal
(after a zero) or hexadecimal (after `0x`); the last part fills the bytes that the others leave. A
host in square brackets is an IPv6 address, written back with its longest run of two or more zero
groups abbreviated.
-/

namespace Uri

/-! ### IPv4 -/

/-- The value of a text of digits in the given base, if it has only such digits. -/
def digitsIn? (base : Nat) (text : List Char) : Option Nat :=
  text.foldlM (fun n c =>
    match Json.hexValue? c with
    | some d => if d < base then some (n * base + d) else none
    | none => none) 0

def ipv4Part? : List Char → Option Nat
  | [] => none
  | '0' :: x :: rest =>
    if x = 'x' || x = 'X' then digitsIn? 16 rest else digitsIn? 8 (x :: rest)
  | part => digitsIn? 10 part

/-- The labels of a domain without the empty one behind a final point. -/
def labels (domain : List Char) : List (List Char) :=
  let parts := Text.splitWhere (· = '.') domain
  if parts.length > 1 && parts.getLast? = some [] then parts.dropLast else parts

/-- Whether the last label of a domain is a number, so that the domain has to be an IPv4 address. -/
def endsInNumber (domain : List Char) : Bool :=
  match (labels domain).getLast? with
  | some last => (!last.isEmpty && last.all Char.isDigit) || (ipv4Part? last).isSome
  | none => false

def ipv4? (domain : List Char) : Option (List Nat) := do
  let parts := labels domain
  if parts.length > 4 then none
  else
    let numbers ← parts.mapM ipv4Part?
    let last ← numbers.getLast?
    let leading := numbers.dropLast
    if last ≥ Nat.pow 256 (4 - leading.length) || leading.any (· > 255) then none
    else
      let value := leading.zipIdx.foldl (fun value (n, i) => value + n * Nat.pow 256 (3 - i)) last
      return [value / 0x1000000 % 256, value / 0x10000 % 256, value / 256 % 256, value % 256]

def ipv4Text (bytes : List Nat) : List Char := (String.intercalate "." (bytes.map Nat.repr)).toList

/-! ### IPv6 -/

/-- The four decimal numbers that may end an IPv6 address, as two groups. -/
def embeddedIpv4? (text : List Char) : Option (List Nat) := do
  let parts := Text.splitWhere (· = '.') text
  let numbers ← parts.mapM fun part =>
    match part with
    | [] => none
    | '0' :: _ :: _ => none
    | part => (digitsIn? 10 part).bind fun n => if n ≤ 255 then some n else none
  match numbers with
  | [a, b, c, d] => some [a * 256 + b, c * 256 + d]
  | _ => none

/-- One group of an IPv6 address: one to four hexadecimal digits. -/
def ipv6Group? (text : List Char) : Option Nat :=
  if text.isEmpty || text.length > 4 then none else digitsIn? 16 text

/-- The groups of a part of an IPv6 address; the last one may be an IPv4 address. -/
def ipv6Groups? : List (List Char) → Option (List Nat)
  | [] => some []
  | [last] => if last.contains '.' then embeddedIpv4? last else (ipv6Group? last).map ([·])
  | first :: rest => do return (← ipv6Group? first) :: (← ipv6Groups? rest)

/-- The text before and behind the first `::`, if there is one. -/
def splitAbbreviation : List Char → Option (List Char × List Char)
  | ':' :: ':' :: rest => some ([], rest)
  | c :: rest => (splitAbbreviation rest).map fun (before, after) => (c :: before, after)
  | [] => none

/-- The groups of a colon-separated text, which may be empty. -/
def ipv6Part? (text : List Char) : Option (List Nat) :=
  if text.isEmpty then some [] else ipv6Groups? (Text.splitWhere (· = ':') text)

def ipv6? (text : List Char) : Option (List Nat) :=
  match splitAbbreviation text with
  | none => (ipv6Part? text).bind fun groups => if groups.length = 8 then some groups else none
  | some (before, after) => do
    if before.contains '.' then none
    else
      let head ← ipv6Part? before
      let tail ← ipv6Part? after
      if head.length + tail.length ≤ 7 then
        return head ++ List.replicate (8 - head.length - tail.length) 0 ++ tail
      else none

def zeroRun (groups : List Nat) : Nat := (groups.takeWhile (· = 0)).length

/-- Start and length of the first longest run of at least two zero groups. -/
def longestZeroRun (groups : List Nat) : Option (Nat × Nat) :=
  (List.range groups.length).foldl (fun best start =>
    let length := zeroRun (groups.drop start)
    if length ≥ 2 && length > (best.map (·.2)).getD 0 then some (start, length) else best) none

/-- A group in lower-case hexadecimal digits without leading zeros. -/
def groupText (group : Nat) : String := String.ofList (Nat.toDigits 16 group)

/-- An IPv6 address in its usual form, without the brackets. -/
def ipv6Text (groups : List Nat) : List Char :=
  let join (part : List Nat) := String.intercalate ":" (part.map groupText)
  match longestZeroRun groups with
  | none => (join groups).toList
  | some (start, length) =>
    (join (groups.take start) ++ "::" ++ join (groups.drop (start + length))).toList

/-!
## Labels beyond ASCII

A domain label with characters beyond ASCII is written in ASCII: `xn--`, the label's ASCII
characters, a hyphen if there are any, and the other characters as a list of differences in a
base of 36 with digit weights that adapt to the size of the previous difference.

The encoder visits the distinct code points beyond ASCII in increasing order, so it needs no bound
on its rounds; the digits of a difference end because each one divides what is left.
-/

namespace Punycode

/-- The character of a digit: letters for 0 to 25, decimal digits for 26 to 35. -/
def digitChar (d : Nat) : Char :=
  if d < 26 then Char.ofNat ('a'.toNat + d) else Char.ofNat ('0'.toNat + (d - 26))

/-- The least digit that does not end a number, at position `k` under the given bias. -/
def threshold (k bias : Nat) : Nat :=
  if k ≤ bias then 1 else if bias + 26 ≤ k then 26 else k - bias

theorem threshold_pos (k bias : Nat) : 0 < threshold k bias := by
  unfold threshold; split <;> try split
  all_goals omega

/-- The digits of a difference, from position `k` on. -/
def digits (bias k difference : Nat) : List Char :=
  let t := threshold k bias
  if difference < t then [digitChar difference]
  else
    digitChar (t + (difference - t) % (36 - t)) :: digits bias (k + 36) ((difference - t) / (36 - t))
termination_by difference
decreasing_by
  have ht := threshold_pos k bias
  exact Nat.lt_of_le_of_lt (Nat.div_le_self _ _) (by omega)

/-- Divides a difference down to the range of one digit and counts the positions that takes. -/
def reduce (difference positions : Nat) : Nat × Nat :=
  if difference > 455 then reduce (difference / 35) (positions + 36) else (difference, positions)
termination_by difference
decreasing_by omega

/-- The bias after a difference, when `count` characters have been placed. -/
def adapt (difference count : Nat) (first : Bool) : Nat :=
  let scaled := if first then difference / 700 else difference / 2
  let (rest, positions) := reduce (scaled + scaled / count) 0
  positions + 36 * rest / (rest + 38)

structure Encoding where
  output : List Char
  difference : Nat := 0
  bias : Nat := 72
  placed : Nat

/-- Visits one character of the label in the round of the code point `code`. -/
def Encoding.visit (basic code : Nat) (e : Encoding) (c : Char) : Encoding :=
  if c.toNat < code then { e with difference := e.difference + 1 }
  else if c.toNat = code then
    { output := e.output ++ digits e.bias 36 e.difference
      difference := 0
      bias := adapt e.difference (e.placed + 1) (e.placed = basic)
      placed := e.placed + 1 }
  else e

/-- The rounds of the encoder, one for each code point; `next` is the least one not yet placed. -/
def rounds (label : List Char) (basic : Nat) : List Nat → Nat → Encoding → Encoding
  | [], _, e => e
  | code :: codes, next, e =>
    let e := { e with difference := e.difference + (code - next) * (e.placed + 1) }
    let e := label.foldl (Encoding.visit basic code) e
    rounds label basic codes (code + 1) { e with difference := e.difference + 1 }

def encodeLabel (label : List Char) : List Char :=
  let basic := label.filter (·.toNat < 0x80)
  if basic.length = label.length then label
  else
    let codes := ((label.filter (·.toNat ≥ 0x80)).map Char.toNat).eraseDups.mergeSort
    let start := if basic.isEmpty then [] else basic ++ ['-']
    let e := rounds label basic.length codes 0x80 { output := start, placed := basic.length }
    ['x', 'n', '-', '-'] ++ e.output

end Punycode

end Uri

/-!
## Hosts

The host of a URI of one of the special schemes is a domain name or an address: it is decoded,
lowered, brought into ASCII form and checked, and a name that ends in a number has to be an IPv4
address. In every other URI the host is opaque, a text in which a few characters are forbidden.
-/

inductive UriError where
  | relativeWithoutBase
  | emptyHost
  | invalidPort
  | invalidIpv6Address
  | invalidIpv4Address
  | invalidInternationalName
  | invalidDomainCharacter
deriving Repr, DecidableEq

def UriError.message : UriError → String
  | .relativeWithoutBase => "relative URL without a base"
  | .emptyHost => "empty host"
  | .invalidPort => "invalid port number"
  | .invalidIpv6Address => "invalid IPv6 address"
  | .invalidIpv4Address => "invalid IPv4 address"
  | .invalidInternationalName => "invalid international domain name"
  | .invalidDomainCharacter => "invalid domain character"

namespace Uri

/-- A letter in lower case: ASCII, Latin-1, Greek and Cyrillic letters. -/
def lowerChar (c : Char) : Char :=
  let n := c.toNat
  if 0x41 ≤ n && n ≤ 0x5A then Char.ofNat (n + 0x20)
  else if 0xC0 ≤ n && n ≤ 0xDE && n ≠ 0xD7 then Char.ofNat (n + 0x20)
  else if 0x391 ≤ n && n ≤ 0x3AB && n ≠ 0x3A2 then Char.ofNat (n + 0x20)
  else if 0x410 ≤ n && n ≤ 0x42F then Char.ofNat (n + 0x20)
  else if 0x400 ≤ n && n ≤ 0x40F then Char.ofNat (n + 0x50)
  else c

def isForbiddenInDomain (c : Char) : Bool :=
  c.toNat ≤ 0x20 || c.toNat = 0x7F ||
    ['%', '#', '/', ':', '<', '>', '?', '@', '[', '\\', ']', '^', '|'].contains c

/-- Whether a label has the mark of the ASCII form of another label without being one. -/
def isBrokenAsciiForm (label : List Char) : Bool :=
  label.take 4 = ['x', 'n', '-', '-'] && (label.length = 4 || label.getLast? = some '-')

def asciiDomain? (domain : String) : Option (List Char) :=
  let lowered := domain.toList.map lowerChar
  let name := (Text.splitWhere (· = '.') lowered).map Punycode.encodeLabel
  let text := List.intercalate ['.'] name
  if text.any isForbiddenInDomain || name.any isBrokenAsciiForm then none else some text

def bracketedHost (text : List Char) : Except UriError (List Char) :=
  if text.getLast? = some ']' then
    match ipv6? (text.drop 1).dropLast with
    | some groups => .ok ('[' :: ipv6Text groups ++ [']'])
    | none => .error .invalidIpv6Address
  else .error .invalidIpv6Address

def specialHost (text : List Char) : Except UriError (List Char) :=
  if text.head? = some '[' then bracketedHost text
  else
    match (percentDecode? text).bind asciiDomain? with
    | none => .error .invalidInternationalName
    | some [] => .error .emptyHost
    | some domain =>
      if endsInNumber domain then
        match ipv4? domain with
        | some bytes => .ok (ipv4Text bytes)
        | none => .error .invalidIpv4Address
      else .ok domain

def isForbiddenInHost (c : Char) : Bool :=
  [Char.ofNat 0, '\t', '\n', '\r', ' ', '#', '/', ':', '<', '>', '?', '@', '[', '\\', ']', '^', '|'].contains c

def opaqueHost (text : List Char) : Except UriError (List Char) :=
  if text.head? = some '[' then bracketedHost text
  else if text.any isForbiddenInHost then .error .invalidDomainCharacter
  else .ok (percentEncode .opaqueHost text)

end Uri

end ScenarioServer
