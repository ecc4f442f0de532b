import ScenarioServer.Text.WordChar

/-!
# Places and words in a text

The ways to count a place in a text, the word that a place touches, and the pieces of a text between
separators.
-/

namespace ScenarioServer

/-!
## Positions in a text

A place in a text is counted in three ways: in characters from the start, in UTF-8 bytes from the
start, and as a `Position`, a line and a column in UTF-16 code units. The character count is the
common currency: `positionAt` and `offsetAt` go from bytes to positions and back through it.

A line ends at a line feed. One carriage return in front of that line feed, or at the end of the
text, belongs to the terminator and not to the line's content, so a column past the end of a line
stands before it.
-/

/-- A zero-based line and a column counted in UTF-16 code units. -/
structure Position where
  line : Nat
  character : Nat
deriving Repr, DecidableEq, Inhabited

/-- A pair of positions: where a span starts and where it stops. -/
structure Range where
  start : Position
  stop : Position
deriving Repr, DecidableEq, Inhabited

/-! ### Widths -/

/-- The number of UTF-16 code units of a character. -/
def Text.unitWidth (c : Char) : Nat := if c.toNat < 0x10000 then 1 else 2

def Position.advance (p : Position) (c : Char) : Position :=
  if c = '\n' then ⟨p.line + 1, 0⟩ else ⟨p.line, p.character + Text.unitWidth c⟩

namespace Text

def byteLength (text : List Char) : Nat := text.foldr (fun c length => c.utf8Size + length) 0

def unitLength (text : List Char) : Nat := text.foldr (fun c length => unitWidth c + length) 0

@[simp] theorem byteLength_nil : byteLength [] = 0 := rfl

@[simp] theorem byteLength_cons (c : Char) (text : List Char) :
    byteLength (c :: text) = c.utf8Size + byteLength text := rfl

@[simp] theorem byteLength_append (text rest : List Char) :
    byteLength (text ++ rest) = byteLength text + byteLength rest := by
  induction text with
  | nil => simp
  | cons c text ih => simp [ih, Nat.add_assoc]

theorem eq_nil_of_byteLength {text : List Char} (h : byteLength text = 0) : text = [] := by
  cases text with
  | nil => rfl
  | cons c rest =>
      have hpos := c.utf8Size_pos
      rw [byteLength_cons] at h
      omega

/-! ### From bytes to positions -/

def positionAfter (text : List Char) : Position := text.foldl Position.advance ⟨0, 0⟩

/-- How many leading characters of the text end within its first `budget` bytes. A budget that ends
inside a character stops in front of it. -/
def charsWithin (budget : Nat) : List Char → Nat
  | [] => 0
  | c :: rest => if c.utf8Size ≤ budget then charsWithin (budget - c.utf8Size) rest + 1 else 0

/-- The position of a byte offset. An offset past the end counts as the end of the text, one inside
a character as the start of that character. -/
def positionAt (text : List Char) (offset : Nat) : Position :=
  positionAfter (text.take (charsWithin offset text))

/-- The range of a span of bytes; each end is placed on its own. -/
def rangeAt (text : List Char) (first last : Nat) : Range :=
  ⟨positionAt text first, positionAt text last⟩

theorem charsWithin_append (before rest : List Char) :
    charsWithin (byteLength before) (before ++ rest) = before.length := by
  induction before with
  | nil =>
      cases rest with
      | nil => rfl
      | cons c rest =>
          have hpos := c.utf8Size_pos
          rw [List.nil_append, charsWithin, byteLength_nil, if_neg (by omega), List.length_nil]
  | cons c before ih =>
      rw [List.cons_append, charsWithin, byteLength_cons, if_pos (Nat.le_add_right _ _),
        Nat.add_sub_cancel_left, ih, List.length_cons]

/-- The position of the place between two parts of a text. -/
theorem positionAt_append (before rest : List Char) :
    positionAt (before ++ rest) (byteLength before) = positionAfter before := by
  rw [positionAt, charsWithin_append, List.take_left]

/-! ### From positions to bytes -/

/-- How many characters stand before the given line, if the text has that line. -/
def lineStart : Nat → List Char → Option Nat
  | 0, _ => some 0
  | _ + 1, [] => none
  | line + 1, c :: rest =>
    if c = '\n' then (lineStart line rest).map (· + 1) else (lineStart (line + 1) rest).map (· + 1)

/-- A line without the one carriage return that may end it. -/
def dropCarriageReturn (line : List Char) : List Char :=
  if line.getLast? = some '\r' then line.dropLast else line

/-- The content of the line that `rest` starts with. -/
def lineContent (rest : List Char) : List Char :=
  dropCarriageReturn (rest.takeWhile (· ≠ '\n'))

/-- How many characters of a line stand before a column. A column inside a surrogate pair counts as
the end of that pair, one past the line's end as the end of the line. -/
def columnIndex : Nat → List Char → Nat
  | _, [] => 0
  | column, c :: rest => if column = 0 then 0 else columnIndex (column - unitWidth c) rest + 1

/-- How many characters stand before a position, if the text has its line. -/
def indexAt (text : List Char) (p : Position) : Option Nat :=
  (lineStart p.line text).map fun start =>
    start + columnIndex p.character (lineContent (text.drop start))

def offsetAt (text : List Char) (p : Position) : Option Nat :=
  (indexAt text p).map fun index => byteLength (text.take index)

end Text

/-!
## The word under a cursor

The word at a position is the maximal run of word characters that contains the position or touches
it from either side, so a cursor right behind the last character still selects the word. What counts
as a word character is a parameter of the search.
-/

structure Word where
  text : String
  range : Range
deriving Repr, DecidableEq

namespace Text

/-- The word characters that `before` ends with. -/
def wordTail (isWord : Char → Bool) (before : List Char) : List Char :=
  (before.reverse.takeWhile isWord).reverse

def wordHead (isWord : Char → Bool) (after : List Char) : List Char := after.takeWhile isWord

/-- The word that touches the place between `before` and `after`. -/
def wordBetween (isWord : Char → Bool) (before after : List Char) : Option Word :=
  match wordTail isWord before ++ wordHead isWord after with
  | [] => none
  | word =>
    let start := before.take (before.length - (wordTail isWord before).length)
    some ⟨String.ofList word, positionAfter start, positionAfter (before ++ wordHead isWord after)⟩

/-- The word at a position; none if the text has no such line or no word touches the position. -/
def wordAtBy (isWord : Char → Bool) (text : List Char) (p : Position) : Option Word :=
  (indexAt text p).bind fun index => wordBetween isWord (text.take index) (text.drop index)

/-- The word at a position, with letters, numbers and the underscore as word characters. -/
def wordAt (text : List Char) (p : Position) : Option Word := wordAtBy isWordChar text p

/-!
## Splitting a text

`splitWhere` cuts a text at every character that satisfies a predicate and drops those characters. A
text with `n` of them has `n + 1` pieces, of which any may be empty.
-/

/-- The pieces of a text between the characters that satisfy `isSeparator`. -/
def splitWhere (isSeparator : Char → Bool) : List Char → List (List Char)
  | [] => [[]]
  | c :: rest =>
    if isSeparator c then [] :: splitWhere isSeparator rest
    else match splitWhere isSeparator rest with
      | [] => [[c]]
      | first :: others => (c :: first) :: others

end Text

end ScenarioServer
