import ScenarioServer.Text.Position
import ScenarioServer.Text.WordChar
import ScenarioServer.Uri.Basic

/-!
# The uppercase check

A text is cut into runs of token characters, and the runs that shout become diagnostics.
-/

namespace ScenarioServer

/-!
## Runs of token characters

`runs` cuts a text into its maximal runs of token characters and gives each run the range it fills.
The position is carried along, so a text is read once whatever the number of its runs.
-/

namespace Text

/-- A maximal run of token characters and the range it fills. -/
structure Run where
  chars : List Char
  range : Range
deriving Repr, DecidableEq

def advanceOver (here : Position) (text : List Char) : Position := text.foldl Position.advance here

/-- The runs of a text that starts at `here` and does not continue a run. -/
def runsFrom (here : Position) : List Char → List Run
  | [] => []
  | c :: rest =>
    if isTokenChar c then
      let chars := c :: rest.takeWhile isTokenChar
      let stop := advanceOver here chars
      ⟨chars, here, stop⟩ :: runsFrom stop (rest.dropWhile isTokenChar)
    else runsFrom (here.advance c) rest
termination_by text => text.length
decreasing_by
  · exact Nat.lt_succ_of_le (List.dropWhile_sublist isTokenChar).length_le
  · exact Nat.lt_succ_self _

def runs (text : List Char) : List Run := runsFrom ⟨0, 0⟩ text

end Text

/-!
## Diagnostics

A scenario text should not shout: every token of two or more capital letters gets a warning. A token
is a maximal run of token characters, so capitals next to a digit, an underscore, a letter or a mark
of any script are not a token of their own.

The number of warnings is capped; the first ones in the text are kept.
-/

/-- A note that accompanies a diagnostic and points into a document. -/
structure RelatedNote where
  uri : Uri
  range : Range
  message : String
deriving Repr, DecidableEq

structure Diagnostic where
  range : Range
  source : String
  message : String
  notes : List RelatedNote := []
deriving Repr, DecidableEq

namespace Diagnostic

/-- The number of the severity of all diagnostics, a warning, in the editor protocol. -/
def severityCode : Nat := 2

/-- The tag that every diagnostic of a document carries. -/
def uppercaseSource : String := "ex"

def uppercaseMessage (token : String) : String := token ++ " is all uppercase. Can you please fix that"

/-- The texts of the two notes that may accompany a diagnostic. -/
def noteTexts : List String := ["Spelling matters", "Particularly for names"]

/-- The diagnostic of a token, with its notes if they are wanted. -/
def ofRun (uri : Uri) (related : Bool) (run : Text.Run) : Diagnostic :=
  { range := run.range
    source := uppercaseSource
    message := uppercaseMessage (String.ofList run.chars)
    notes := if related then noteTexts.map fun text => ⟨uri, run.range, text⟩ else [] }

/-- One line of a report: place, counted from one, message and source. -/
def line (file : String) (start : Position) (message source : String) : String :=
  s!"{file}:{start.line + 1}:{start.character + 1}: warning: {message} [{source}]"

end Diagnostic

/-- Whether a run consists of two or more capital letters. -/
def Text.Run.isShouted (run : Text.Run) : Bool :=
  2 ≤ run.chars.length && run.chars.all Text.isCapital

def shoutedRuns (text : List Char) : List Text.Run := (Text.runs text).filter Text.Run.isShouted

/-- The first `cap` diagnostics of a document's text. -/
def validate (uri : Uri) (text : String) (cap : Nat) (related : Bool) : List Diagnostic :=
  ((shoutedRuns text.toList).take cap).map (Diagnostic.ofRun uri related)

end ScenarioServer
