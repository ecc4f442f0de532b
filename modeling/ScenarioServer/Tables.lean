import ScenarioServer.Files
import ScenarioServer.Json.Value
import ScenarioServer.Uri.Basic

/-!
# Lookup tables

The keyword table and the hover table: their rows, the checks that rows have to pass, their JSON
form, and the rows that are built in.
-/

namespace ScenarioServer

/-!
## Faults of lookup tables

What can be wrong with a table, and the check that every table of labelled rows has to pass: no
label is empty, and no two rows have the same key. The first row at fault is reported, and of its
two possible faults the empty label.
-/

inductive TableName where
  | keyword
  | hover
deriving Repr, DecidableEq

def TableName.text : TableName → String
  | .keyword => "keyword"
  | .hover => "hover"

inductive TableError where
  | unreadable (path : String) (cause : FileError)
  | malformed (table : TableName)
  | emptyLabel (table : TableName) (index : Nat)
  | duplicateLabel (table : TableName) (label : String)
  | missingKeyword (label : String)
deriving Repr, DecidableEq

def TableError.message : TableError → String
  | .unreadable path cause => s!"failed to read {path}: {cause.message}"
  | .malformed table => s!"malformed {table.text} table: "
  | .emptyLabel table index => s!"{table.text} table entry #{index} has an empty label"
  | .duplicateLabel table label => s!"duplicate label '{label}' in {table.text} table"
  | .missingKeyword label => s!"keyword table has no entry for completion label '{label}'"

/-- The first fault of labelled rows, given the keys of the rows before them and their number.
`key` tells rows apart and `shown` is how a repeated row is named. -/
def firstFault {α κ : Type} [DecidableEq κ] (table : TableName) (label : α → String) (key : α → κ)
    (shown : α → String) (seen : List κ) (index : Nat) : List α → Option TableError
  | [] => none
  | row :: rest =>
    if label row = "" then some (.emptyLabel table index)
    else if key row ∈ seen then some (.duplicateLabel table (shown row))
    else firstFault table label key shown (key row :: seen) (index + 1) rest

/-!
## Categories of documents

The directory that a document lives in tells what kind of document it is. The nearest directory with
one of four known names decides; a document outside all of them has no category.
-/

/-- The kind of a document, taken from its directory. -/
inductive Category where
  /-- Feature and scenario files. -/
  | features
  /-- Step definitions. -/
  | steps
  /-- Page elements. -/
  | elements
  /-- Datasets. -/
  | data
deriving Repr, DecidableEq

namespace Category

/-- The name of a category, which is also the name of its directory. -/
def name : Category → String
  | .features => "features"
  | .steps => "steps"
  | .elements => "elements"
  | .data => "data"

def ofName? (name : String) : Option Category :=
  match name with
  | "features" => some .features
  | "steps" => some .steps
  | "elements" => some .elements
  | "data" => some .data
  | _ => none

@[simp] theorem ofName?_name (category : Category) : ofName? category.name = some category := by
  cases category <;> rfl

/-- The category of the last directory with a known name. -/
def ofDirectories? (directories : List String) : Option Category :=
  directories.reverse.findSome? ofName?

/-- The category of a document: every segment of its path but the last names a directory. -/
def classify (uri : Uri) : Option Category :=
  uri.segments?.bind fun segments => ofDirectories? segments.dropLast

end Category

/-!
## The keyword table

Detail and documentation of the completion terms. Labels are distinct, so a label has at most one
row.
-/

structure KeywordEntry where
  label : String
  detail : String
  documentation : String
deriving Repr, DecidableEq

structure KeywordTable where
  entries : List KeywordEntry
deriving Repr, DecidableEq

namespace KeywordTable

/-- The table of the given rows, if no label is empty and no two rows have the same label. -/
def ofEntries (entries : List KeywordEntry) : Except TableError KeywordTable :=
  match firstFault .keyword KeywordEntry.label KeywordEntry.label KeywordEntry.label [] 0 entries with
  | some fault => .error fault
  | none => .ok ⟨entries⟩

def get? (table : KeywordTable) (label : String) : Option KeywordEntry :=
  table.entries.find? (·.label = label)

/-- Whether every one of the labels has a row; if not, the first that has none is reported. -/
def covers (table : KeywordTable) (labels : List String) : Except TableError Unit :=
  match labels.find? fun label => (table.get? label).isNone with
  | some label => .error (.missingKeyword label)
  | none => .ok ()

/-- The row that a JSON document spells: an object or an array with all three texts. -/
def entry? (node : Json.Node) : Option KeywordEntry := do
  match ← node.fields? ["label", "detail", "documentation"] with
  | [some label, some detail, some documentation] =>
    return ⟨← label.text?, ← detail.text?, ← documentation.text?⟩
  | _ => none

def entries? (text : String) : Option (List KeywordEntry) := do
  match ← Json.Node.parse? text with
  | .array rows => rows.mapM entry?
  | _ => none

def parse (text : String) : Except TableError KeywordTable :=
  match entries? text with
  | some entries => ofEntries entries
  | none => .error (.malformed .keyword)

end KeywordTable

/-!
## The hover table

Documentation of words. A row may be scoped to a category of documents; a word has at most one row
for each category and one that is not scoped. In a document of some category the row scoped to it
comes first, and rows scoped to another category never count.
-/

structure HoverEntry where
  label : String
  documentation : String
  category : Option Category := none
deriving Repr, DecidableEq

structure HoverTable where
  entries : List HoverEntry
deriving Repr, DecidableEq

/-- What tells rows apart: the label and the scope. -/
def HoverEntry.key (entry : HoverEntry) : String × Option Category := (entry.label, entry.category)

/-- How a row is named in a message: a scoped one with its category in parentheses. -/
def HoverEntry.shown (entry : HoverEntry) : String :=
  match entry.category with
  | some category => s!"{entry.label} ({category.name})"
  | none => entry.label

namespace HoverTable

/-- The table of the given rows, if no label is empty and no two rows agree in label and scope. -/
def ofEntries (entries : List HoverEntry) : Except TableError HoverTable :=
  match firstFault .hover HoverEntry.label HoverEntry.key HoverEntry.shown [] 0 entries with
  | some fault => .error fault
  | none => .ok ⟨entries⟩

/-- The row of a word with exactly the given scope. -/
def row? (table : HoverTable) (word : String) (scope : Option Category) : Option HoverEntry :=
  table.entries.find? fun entry => entry.label = word && entry.category = scope

/-- The row that documents a word in a document of the given category. -/
def lookup (table : HoverTable) (word : String) (category : Option Category) : Option HoverEntry :=
  match category with
  | some _ => (table.row? word category).or (table.row? word none)
  | none => table.row? word none

/-- The scope that a JSON document spells: nothing, the name of a category, or an object with that
name as its only member and null as its value. -/
def scope? : Option Json.Node → Option (Option Category)
  | none => some none
  | some .null => some none
  | some (.string (some name)) => (Category.ofName? name).map some
  | some (.object [(some name, .null)]) => (Category.ofName? name).map some
  | some _ => none

/-- The row that a JSON document spells: an object or an array with two texts and perhaps a scope. -/
def entry? (node : Json.Node) : Option HoverEntry := do
  match ← node.fields? ["label", "documentation", "category"] with
  | [some label, some documentation, category] =>
    return ⟨← label.text?, ← documentation.text?, ← scope? category⟩
  | _ => none

def entries? (text : String) : Option (List HoverEntry) := do
  match ← Json.Node.parse? text with
  | .array rows => rows.mapM entry?
  | _ => none

def parse (text : String) : Except TableError HoverTable :=
  match entries? text with
  | some entries => ofEntries entries
  | none => .error (.malformed .hover)

end HoverTable

/-!
## The built-in tables

The rows that are used as long as no other table is given.
-/

def builtinKeywords : List KeywordEntry := [
  ⟨"Feature", "Feature declaration",
    "Starts a feature file. The text after `Feature:` names the behaviour under test and groups the scenarios that follow."⟩,
  ⟨"Scenario", "Scenario declaration",
    "Declares a single test scenario made of Given/When/Then steps."⟩,
  ⟨"Background", "Shared setup steps",
    "Steps that run before every scenario of the enclosing feature."⟩,
  ⟨"Given", "Precondition step",
    "Puts the system under test into a known state before the action happens."⟩,
  ⟨"When", "Action step", "Describes the action or event that the scenario exercises."⟩,
  ⟨"Then", "Outcome step", "Asserts the expected outcome after the action has happened."⟩,
  ⟨"And", "Continuation step",
    "Continues the previous Given, When or Then step with another step of the same kind."⟩,
  ⟨"But", "Negative continuation step", "Continues the previous step with a contrasting condition."⟩,
  ⟨"Examples", "Scenario outline data",
    "Table of values substituted into a scenario outline, one run per row."⟩,
  ⟨"click", "Click an element",
    "Performs a single left click on the referenced element, e.g. `click login.submit`."⟩,
  ⟨"type", "Type text into an element",
    "Types the given text into an input element, e.g. `type \"alice\" into login.username`."⟩,
  ⟨"select", "Select an option", "Chooses an option of a dropdown element by its visible text."⟩,
  ⟨"open", "Open a page", "Opens the referenced page or URL in the browser under test."⟩,
  ⟨"navigate", "Navigate the browser",
    "Moves the browser back, forward, or to a page without reloading the session."⟩,
  ⟨"wait", "Wait for a condition",
    "Waits until an element reaches a state, or for a fixed number of seconds."⟩,
  ⟨"clear", "Clear an input", "Removes the current value of an input element."⟩,
  ⟨"submit", "Submit a form", "Submits the form that owns the referenced element."⟩,
  ⟨"button", "Button element", "Element type for clickable buttons declared in an elements file."⟩,
  ⟨"link", "Link element", "Element type for anchors that navigate to another page."⟩,
  ⟨"input", "Input element", "Element type for text fields that accept typed values."⟩,
  ⟨"checkbox", "Checkbox element",
    "Element type for boolean toggles that can be checked or unchecked."⟩,
  ⟨"dropdown", "Dropdown element", "Element type for select boxes with a list of options."⟩,
  ⟨"visible", "Assert element is visible",
    "Passes when the element is rendered and visible to the user."⟩,
  ⟨"hidden", "Assert element is hidden",
    "Passes when the element exists but is not visible to the user."⟩,
  ⟨"enabled", "Assert element is enabled", "Passes when the element accepts user interaction."⟩,
  ⟨"disabled", "Assert element is disabled", "Passes when the element rejects user interaction."⟩,
  ⟨"empty", "Assert element is empty", "Passes when the element has no text content or no value."⟩,
  ⟨"checked", "Assert checkbox is checked",
    "Passes when the checkbox or radio element is selected."⟩,
  ⟨"contains", "Assert element text",
    "Passes when the element's text contains the given substring."⟩,
  ⟨"dataset", "Dataset declaration",
    "Declares a named dataset whose rows feed scenario parameters."⟩,
  ⟨"row", "Dataset row", "A single record of a dataset, referenced by index or key."⟩,
  ⟨"column", "Dataset column", "A named field of every row in a dataset."⟩]

def builtinHover : List HoverEntry := [
  ⟨"Feature", "**Feature**: names the behaviour under test and groups its scenarios.", none⟩,
  ⟨"Scenario",
    "**Scenario**: a single example of the feature, written as Given/When/Then steps.",
    none⟩,
  ⟨"Background", "**Background**: steps that run before every scenario in the file.", none⟩,
  ⟨"Given", "**Given**: a precondition that must hold before the action.", none⟩,
  ⟨"When", "**When**: the action or event under test.", none⟩,
  ⟨"Then", "**Then**: the expected outcome of the action.", none⟩,
  ⟨"And", "**And**: another step of the same kind as the previous one.", none⟩,
  ⟨"But", "**But**: a contrasting step of the same kind as the previous one.", none⟩,
  ⟨"Examples", "**Examples**: rows of values substituted into a scenario outline.", none⟩,
  ⟨"click", "`click <element>`: clicks the referenced element once.", none⟩,
  ⟨"type", "`type \"<text>\" into <element>`: types text into an input element.", none⟩,
  ⟨"select", "`select \"<option>\" from <element>`: picks a dropdown option by its text.", none⟩,
  ⟨"open", "`open <page>`: opens a page or URL in the browser under test.", none⟩,
  ⟨"navigate", "`navigate back|forward|to <page>`: moves the browser without a new session.", none⟩,
  ⟨"wait", "`wait for <element> to be <state>` or `wait <seconds>`.", none⟩,
  ⟨"clear", "`clear <element>`: removes the value of an input element.", none⟩,
  ⟨"submit", "`submit <element>`: submits the form owning the element.", none⟩,
  ⟨"button", "Clickable button element.", none⟩,
  ⟨"button", "`button <name> = <selector>`: declares a clickable button locator.", some .elements⟩,
  ⟨"link", "Anchor element that navigates to another page.", none⟩,
  ⟨"link", "`link <name> = <selector>`: declares an anchor locator.", some .elements⟩,
  ⟨"input", "Text field element.", none⟩,
  ⟨"input", "`input <name> = <selector>`: declares a text field locator.", some .elements⟩,
  ⟨"checkbox", "Boolean toggle element.", none⟩,
  ⟨"dropdown", "Select box element.", none⟩,
  ⟨"visible", "Element state: the element is rendered and visible to the user.", none⟩,
  ⟨"hidden", "Element state: the element exists but is not visible.", none⟩,
  ⟨"enabled", "Element state: the element accepts user interaction.", none⟩,
  ⟨"disabled", "Element state: the element rejects user interaction.", none⟩,
  ⟨"empty", "Element state: the element has no text or value.", none⟩,
  ⟨"empty", "Dataset value: an empty string cell.", some .data⟩,
  ⟨"checked", "Element state: the checkbox or radio is selected.", none⟩,
  ⟨"contains", "`<element> contains \"<text>\"`: the element text includes the substring.", none⟩,
  ⟨"dataset", "`dataset <name>`: declares a table of rows used as scenario parameters.", none⟩,
  ⟨"row", "`row <key>`: one record of the enclosing dataset.", some .data⟩,
  ⟨"row", "`row <key> of <dataset>`: binds a dataset record to the step parameters.", some .steps⟩,
  ⟨"column", "`column <name>`: a field present in every row of the dataset.", some .data⟩]

end ScenarioServer
