import ScenarioServer.Files
import ScenarioServer.Json.Value
import ScenarioServer.Tables
import ScenarioServer.Text.Position

/-!
# Completion and hover

What the server answers from its tables: the vocabulary with its completion items, and the
documentation of words.
-/

namespace ScenarioServer

/-!
## The vocabulary of completion

The terms offered for completion, in the order of presentation. A term is known by its id, which is
its place in this list counted from one; so new terms go to the end. One label appears twice, as a
state and as a value.
-/

inductive TermKind where
  | keyword
  | function
  | elementClass
  | property
  | value
  | variable
deriving Repr, DecidableEq

/-- The number of a kind in the editor protocol. -/
def TermKind.code : TermKind → Int32
  | .keyword => 14
  | .function => 3
  | .elementClass => 7
  | .property => 10
  | .value => 12
  | .variable => 6

structure Term where
  label : String
  kind : TermKind
deriving Repr, DecidableEq

/-- Every term, in the order of presentation. -/
def vocabulary : List Term := [
  ⟨"Feature", .keyword⟩, ⟨"Scenario", .keyword⟩, ⟨"Background", .keyword⟩, ⟨"Given", .keyword⟩,
  ⟨"When", .keyword⟩, ⟨"Then", .keyword⟩, ⟨"And", .keyword⟩, ⟨"But", .keyword⟩,
  ⟨"Examples", .keyword⟩,
  ⟨"click", .function⟩, ⟨"type", .function⟩, ⟨"select", .function⟩, ⟨"open", .function⟩,
  ⟨"navigate", .function⟩, ⟨"wait", .function⟩, ⟨"clear", .function⟩, ⟨"submit", .function⟩,
  ⟨"button", .elementClass⟩, ⟨"link", .elementClass⟩, ⟨"input", .elementClass⟩,
  ⟨"checkbox", .elementClass⟩, ⟨"dropdown", .elementClass⟩,
  ⟨"visible", .property⟩, ⟨"hidden", .property⟩, ⟨"enabled", .property⟩, ⟨"disabled", .property⟩,
  ⟨"empty", .property⟩, ⟨"checked", .property⟩, ⟨"contains", .property⟩,
  ⟨"empty", .value⟩,
  ⟨"dataset", .variable⟩, ⟨"row", .variable⟩, ⟨"column", .variable⟩]

def termById? : Nat → Option Term
  | 0 => none
  | id + 1 => vocabulary[id]?

def numberedTerms : List (Nat × Term) := vocabulary.zipIdx.map fun (term, index) => (index + 1, term)

def vocabularyLabels : List String := vocabulary.map Term.label

/-!
## Completion items

Every request for completion gets the whole vocabulary. An item is listed with its id only; detail
and documentation are filled in when the item is resolved, from the row of the keyword table that
the id's label has. The label of the item itself does not matter for that.

A client sends back the item that it wants resolved with everything the protocol knows about items,
and gets it back the same way, so an item has all of these fields although the server sets only a
few of them.
-/

/-- What a client shows behind a label: right next to it, and set apart. -/
structure LabelDetails where
  detail : Option String := none
  description : Option String := none
deriving Repr, DecidableEq

inductive MarkupKind where
  | plainText
  | markdown
deriving Repr, DecidableEq

def MarkupKind.name : MarkupKind → String
  | .plainText => "plaintext"
  | .markdown => "markdown"

/-- Documentation as a bare text or together with the kind of its markup. -/
inductive Documentation where
  | text (text : String)
  | markup (kind : MarkupKind) (text : String)
deriving Repr, DecidableEq

structure TextEdit where
  range : Range
  newText : String
deriving Repr, DecidableEq

/-- The edit of an item that is accepted. With two ranges the client chooses whether the text is
inserted or replaces what follows. -/
inductive CompletionEdit where
  | plain (edit : TextEdit)
  | insertReplace (newText : String) (insert replace : Range)
deriving Repr, DecidableEq

/-- A command that the client runs once an item has been accepted. -/
structure EditorCommand where
  title : String
  command : String
  arguments : Option (List Json.Value) := none

/-- A completion item. `data` is what the server attached to it when it was listed; kind, tags and
the two properties of the inserted text are numbers of the protocol. -/
structure CompletionItem where
  label : String
  labelDetails : Option LabelDetails := none
  kind : Option Int32 := none
  detail : Option String := none
  documentation : Option Documentation := none
  deprecated : Option Bool := none
  preselect : Option Bool := none
  sortText : Option String := none
  filterText : Option String := none
  insertText : Option String := none
  insertTextFormat : Option Int32 := none
  insertTextMode : Option Int32 := none
  textEdit : Option CompletionEdit := none
  additionalTextEdits : Option (List TextEdit) := none
  command : Option EditorCommand := none
  commitCharacters : Option (List String) := none
  data : Option Json.Value := none
  tags : Option (List Int32) := none

inductive ResolveError where
  | missingId (label : String)
  | unknownId (id : Nat)
deriving Repr, DecidableEq

def ResolveError.message : ResolveError → String
  | .missingId label => s!"completion item '{label}' carries no numeric id"
  | .unknownId id => s!"completion id {id} does not match any keyword"

/-- The listed item of a term. -/
def CompletionItem.ofTerm (id : Nat) (term : Term) : CompletionItem :=
  { label := term.label, kind := some term.kind.code, data := some (.ofNat id) }

def completionItems : List CompletionItem :=
  numberedTerms.map fun (id, term) => CompletionItem.ofTerm id term

def CompletionItem.id? (item : CompletionItem) : Option Nat := item.data.bind Json.Value.natural?

/-- Fills in detail and documentation of an item. -/
def CompletionItem.resolve (keywords : KeywordTable) (item : CompletionItem) :
    Except ResolveError CompletionItem :=
  match item.id? with
  | none => .error (.missingId item.label)
  | some id =>
    match (termById? id).bind fun term => keywords.get? term.label with
    | none => .error (.unknownId id)
    | some entry =>
      .ok { item with
        detail := some entry.detail
        documentation := some (.text entry.documentation) }

/-!
## Tables in use

The two tables are loaded once, each from a file or from the built-in rows, and become an `Engine`
if the keyword table has a row for every term of the vocabulary. Any fault is reported and nothing is
served: faults of the keyword table first, then those of the hover table, then a missing keyword.
-/

/-- The pair of tables before they are checked against the vocabulary. -/
structure LookupTables where
  keywords : KeywordTable
  hover : HoverTable

def readTable (files : FileSystem) (path : String) : Except TableError String :=
  match files.read path with
  | .ok text => .ok text
  | .error cause => .error (.unreadable path cause)

namespace LookupTables

/-- The tables spelled by JSON texts, with the built-in rows for a text that is not given. -/
def ofTexts (keywords hover : Option String) : Except TableError LookupTables := do
  let keywords ← match keywords with
    | some text => KeywordTable.parse text
    | none => KeywordTable.ofEntries builtinKeywords
  let hover ← match hover with
    | some text => HoverTable.parse text
    | none => HoverTable.ofEntries builtinHover
  return { keywords, hover }

/-- The tables held by files, with the built-in rows for a file that is not given. -/
def load (files : FileSystem) (keywords hover : Option String) : Except TableError LookupTables := do
  let keywords ← match keywords with
    | some path => readTable files path >>= KeywordTable.parse
    | none => KeywordTable.ofEntries builtinKeywords
  let hover ← match hover with
    | some path => readTable files path >>= HoverTable.parse
    | none => HoverTable.ofEntries builtinHover
  return { keywords, hover }

end LookupTables

/-- Tables whose keywords cover the vocabulary. -/
structure Engine where
  keywords : KeywordTable
  hover : HoverTable

namespace Engine

/-- The engine over a pair of tables, if a row exists for every term. -/
def ofTables (tables : LookupTables) : Except TableError Engine := do
  tables.keywords.covers vocabularyLabels
  return { keywords := tables.keywords, hover := tables.hover }

/-- The documentation of the word at a position, or the empty text. -/
def hoverText (engine : Engine) (uri : Uri) (text : String) (position : Position) : String :=
  match Text.wordAt text.toList position with
  | none => ""
  | some word =>
    match engine.hover.lookup word.text (Category.classify uri) with
    | none => ""
    | some entry => entry.documentation

end Engine

end ScenarioServer
