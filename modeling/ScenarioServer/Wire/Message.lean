import ScenarioServer.Session
import ScenarioServer.Settings
import ScenarioServer.Uri.Parse

/-!
# Protocol values and JSON

What the server sends as JSON, and the calls of a client read from it.
-/

namespace ScenarioServer

/-!
## Protocol values as JSON

The JSON form of what the server sends: positions, diagnostics, completion items and the replies to
calls. Absent fields are left out.
-/

namespace Wire

open Json (Value)

/-- The members that are present. -/
def present (members : List (String × Option Value)) : List (String × Value) :=
  members.filterMap fun (name, value) => value.map (name, ·)

def position (p : Position) : Value :=
  .object [("line", .ofNat p.line), ("character", .ofNat p.character)]

def range (r : Range) : Value := .object [("start", position r.start), ("end", position r.stop)]

def relatedNote (note : RelatedNote) : Value :=
  .object
    [("location", .object [("uri", .string note.uri.text), ("range", range note.range)]),
      ("message", .string note.message)]

/-- A diagnostic. Without notes it has no list of them. -/
def diagnostic (d : Diagnostic) : Value :=
  .object (present
    [("range", some (range d.range)),
      ("severity", some (.ofNat Diagnostic.severityCode)),
      ("source", some (.string d.source)),
      ("message", some (.string d.message)),
      ("relatedInformation", if d.notes.isEmpty then none else some (.array (d.notes.map relatedNote)))])

/-- A number that the protocol gives a meaning to. -/
def code (n : Int32) : Value := .ofInt n.toInt

def list {α : Type} (write : α → Value) (items : List α) : Value := .array (items.map write)

def labelDetails (details : LabelDetails) : Value :=
  .object (present
    [("detail", details.detail.map .string), ("description", details.description.map .string)])

def documentation : Documentation → Value
  | .text text => .string text
  | .markup kind text => .object [("kind", .string kind.name), ("value", .string text)]

def textEdit (edit : TextEdit) : Value :=
  .object [("range", range edit.range), ("newText", .string edit.newText)]

def completionEdit : CompletionEdit → Value
  | .plain edit => textEdit edit
  | .insertReplace newText insert replace =>
    .object [("newText", .string newText), ("insert", range insert), ("replace", range replace)]

def editorCommand (command : EditorCommand) : Value :=
  .object (present
    [("title", some (.string command.title)),
      ("command", some (.string command.command)),
      ("arguments", command.arguments.map .array)])

/-- The members of a completion item with those that are absent. -/
def itemMembers (item : CompletionItem) : List (String × Option Value) :=
  [("label", some (.string item.label)),
    ("labelDetails", item.labelDetails.map labelDetails),
    ("kind", item.kind.map code),
    ("detail", item.detail.map .string),
    ("documentation", item.documentation.map documentation),
    ("deprecated", item.deprecated.map .bool),
    ("preselect", item.preselect.map .bool),
    ("sortText", item.sortText.map .string),
    ("filterText", item.filterText.map .string),
    ("insertText", item.insertText.map .string),
    ("insertTextFormat", item.insertTextFormat.map code),
    ("insertTextMode", item.insertTextMode.map code),
    ("textEdit", item.textEdit.map completionEdit),
    ("additionalTextEdits", item.additionalTextEdits.map (list textEdit)),
    ("command", item.command.map editorCommand),
    ("commitCharacters", item.commitCharacters.map (list .string)),
    ("data", item.data),
    ("tags", item.tags.map (list code))]

def completionItem (item : CompletionItem) : Value := .object (present (itemMembers item))

/-- The name under which the server introduces itself. -/
def serverName : String := "tacl-lsp"

def serverVersion : String := "0.1.0"

/-- What the server offers: documents are sent as a whole, completion items can be resolved, and
words can be hovered; workspace folders are supported if the client knows them. -/
def capabilities (workspaceFolders : Bool) : Value :=
  let folders := Value.object [("workspaceFolders", .object [("supported", .bool true)])]
  .object
    [("capabilities", .object (present
        [("textDocumentSync", some (.ofNat 1)),
          ("completionProvider", some (.object [("resolveProvider", .bool true)])),
          ("hoverProvider", some (.bool true)),
          ("workspace", if workspaceFolders then some folders else none)])),
      ("serverInfo", .object [("name", .string serverName), ("version", .string serverVersion)])]

def hover (documentation : String) : Value :=
  .object [("contents", .object [("kind", .string "markdown"), ("value", .string documentation)])]

def invalidParamsCode : Int := -32602

/-- The result of a call, or the error it ends with. -/
def reply : Reply → Except ResolveError Value
  | .nothing => .ok .null
  | .capabilities workspaceFolders => .ok (capabilities workspaceFolders)
  | .items items => .ok (.array (items.map completionItem))
  | .item item => .ok (completionItem item)
  | .refused cause => .error cause
  | .hover none => .ok .null
  | .hover (some documentation) => .ok (hover documentation)

/-- The items of a request for the settings of a document. -/
def configurationItems (uri : Uri) : Value :=
  .array [.object [("scopeUri", .string uri.text), ("section", .string Settings.sectionName)]]

/-- The registration for changes of the client's configuration. -/
def registrations : Value :=
  .array [.object
    [("id", .string "tacl-did-change-configuration"),
      ("method", .string "workspace/didChangeConfiguration")]]

/-- The number of the level of an informational log message. -/
def infoLevel : Nat := 3

/-!
## Protocol values from JSON

Reads the calls of a client from the JSON form of their parameters. A reader returns nothing if a
required part is missing or has the wrong form.
-/

/-- A truth value that may be absent or null, which both mean false. -/
def flag? : Option Value → Option Bool
  | none | some .null => some false
  | some value => value.bool?

/-- The member at a path of names; absent if any step is absent or null. -/
def member? (value : Value) : List String → Option Value
  | [] => some value
  | name :: names => (value.get? name).bind (member? · names)

/-- What a client supports, from the capabilities it states. -/
def clientFlags? (capabilities : Value) : Option ClientFlags := do
  let configuration ← flag? (member? capabilities ["workspace", "configuration"])
  let workspaceFolders ← flag? (member? capabilities ["workspace", "workspaceFolders"])
  let relatedInformation ←
    flag? (member? capabilities ["textDocument", "publishDiagnostics", "relatedInformation"])
  return { configuration, workspaceFolders, relatedInformation }

def uri? (value : Value) : Option Uri := do
  (Uri.parse (← value.text?)).toOption

/-- A value that may be absent or null. -/
def optional {α : Type} (read : Value → Option α) : Option Value → Option (Option α)
  | none | some .null => some none
  | some value => (read value).map some

/-- The parameters of the first call of a session. -/
def opening? (params : Value) : Option Opening := do
  let flags ← clientFlags? (← params.get? "capabilities")
  let rootUri ← optional uri? (params.get? "rootUri")
  let folders ← optional Value.items? (params.get? "workspaceFolders")
  let workspaceFolders ← folders.mapM fun folders => folders.mapM fun folder =>
    (folder.get? "uri").bind uri?
  return { flags, rootUri, workspaceFolders }

def position? (value : Value) : Option Position := do
  return ⟨← (← value.get? "line").natural?, ← (← value.get? "character").natural?⟩

/-- A position whose line and column are unsigned 32-bit integers. -/
def place? (value : Value) : Option Position :=
  (position? value).filter fun p => p.line < UInt32.size && p.character < UInt32.size

def placeRange? (value : Value) : Option Range := do
  return ⟨← place? (← value.get? "start"), ← place? (← value.get? "end")⟩

/-- A signed 32-bit integer. -/
def code? (value : Value) : Option Int32 := do
  let n ← value.integer?
  if Int32.minValue.toInt ≤ n ∧ n ≤ Int32.maxValue.toInt then return .ofInt n else none

def list? {α : Type} (read : Value → Option α) (value : Value) : Option (List α) := do
  (← value.items?).mapM read

def labelDetails? (value : Value) : Option LabelDetails := do
  let _ ← value.members?
  let detail ← optional Value.text? (value.get? "detail")
  let description ← optional Value.text? (value.get? "description")
  return { detail, description }

def markupKind? (value : Value) : Option MarkupKind := do
  match ← value.text? with
  | "plaintext" => return .plainText
  | "markdown" => return .markdown
  | _ => none

def documentation? : Value → Option Documentation
  | .string text => some (.text text)
  | value => do
    return .markup (← markupKind? (← value.get? "kind")) (← (← value.get? "value").text?)

def textEdit? (value : Value) : Option TextEdit := do
  return ⟨← placeRange? (← value.get? "range"), ← (← value.get? "newText").text?⟩

def insertReplace? (value : Value) : Option CompletionEdit := do
  let newText ← (← value.get? "newText").text?
  return .insertReplace newText (← placeRange? (← value.get? "insert"))
    (← placeRange? (← value.get? "replace"))

/-- An edit at one range, if it has one, or else one at two ranges. -/
def completionEdit? (value : Value) : Option CompletionEdit :=
  ((textEdit? value).map .plain).or (insertReplace? value)

def editorCommand? (value : Value) : Option EditorCommand := do
  let title ← (← value.get? "title").text?
  let command ← (← value.get? "command").text?
  let arguments ← optional Value.items? (value.get? "arguments")
  return { title, command, arguments }

/-- A completion item with the members that tell how it is shown. -/
def shownItem? (value : Value) : Option CompletionItem := do
  return {
    label := ← (← value.get? "label").text?
    labelDetails := ← optional labelDetails? (value.get? "labelDetails")
    kind := ← optional code? (value.get? "kind")
    detail := ← optional Value.text? (value.get? "detail")
    documentation := ← optional documentation? (value.get? "documentation")
    deprecated := ← optional Value.bool? (value.get? "deprecated")
    preselect := ← optional Value.bool? (value.get? "preselect")
    sortText := ← optional Value.text? (value.get? "sortText")
    filterText := ← optional Value.text? (value.get? "filterText")
    tags := ← optional (list? code?) (value.get? "tags") }

/-- A completion item with all its members: how it is shown, and what accepting it does. -/
def completionItem? (value : Value) : Option CompletionItem := do
  let shown ← shownItem? value
  return { shown with
    insertText := ← optional Value.text? (value.get? "insertText")
    insertTextFormat := ← optional code? (value.get? "insertTextFormat")
    insertTextMode := ← optional code? (value.get? "insertTextMode")
    textEdit := ← optional completionEdit? (value.get? "textEdit")
    additionalTextEdits := ← optional (list? textEdit?) (value.get? "additionalTextEdits")
    command := ← optional editorCommand? (value.get? "command")
    commitCharacters := ← optional (list? Value.text?) (value.get? "commitCharacters")
    data := ← optional some (value.get? "data") }

def documentUri? (params : Value) : Option Uri := (member? params ["textDocument", "uri"]).bind uri?

def documentVersion? (params : Value) : Option Int :=
  ((member? params ["textDocument", "version"]).bind code?).map Int32.toInt

def changeText? (change : Value) : Option String := (change.get? "text").bind Value.text?

/-- The call of a method; none if the parameters do not fit it. -/
def methodCall? (method : String) (params : Value) : Option Call :=
  match method with
  | "initialize" => (opening? params).map .openSession
  | "initialized" => some .initialized
  | "shutdown" => some .shutdown
  | "textDocument/didOpen" => do
    let text ← (← member? params ["textDocument", "text"]).text?
    return .didOpen (← documentUri? params) text (← documentVersion? params)
  | "textDocument/didChange" => do
    let changes ← (← params.get? "contentChanges").items?
    return .didChange (← documentUri? params) (← changes.mapM changeText?) (← documentVersion? params)
  | "textDocument/didClose" => (documentUri? params).map .didClose
  | "workspace/didChangeConfiguration" => (params.get? "settings").map .didChangeConfiguration
  | "workspace/didChangeWatchedFiles" => do
    let changes ← (← params.get? "changes").items?
    return .didChangeWatchedFiles (← changes.mapM fun change => (change.get? "uri").bind uri?)
  | "textDocument/completion" => do
    let _ ← documentUri? params
    return .completion
  | "completionItem/resolve" => (completionItem? params).map .resolve
  | "textDocument/hover" => do
    return .hover (← documentUri? params) (← place? (← params.get? "position"))
  | _ => none

def knownMethods : List String :=
  ["initialize", "initialized", "shutdown", "textDocument/didOpen", "textDocument/didChange",
    "textDocument/didClose", "workspace/didChangeConfiguration", "workspace/didChangeWatchedFiles",
    "textDocument/completion", "completionItem/resolve", "textDocument/hover"]

end Wire

end ScenarioServer
