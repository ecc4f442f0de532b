import ScenarioServer.Diagnostic
import ScenarioServer.Documents
import ScenarioServer.Engine
import ScenarioServer.Json.Value
import ScenarioServer.Settings

/-!
# Sessions

The calls of a client, the server as a state that they act on, and a client whose behaviour is set
beforehand.
-/

namespace ScenarioServer

/-!
## What passes between client and server

A client makes calls and answers configuration requests; the server replies to calls and sends
events on its way.
-/

structure ClientFlags where
  configuration : Bool := false
  workspaceFolders : Bool := false
  relatedInformation : Bool := false
deriving Repr, DecidableEq

structure Opening where
  flags : ClientFlags := {}
  rootUri : Option Uri := none
  workspaceFolders : Option (List Uri) := none
deriving Repr, DecidableEq

/-- The local root of a workspace: its first folder, or else its root. -/
def Opening.root? (opening : Opening) : Option String :=
  ((opening.workspaceFolders.bind List.head?).or opening.rootUri).bind Uri.filePath?

inductive Call where
  | openSession (opening : Opening)
  | initialized
  | shutdown
  | didOpen (uri : Uri) (text : String) (version : Int)
  | didChange (uri : Uri) (changes : List String) (version : Int)
  | didClose (uri : Uri)
  | didChangeConfiguration (settings : Json.Value)
  | didChangeWatchedFiles (uris : List Uri)
  | completion
  | resolve (item : CompletionItem)
  | hover (uri : Uri) (position : Position)

inductive Reply where
  | nothing
  | capabilities (workspaceFolders : Bool)
  | items (items : List CompletionItem)
  | item (item : CompletionItem)
  | refused (cause : ResolveError)
  | hover (documentation : Option String)

inductive Answer where
  | failure
  | values (values : List Json.Value)

/-- What the server sends during a call. -/
inductive Event where
  | publish (uri : Uri) (version : Option Int) (diagnostics : List Diagnostic)
  | requestConfiguration (uri : Uri)
  | register
  | log (message : String)
deriving Repr, DecidableEq

def Event.uri? : Event → Option Uri
  | .publish uri _ _ => some uri
  | .requestConfiguration uri => some uri
  | .register => none
  | .log _ => none

/-!
## The language server

The server is a state, and every call is a function on it. A call runs without interruption except
where it validates a document whose settings it has to ask the client for: there it is suspended as
a `Pass`, and `resume` goes on with it once the client has answered. Any number of calls may be
suspended while others run, and they may be resumed in any order.

A pass works on the text it read when it began. Its diagnostics are published only if the document
is still open at the same generation and nothing newer has been published; otherwise they are
dropped.
-/

/-- The state of the server. `defaults` come from the configuration file or the start options,
`globalSettings` are in force where no document has settings of its own. -/
structure Server where
  engine : Engine
  /-- Whether the configuration file of the workspace is looked for. -/
  discovers : Bool := true
  flags : ClientFlags := {}
  defaults : Settings := {}
  globalSettings : Settings := {}
  root : Option String := none
  store : Store := {}

/-- A validation pass that waits for the settings of its document: the document as it was when the
pass began, the settings that count if the client has none, and the documents to validate next. -/
structure Pass where
  uri : Uri
  document : Document
  fallback : Settings
  remaining : List Uri
deriving Repr, DecidableEq

namespace Server

def start (engine : Engine) (defaults : Settings) (discovers : Bool) : Server :=
  { engine, discovers, defaults, globalSettings := defaults }

/-! ### Validation -/

/-- Ends a validation pass: publishes the diagnostics of the document as the pass read it, unless the
document has changed since or something newer has been published. -/
def publish (server : Server) (uri : Uri) (document : Document) (settings : Settings) :
    Server × List Event :=
  if server.store.isCurrent uri document.generation &&
      server.store.ledger.admits uri document.generation then
    let diagnostics :=
      validate uri document.text settings.maxNumberOfProblems server.flags.relatedInformation
    ({ server with store := server.store.record uri document.generation },
      [.publish uri (some document.version) diagnostics])
  else (server, [])

/-- Validates one document after another, until one needs its settings from the client. Closed
documents are skipped. -/
def validateAll (server : Server) : List Uri → Server × List Event × Option Pass
  | [] => (server, [], none)
  | uri :: remaining =>
    match server.store.get? uri with
    | none => server.validateAll remaining
    | some document =>
      let settings? :=
        if server.flags.configuration then server.store.cachedSettings uri
        else some server.globalSettings
      match settings? with
      | none =>
        (server, [.requestConfiguration uri],
          some { uri, document, fallback := server.globalSettings, remaining })
      | some settings =>
        let (server, events) := server.publish uri document settings
        let (server, later, pass) := server.validateAll remaining
        (server, events ++ later, pass)

/-- The settings that an answer gives to a document: those of its first value, or the fallback if
there is none or it cannot be used. A failure gives nothing to keep. -/
def answeredSettings? (fallback : Settings) : Answer → Option Settings
  | .failure => none
  | .values values => some ((values.head?.bind (Settings.ofSection? · fallback)).getD fallback)

/-- Takes in the answer to a configuration request, and returns the settings to use. -/
def receive (server : Server) (uri : Uri) (fallback : Settings) (answer : Answer) :
    Server × Settings :=
  match answeredSettings? fallback answer with
  | none => (server, fallback)
  | some settings => ({ server with store := server.store.cacheSettings uri settings }, settings)

/-- Goes on with a suspended pass. -/
def resume (server : Server) (pass : Pass) (answer : Answer) : Server × List Event × Option Pass :=
  let (server, settings) := server.receive pass.uri pass.fallback answer
  let (server, events) := server.publish pass.uri pass.document settings
  let (server, later, next) := server.validateAll pass.remaining
  (server, events ++ later, next)

/-- A pass that is suspended has fewer documents left than there were to validate. -/
theorem validateAll_remaining_lt {server after : Server} {uris : List Uri} {events : List Event}
    {pass : Pass} (h : server.validateAll uris = (after, events, some pass)) :
    pass.remaining.length < uris.length := by
  induction uris generalizing server events with
  | nil => simp [validateAll] at h
  | cons uri remaining ih =>
    simp only [validateAll] at h
    split at h
    · exact Nat.lt_succ_of_lt (ih h)
    · split at h
      · simp only [Prod.mk.injEq, Option.some.injEq] at h
        simp [← h.2.2]
      · simp only [Prod.mk.injEq] at h
        exact Nat.lt_succ_of_lt (ih (Prod.ext h.1 (Prod.ext rfl h.2.2)))

/-- A pass that is suspended again has fewer documents left. -/
theorem resume_remaining_lt {server after : Server} {pass next : Pass} {answer : Answer}
    {events : List Event} (h : server.resume pass answer = (after, events, some next)) :
    next.remaining.length < pass.remaining.length := by
  simp only [resume, Prod.mk.injEq] at h
  exact validateAll_remaining_lt (Prod.ext h.1 (Prod.ext rfl h.2.2))

/-! ### The configuration file -/

/-- Puts the settings of the workspace's configuration file in force. None if there is no such file
or it cannot be used. -/
def reload? (server : Server) (files : FileSystem) (root : String) : Option Server :=
  match Config.discover files root with
  | .ok (some config) =>
    some { server with defaults := config.settings, globalSettings := config.settings }
  | _ => none

/-- Whether one of the changed files is the configuration file of the workspace. -/
def concernsConfig (root : String) (uris : List Uri) : Bool :=
  uris.any fun uri => uri.filePath?.any fun path => Path.same path (Config.pathIn root)

/-! ### Calls -/

def openSession (server : Server) (files : FileSystem) (opening : Opening) : Server :=
  let server := { server with flags := opening.flags }
  let root := opening.root?
  let server := match root with
    | some root => if server.discovers then (server.reload? files root).getD server else server
    | none => server
  { server with root }

def readyMessage : String := "TACL language server ready"

/-- The settings after a change of the client's configuration. A client that can be asked will be
asked again; from any other the new settings are taken if they concern this program. -/
def changeConfiguration (server : Server) (value : Json.Value) : Server :=
  if server.flags.configuration then { server with store := server.store.clearSettings }
  else
    match Settings.ofChange? value server.defaults with
    | some settings => { server with globalSettings := settings }
    | none => server

/-- The server after a change of files, if the change puts a new configuration file in force. -/
def changeFiles? (server : Server) (files : FileSystem) (uris : List Uri) : Option Server :=
  server.root.bind fun root =>
    if server.discovers && concernsConfig root uris then server.reload? files root else none

/-- Validates documents as the last part of a call. -/
def thenValidate (server : Server) (uris : List Uri) : Server × List Event × Reply × Option Pass :=
  let (server, events, pass) := server.validateAll uris
  (server, events, .nothing, pass)

/-- Runs a call, to its end or until it is suspended. The reply counts when the call has ended. -/
def call (server : Server) (files : FileSystem) : Call → Server × List Event × Reply × Option Pass
  | .openSession opening =>
    (server.openSession files opening, [], .capabilities opening.flags.workspaceFolders, none)
  | .initialized =>
    let ready := [Event.log readyMessage]
    (server, if server.flags.configuration then .register :: ready else ready, .nothing, none)
  | .shutdown => (server, [], .nothing, none)
  | .didOpen uri text version =>
    { server with store := server.store.put uri text version }.thenValidate [uri]
  | .didChange uri changes version =>
    match changes.getLast? with
    | none => (server, [], .nothing, none)
    | some text => { server with store := server.store.put uri text version }.thenValidate [uri]
  | .didClose uri =>
    ({ server with store := server.store.close uri }, [.publish uri none []], .nothing, none)
  | .didChangeConfiguration value =>
    let server := server.changeConfiguration value
    server.thenValidate server.store.uris
  | .didChangeWatchedFiles uris =>
    match server.changeFiles? files uris with
    | none => (server, [], .nothing, none)
    | some server => server.thenValidate server.store.uris
  | .completion => (server, [], .items completionItems, none)
  | .resolve item =>
    match item.resolve server.engine.keywords with
    | .ok item => (server, [], .item item, none)
    | .error cause => (server, [], .refused cause, none)
  | .hover uri position =>
    let documentation := (server.store.get? uri).bind fun document =>
      let text := server.engine.hoverText uri document.text position
      if text = "" then none else some text
    (server, [], .hover documentation, none)

end Server

/-!
## Sessions with a scripted client

A session in which the client's behaviour is set beforehand: what it answers to configuration
requests, for one document or for all others, and how many of the next requests it leaves waiting.
A request that waits gets a ticket, and its call goes on when the ticket is released; the client
answers then as it would at that time.
-/

/-- How a client behaves. -/
structure ClientScript where
  /-- The answer for a document without one of its own. -/
  standing : Answer := .values [.null]
  /-- The answers for single documents. -/
  perDocument : UriMap Answer := .empty
  /-- How many of the next requests wait. -/
  held : Nat := 0

def ClientScript.answerFor (script : ClientScript) (uri : Uri) : Answer :=
  (script.perDocument.get? uri).getD script.standing

/-- A server, its client, and the suspended passes by ticket. -/
structure ScriptedSession where
  server : Server
  client : ClientScript := {}
  waiting : List (Nat × Pass) := []
  nextTicket : Nat := 0

namespace ScriptedSession

/-- Leaves a pass waiting under a new ticket. -/
def hold (session : ScriptedSession) (pass : Pass) : ScriptedSession :=
  { session with
    client := { session.client with held := session.client.held - 1 }
    waiting := session.waiting ++ [(session.nextTicket, pass)]
    nextTicket := session.nextTicket + 1 }

/-- Lets the client answer a pass and the requests that follow it, until one waits; returns the
ticket of that one. -/
def settle (session : ScriptedSession) (pass : Pass) : ScriptedSession × List Event × Option Nat :=
  if 0 < session.client.held then (session.hold pass, [], some session.nextTicket)
  else
    match _ : session.server.resume pass (session.client.answerFor pass.uri) with
    | (server, events, none) => ({ session with server }, events, none)
    | (server, events, some next) =>
      let (session, later, ticket) := settle { session with server } next
      (session, events ++ later, ticket)
termination_by pass.remaining.length
decreasing_by exact Server.resume_remaining_lt ‹_›

def settle? (session : ScriptedSession) (events : List Event) (pass : Option Pass) :
    ScriptedSession × List Event × Option Nat :=
  match pass with
  | none => (session, events, none)
  | some pass =>
    let (session, later, ticket) := session.settle pass
    (session, events ++ later, ticket)

/-- Makes a call. The ticket tells that the call is suspended. -/
def call (session : ScriptedSession) (files : FileSystem) (call : Call) :
    ScriptedSession × List Event × Reply × Option Nat :=
  let (server, events, reply, pass) := session.server.call files call
  let (session, events, ticket) := settle? { session with server } events pass
  (session, events, reply, ticket)

/-- Releases a ticket. None if no pass waits under it. -/
def release? (session : ScriptedSession) (ticket : Nat) :
    Option (ScriptedSession × List Event × Option Nat) :=
  (session.waiting.lookup ticket).map fun pass =>
    let (server, events, next) := session.server.resume pass (session.client.answerFor pass.uri)
    settle? { session with server, waiting := session.waiting.filter (·.1 ≠ ticket) } events next

end ScriptedSession

end ScenarioServer
