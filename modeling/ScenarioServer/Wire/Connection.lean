import ScenarioServer.Json.Value
import ScenarioServer.Session
import ScenarioServer.Wire.Message

/-!
# The connection to an editor

A server behind JSON messages, and the framing of messages on a byte stream.
-/

namespace ScenarioServer

/-!
## Messages

Messages of the editor protocol, one JSON object each, on both sides of a connection. A message of
the client is a request with an id, a notification without one, or the response to a request of the
server. The server numbers its own requests from zero and holds what waits for their responses: the
rest of a call behind a registration, or a validation pass that needs settings.

Before the session is opened only the opening is served, and after the shutdown nothing but the
end of the session.
-/

namespace Wire

open Json (Value)

inductive Stage where
  | fresh
  | running
  | shutDown
  | ended
deriving Repr, DecidableEq

/-- What waits for the response to a request of the server. -/
inductive Awaiting where
  | registration (later : List Event)
  | settings (pass : Pass)

structure Connection where
  server : Server
  stage : Stage := .fresh
  nextId : Nat := 0
  awaiting : List (Nat × Awaiting) := []

def request (id : Nat) (method : String) (params : Value) : Value :=
  .object [("jsonrpc", .string "2.0"), ("method", .string method), ("params", params),
    ("id", .ofNat id)]

def notification (method : String) (params : Value) : Value :=
  .object [("jsonrpc", .string "2.0"), ("method", .string method), ("params", params)]

def response (id result : Value) : Value :=
  .object [("jsonrpc", .string "2.0"), ("result", result), ("id", id)]

/-- Why a request is refused before or instead of a call. -/
inductive Refusal where
  | notJson
  /-- The session has not been opened. -/
  | notOpened
  /-- The session cannot take this request any more. -/
  | outOfOrder
  | unknownMethod (method : String)
  | unusableParams
  | unresolved (cause : ResolveError)
deriving Repr, DecidableEq

def Refusal.code : Refusal → Int
  | .notJson => -32700
  | .notOpened => -32002
  | .outOfOrder => -32600
  | .unknownMethod _ => -32601
  | .unusableParams | .unresolved _ => invalidParamsCode

def Refusal.message : Refusal → String
  | .notJson => "Parse error"
  | .notOpened => "Server not initialized"
  | .outOfOrder => "Invalid request"
  | .unknownMethod _ => "Method not found"
  | .unusableParams => "Invalid params"
  | .unresolved cause => cause.message

/-- What a refusal names besides. -/
def Refusal.data? : Refusal → Option Value
  | .unknownMethod method => some (.string method)
  | _ => none

/-- The response that refuses a request of the client. -/
def failure (id : Value) (refusal : Refusal) : Value :=
  let error := present
    [("code", some (.ofInt refusal.code)), ("message", some (.string refusal.message)),
      ("data", refusal.data?)]
  .object [("jsonrpc", .string "2.0"), ("error", .object error), ("id", id)]

def publication (uri : Uri) (version : Option Int) (diagnostics : List Diagnostic) : Value :=
  .object (present
    [("uri", some (.string uri.text)),
      ("diagnostics", some (.array (diagnostics.map diagnostic))),
      ("version", version.map .ofInt)])

namespace Connection

/-- Sends events, up to a registration: what follows it waits for the response. A request for
settings is the last event of its call and waits as a pass. -/
def send (connection : Connection) (pass : Option Pass) : List Event → Connection × List Value
  | [] => (connection, [])
  | .publish uri version diagnostics :: later =>
    let message := notification "textDocument/publishDiagnostics" (publication uri version diagnostics)
    let (connection, messages) := connection.send pass later
    (connection, message :: messages)
  | .log text :: later =>
    let message := notification "window/logMessage"
      (.object [("type", .ofNat infoLevel), ("message", .string text)])
    let (connection, messages) := connection.send pass later
    (connection, message :: messages)
  | .register :: later =>
    let id := connection.nextId
    ({ connection with nextId := id + 1, awaiting := connection.awaiting ++ [(id, .registration later)] },
      [request id "client/registerCapability" (.object [("registrations", registrations)])])
  | .requestConfiguration uri :: _ =>
    let id := connection.nextId
    let awaiting := match pass with
      | some pass => connection.awaiting ++ [(id, .settings pass)]
      | none => connection.awaiting
    ({ connection with nextId := id + 1, awaiting },
      [request id "workspace/configuration" (.object [("items", configurationItems uri)])])

def receiveResponse (connection : Connection) (id : Nat) (result : Option Value) :
    Connection × List Value :=
  let waiting := connection.awaiting.lookup id
  let connection := { connection with awaiting := connection.awaiting.filter (·.1 ≠ id) }
  match waiting with
  | none => (connection, [])
  | some (.registration later) => connection.send none later
  | some (.settings pass) =>
    let answer := match result.bind Value.items? with
      | some values => Answer.values values
      | none => .failure
    let (server, events, next) := connection.server.resume pass answer
    { connection with server }.send next events

/-- Runs a call and sends its events; the reply is returned. -/
def run (connection : Connection) (files : FileSystem) (call : Call) :
    Connection × List Value × Reply :=
  let (server, events, reply, pass) := connection.server.call files call
  let (connection, messages) := { connection with server }.send pass events
  (connection, messages, reply)

/-- Why a request cannot be served at this stage, if it cannot. -/
def refusal? (connection : Connection) (method : String) : Option Refusal :=
  if !knownMethods.contains method then some (.unknownMethod method)
  else match connection.stage, method with
    | .fresh, "initialize" => none
    | .fresh, _ => some .notOpened
    | .running, "initialize" => some .outOfOrder
    | .running, _ => none
    | _, _ => some .outOfOrder

/-- The stage after a request has been served. -/
def stageAfter (stage : Stage) (method : String) : Stage :=
  match method with
  | "initialize" => .running
  | "shutdown" => .shutDown
  | _ => stage

def receiveRequest (connection : Connection) (files : FileSystem) (id : Value) (method : String)
    (params : Value) : Connection × List Value :=
  match connection.refusal? method, methodCall? method params with
  | some refusal, _ => (connection, [failure id refusal])
  | none, none => (connection, [failure id .unusableParams])
  | none, some call =>
    let (connection, messages, reply) := connection.run files call
    let connection := { connection with stage := stageAfter connection.stage method }
    match Wire.reply reply with
    | .ok result => (connection, messages ++ [response id result])
    | .error cause => (connection, messages ++ [failure id (.unresolved cause)])

/-- Serves a notification. One that is unknown or does not fit is dropped. -/
def receiveNotification (connection : Connection) (files : FileSystem) (method : String)
    (params : Value) : Connection × List Value :=
  if method = "exit" then ({ connection with stage := .ended }, [])
  else if connection.stage ≠ .running then (connection, [])
  else match methodCall? method params with
    | none => (connection, [])
    | some call =>
      let (connection, messages, _) := connection.run files call
      (connection, messages)

/-- Takes in a message of the client, and returns the messages that the server sends. -/
def receive (connection : Connection) (files : FileSystem) (message : Value) :
    Connection × List Value :=
  let params := (message.get? "params").getD .null
  match message.get? "method", message.get? "id" with
  | some (.string method), some id => connection.receiveRequest files id method params
  | some (.string method), none => connection.receiveNotification files method params
  | none, some id =>
    match id.natural? with
    | some id => connection.receiveResponse id (message.get? "result")
    | none => (connection, [])
  | _, _ => (connection, [])

def receiveText (connection : Connection) (files : FileSystem) (text : String) :
    Connection × List Value :=
  match Value.parse? text with
  | some message => connection.receive files message
  | none => (connection, [failure .null .notJson])

/-- The paths that taking in a message may look at: the configuration files of the workspace that is
open and of the one that the message opens. -/
def pathsFor (connection : Connection) (text : String) : List String :=
  let opened := do
    let params ← (← Value.parse? text).get? "params"
    (← opening? params).root?
  [connection.server.root, opened].filterMap fun root => root.map Config.pathIn

end Connection

/-!
## Framed messages

On a byte stream each message stands behind header lines and an empty line. One header gives the
number of bytes of the message; the others do not matter.
-/

def lengthHeader : String := "Content-Length"

def frame (message : Json.Value) : String :=
  let text := Json.compact message
  s!"{lengthHeader}: {text.utf8ByteSize}\r\n\r\n{text}"

/-- The text of a header line without its name, if it is the header of the given name. Names are
compared without regard to case. -/
def headerValue? (name : String) (line : String) : Option (List Char) :=
  let chars := line.toList
  if (chars.takeWhile (· ≠ ':')).map Char.toLower = name.toList.map Char.toLower then
    match chars.dropWhile (· ≠ ':') with
    | _ :: value => some (value.filter fun c => !c.isWhitespace)
    | [] => none
  else none

def contentLength? (headers : List String) : Option Nat :=
  headers.findSome? fun line => do
    let digits ← headerValue? lengthHeader line
    if digits.isEmpty || !digits.all Char.isDigit then none
    else some (digits.foldl (fun n c => n * 10 + (c.toNat - '0'.toNat)) 0)

end Wire

end ScenarioServer
