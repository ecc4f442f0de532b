import ScenarioServer.Proofs.Exchanges
import ScenarioServer.Proofs.SettingsInForce

/-!
# A server without a publish guard

The plain server numbers no generations and keeps no ledger. All it knows of a document is the text,
the version and the cached settings, and it publishes the result of every pass.

A pass over one document sees nothing of the others: two servers that are the same as far as a document
can tell (`AgreeOn`) do the same for it, and in a pass over several documents each is visited as if it
were the only one (`visitAll_of_mem`), whatever the order.
-/

namespace ScenarioServer

/-! ## The plain server -/

/-- What a server keeps for all documents together. -/
structure Process where
  engine : Engine
  discovers : Bool
  flags : ClientFlags
  defaults : Settings
  globalSettings : Settings
  root : Option String

/-- A document without a generation. -/
structure Draft where
  text : String
  version : Int

namespace Process

/-- Puts the settings of a configuration file in force, if there is one that can be used. -/
def load (p : Process) : Option Settings → Process
  | some settings => { p with defaults := settings, globalSettings := settings }
  | none => p

def openSession (p : Process) (files : FileSystem) (opening : Opening) : Process :=
  { p with flags := opening.flags, root := opening.root? }.load
    (opening.root?.bind fun root => if p.discovers then Config.settingsIn? files root else none)

def changeConfiguration (p : Process) (value : Json.Value) : Process :=
  if p.flags.configuration then p
  else { p with globalSettings := (Settings.ofChange? value p.defaults).getD p.globalSettings }

/-- The settings of the configuration file, if it is among the changed files. -/
def reloaded? (p : Process) (files : FileSystem) (uris : List Uri) : Option Settings :=
  p.root.bind fun root =>
    if p.discovers && Server.concernsConfig root uris then Config.settingsIn? files root else none

/-- What a pass over a document publishes. -/
def publication (p : Process) (uri : Uri) (draft : Draft) (settings : Settings) : Event :=
  .publish uri (some draft.version)
    (validate uri draft.text settings.maxNumberOfProblems p.flags.relatedInformation)

end Process

structure PlainServer extends Process where
  documents : UriMap Draft := .empty
  settings : UriMap Settings := .empty

namespace PlainServer

def start (engine : Engine) (defaults : Settings) (discovers : Bool) : PlainServer :=
  { engine, discovers, flags := {}, defaults, globalSettings := defaults, root := none }

def put (s : PlainServer) (uri : Uri) (text : String) (version : Int) : PlainServer :=
  { s with documents := s.documents.insert uri ⟨text, version⟩ }

/-- What a call does at once, with the events sent and the documents to validate next. A document that
is opened again keeps its cached settings; only closing it drops them. -/
def accept (s : PlainServer) (files : FileSystem) : Call → PlainServer × List Event × List Uri
  | .openSession opening => ({ s with toProcess := s.toProcess.openSession files opening }, [], [])
  | .initialized =>
    let ready := [Event.log Server.readyMessage]
    (s, if s.flags.configuration then .register :: ready else ready, [])
  | .didOpen uri text version => (s.put uri text version, [], [uri])
  | .didChange uri changes version =>
    match changes.getLast? with
    | none => (s, [], [])
    | some text => (s.put uri text version, [], [uri])
  | .didClose uri =>
    ({ s with documents := s.documents.erase uri, settings := s.settings.erase uri },
      [.publish uri none []], [])
  | .didChangeConfiguration value =>
    ({ s with
        toProcess := s.toProcess.changeConfiguration value
        settings := if s.flags.configuration then .empty else s.settings },
      [], s.documents.keys)
  | .didChangeWatchedFiles uris =>
    match s.toProcess.reloaded? files uris with
    | none => (s, [], [])
    | some settings =>
      ({ s with toProcess := s.toProcess.load (some settings) }, [], s.documents.keys)
  | .shutdown | .completion | .resolve _ | .hover _ _ => (s, [], [])

def reply (s : PlainServer) : Call → Reply
  | .openSession opening => .capabilities opening.flags.workspaceFolders
  | .completion => .items completionItems
  | .resolve item =>
    match item.resolve s.engine.keywords with
    | .ok item => .item item
    | .error cause => .refused cause
  | .hover uri position =>
    .hover <| (s.documents.get? uri).bind fun draft =>
      let text := s.engine.hoverText uri draft.text position
      if text = "" then none else some text
  | _ => .nothing

/-- The settings of a document that are known without asking. -/
def settings? (s : PlainServer) (uri : Uri) : Option Settings :=
  if s.flags.configuration then s.settings.get? uri else some s.globalSettings

def cache (s : PlainServer) (uri : Uri) : Option Settings → PlainServer
  | some settings => { s with settings := s.settings.insert uri settings }
  | none => s

/-- A pass over one document. Its result is published, whatever was published before. -/
def visit (s : PlainServer) (answer : Uri → Answer) (uri : Uri) : PlainServer × List Event :=
  match s.documents.get? uri with
  | none => (s, [])
  | some draft =>
    match s.settings? uri with
    | some settings => (s, [s.publication uri draft settings])
    | none =>
      let given := Server.answeredSettings? s.globalSettings (answer uri)
      (s.cache uri given,
        [.requestConfiguration uri, s.publication uri draft (given.getD s.globalSettings)])

def visitAll (s : PlainServer) (answer : Uri → Answer) : List Uri → PlainServer × List Event
  | [] => (s, [])
  | uri :: rest =>
    let (visited, events) := s.visit answer uri
    let (after, later) := visited.visitAll answer rest
    (after, events ++ later)

/-- A whole call, which validates its documents in the given order. -/
def serve (s : PlainServer) (request : Request) (order : List Uri) : PlainServer × List Event :=
  let (accepted, events, _) := s.accept request.files request.call
  let (after, later) := accepted.visitAll request.answer order
  (after, events ++ later)

end PlainServer

/-! ## One document among others -/

/-- The events that are about a document. -/
def eventsFor (uri : Uri) (events : List Event) : List Event :=
  events.filter fun event => event.uri? = some uri

theorem eventsFor_append (uri : Uri) (events later : List Event) :
    eventsFor uri (events ++ later) = eventsFor uri events ++ eventsFor uri later :=
  List.filter_append ..

theorem publications_eventsFor (uri : Uri) (events : List Event) :
    publications uri (eventsFor uri events) = publications uri events := by
  rw [publications, eventsFor, List.filterMap_filter]
  refine List.filterMap_congr fun event _ => ?_
  cases event with
  | publish target version diagnostics =>
      by_cases huri : target = uri <;> simp [Event.uri?, Event.publication?, huri]
  | requestConfiguration | register | log => simp [Event.publication?]

namespace PlainServer

/-- Two servers are the same as far as one document can tell. -/
structure AgreeOn (uri : Uri) (s s' : PlainServer) : Prop where
  process : s.toProcess = s'.toProcess
  document : s.documents.get? uri = s'.documents.get? uri
  settings : s.settings.get? uri = s'.settings.get? uri

variable {s s' s'' : PlainServer} {uri key : Uri}

theorem AgreeOn.refl (s : PlainServer) (uri : Uri) : AgreeOn uri s s := ⟨rfl, rfl, rfl⟩

theorem AgreeOn.symm (h : AgreeOn uri s s') : AgreeOn uri s' s :=
  ⟨h.process.symm, h.document.symm, h.settings.symm⟩

theorem AgreeOn.trans (h : AgreeOn uri s s') (h' : AgreeOn uri s' s'') : AgreeOn uri s s'' :=
  ⟨h.process.trans h'.process, h.document.trans h'.document, h.settings.trans h'.settings⟩

theorem agreeOn_cache (h : key ≠ uri) (s : PlainServer) (given : Option Settings) :
    AgreeOn uri (s.cache key given) s := by
  cases given with
  | none => exact .refl s uri
  | some settings => exact ⟨rfl, rfl, by simp [cache, UriMap.get?_insert, Ne.symm h]⟩

theorem AgreeOn.cache (h : AgreeOn uri s s') (given : Option Settings) :
    AgreeOn uri (s.cache uri given) (s'.cache uri given) := by
  cases given with
  | none => exact h
  | some settings => exact ⟨h.process, h.document, by simp [PlainServer.cache]⟩

theorem AgreeOn.settings? (h : AgreeOn uri s s') : s.settings? uri = s'.settings? uri := by
  simp only [PlainServer.settings?, h.process, h.settings]

theorem AgreeOn.visit (h : AgreeOn uri s s') (answer : Uri → Answer) :
    (s.visit answer uri).2 = (s'.visit answer uri).2 ∧
      AgreeOn uri (s.visit answer uri).1 (s'.visit answer uri).1 := by
  simp only [PlainServer.visit, h.document, h.settings?, h.process]
  cases s'.documents.get? uri with
  | none => exact ⟨rfl, h⟩
  | some draft =>
      cases s'.settings? uri with
      | some settings => exact ⟨rfl, h⟩
      | none => exact ⟨rfl, h.cache _⟩

/-- A visit is invisible to the other documents. -/
theorem visit_of_ne (h : key ≠ uri) (s : PlainServer) (answer : Uri → Answer) :
    eventsFor uri (s.visit answer key).2 = [] ∧ AgreeOn uri (s.visit answer key).1 s := by
  unfold PlainServer.visit
  cases s.documents.get? key with
  | none => exact ⟨rfl, .refl s uri⟩
  | some draft =>
      cases s.settings? key with
      | some settings =>
          exact ⟨by simp [eventsFor, Event.uri?, Process.publication, h], .refl s uri⟩
      | none => exact ⟨by simp [eventsFor, Event.uri?, Process.publication, h], agreeOn_cache h s _⟩

theorem eventsFor_visit (s : PlainServer) (answer : Uri → Answer) (uri : Uri) :
    eventsFor uri (s.visit answer uri).2 = (s.visit answer uri).2 := by
  unfold PlainServer.visit
  cases s.documents.get? uri with
  | none => rfl
  | some draft =>
      cases s.settings? uri <;> simp [eventsFor, Event.uri?, Process.publication]

theorem visitAll_of_not_mem {order : List Uri} (h : uri ∉ order) (s : PlainServer)
    (answer : Uri → Answer) :
    eventsFor uri (s.visitAll answer order).2 = [] ∧ AgreeOn uri (s.visitAll answer order).1 s := by
  induction order generalizing s with
  | nil => exact ⟨rfl, .refl s uri⟩
  | cons key rest ih =>
      obtain ⟨hkey, hrest⟩ := not_or.mp (List.mem_cons.not.mp h)
      obtain ⟨hnone, hagree⟩ := visit_of_ne (Ne.symm hkey) s answer
      obtain ⟨hnone', hagree'⟩ := ih hrest (s.visit answer key).1
      simp only [visitAll, eventsFor_append, hnone, hnone']
      exact ⟨rfl, hagree'.trans hagree⟩

/-- In a pass over several documents, each is visited as if it were the only one. -/
theorem visitAll_of_mem {order : List Uri} (hnodup : order.Nodup) (h : uri ∈ order) (s : PlainServer)
    (answer : Uri → Answer) :
    eventsFor uri (s.visitAll answer order).2 = (s.visit answer uri).2 ∧
      AgreeOn uri (s.visitAll answer order).1 (s.visit answer uri).1 := by
  induction order generalizing s with
  | nil => cases h
  | cons key rest ih =>
      obtain ⟨hnew, hnodup⟩ := List.nodup_cons.mp hnodup
      simp only [visitAll, eventsFor_append]
      by_cases hkey : key = uri
      · -- the documents that follow are others
        subst hkey
        obtain ⟨hnone, hagree⟩ := visitAll_of_not_mem hnew (s.visit answer key).1 answer
        rw [hnone, List.append_nil, eventsFor_visit]
        exact ⟨rfl, hagree⟩
      · have hrest : uri ∈ rest := (List.mem_cons.mp h).resolve_left (Ne.symm hkey)
        obtain ⟨hnone, hagree⟩ := visit_of_ne hkey s answer
        obtain ⟨hevents, hafter⟩ := ih hnodup hrest (s.visit answer key).1
        obtain ⟨hsame, hvisited⟩ := hagree.visit answer
        rw [hnone, List.nil_append, hevents]
        exact ⟨hsame, hafter.trans hvisited⟩

theorem length_publications_visit {draft : Draft} (h : s.documents.get? uri = some draft)
    (answer : Uri → Answer) :
    (publications uri (s.visit answer uri).2).length = 1 := by
  simp only [visit, h]
  cases s.settings? uri <;>
    simp [publications, List.filterMap_cons, Event.publication?, Process.publication]

end PlainServer

end ScenarioServer
