import ScenarioServer.Session

/-!
# The session as a step machine

`Server.call` and `Server.resume` run a call to its next stop. Here the same work is cut into
single steps, so that one can speak of the server at the moment an event is sent:

* a client makes a call (`Step.call`): what the call does at once is done, and the documents
  that it validates are queued, in any order;
* the running call takes the next document of its queue: it skips a closed one (`Step.skip`),
  is suspended if the client has to be asked for the settings (`Step.ask`), or ends the pass
  over the document (`Step.finish`);
* the client answers a suspended call (`Step.answer`), which ends the pass that waited and
  goes on with the rest of its queue.

Calls and answers come only when no call runs, so a call is interrupted nowhere but at a
request; apart from that every order of calls and answers is a run. `run_call` and
`run_resume` say that nothing is lost: the two functions of the server are runs of this
machine, with the same events. Such a run starts with the move of the client, and all its
other steps are work of the call.
-/

namespace ScenarioServer

namespace Server

/-! ## The first part of a call -/

/-- The settings that a pass over a document finds without asking the client. -/
def settings? (server : Server) (uri : Uri) : Option Settings :=
  if server.flags.configuration then server.store.cachedSettings uri
  else some server.globalSettings

/-- What a call does at once: the server after it, the events sent, and the documents that the
call goes on to validate. -/
def accept (server : Server) (files : FileSystem) : Call → Server × List Event × List Uri
  | .openSession opening => (server.openSession files opening, [], [])
  | .initialized =>
    let ready := [Event.log readyMessage]
    (server, if server.flags.configuration then .register :: ready else ready, [])
  | .didOpen uri text version =>
    ({ server with store := server.store.put uri text version }, [], [uri])
  | .didChange uri changes version =>
    match changes.getLast? with
    | none => (server, [], [])
    | some text => ({ server with store := server.store.put uri text version }, [], [uri])
  | .didClose uri => ({ server with store := server.store.close uri }, [.publish uri none []], [])
  | .didChangeConfiguration value =>
    (server.changeConfiguration value, [], (server.changeConfiguration value).store.uris)
  | .didChangeWatchedFiles uris =>
    match server.changeFiles? files uris with
    | none => (server, [], [])
    | some reloaded => (reloaded, [], reloaded.store.uris)
  | .shutdown | .completion | .resolve _ | .hover _ _ => (server, [], [])

/-- A call is its first part followed by the validation of the documents it named. -/
theorem call_eq_accept (server : Server) (files : FileSystem) (c : Call) :
    ∃ reply, server.call files c =
      let (accepted, events, uris) := server.accept files c
      let (after, later, pass) := accepted.validateAll uris
      (after, events ++ later, reply, pass) := by
  cases c with
  | didOpen uri text version => exact ⟨.nothing, rfl⟩
  | didChange uri changes version =>
      refine ⟨.nothing, ?_⟩
      simp only [call, accept]
      cases changes.getLast? <;> simp [validateAll, thenValidate]
  | didChangeConfiguration value => exact ⟨.nothing, rfl⟩
  | didChangeWatchedFiles uris =>
      refine ⟨.nothing, ?_⟩
      simp only [call, accept]
      cases server.changeFiles? files uris <;> simp [validateAll, thenValidate]
  | resolve item =>
      simp only [call, accept, validateAll, List.append_nil]
      cases item.resolve server.engine.keywords with
      | ok item => exact ⟨_, rfl⟩
      | error cause => exact ⟨_, rfl⟩
  | initialized => exact ⟨.nothing, by simp [call, accept, validateAll]⟩
  | openSession | shutdown | didClose | completion | hover => exact ⟨_, rfl⟩

end Server

/-! ## The machine -/

/-- A server at work: the documents that the running call has still to validate, and the calls
that wait for an answer, each under its ticket. No call runs if the queue is empty. -/
structure Machine where
  server : Server
  queue : List Uri := []
  waiting : List (Nat × Pass) := []
  nextTicket : Nat := 0

/-- What makes the machine take a step: a call of the client, the client's answer to a call that
waits, or the running call itself. -/
inductive Move where
  | call (files : FileSystem) (call : Call)
  | answer (ticket : Nat) (answer : Answer)
  | work

namespace Machine

def start (engine : Engine) (defaults : Settings) (discovers : Bool) : Machine :=
  { server := Server.start engine defaults discovers }

/-- The running call stops: it is at its end, or it waits under a new ticket. -/
def stop (m : Machine) : Option Pass → Machine
  | none => { m with queue := [] }
  | some pass =>
    { m with queue := [], waiting := m.waiting ++ [(m.nextTicket, pass)], nextTicket := m.nextTicket + 1 }

theorem waiting_stop {m : Machine} (hwaiting : m.waiting = []) (pass : Pass) :
    (m.stop (some pass)).waiting = [(m.nextTicket, pass)] := by
  simp [stop, hwaiting]

end Machine

/-- One step of the machine, with the events it sends. -/
inductive Step : Machine → Move → List Event → Machine → Prop
  | call {m : Machine} {files : FileSystem} {c : Call} {server : Server} {events : List Event}
      {uris queue : List Uri} (hidle : m.queue = [])
      (haccept : m.server.accept files c = (server, events, uris)) (horder : queue.Perm uris) :
      Step m (.call files c) events { m with server, queue }
  | skip {m : Machine} {uri : Uri} {rest : List Uri} (hqueue : m.queue = uri :: rest)
      (hclosed : m.server.store.get? uri = none) :
      Step m .work [] { m with queue := rest }
  | ask {m : Machine} {uri : Uri} {rest : List Uri} {document : Document}
      (hqueue : m.queue = uri :: rest) (hopen : m.server.store.get? uri = some document)
      (hunknown : m.server.settings? uri = none) :
      Step m .work [.requestConfiguration uri]
        (m.stop (some ⟨uri, document, m.server.globalSettings, rest⟩))
  | finish {m : Machine} {uri : Uri} {rest : List Uri} {document : Document} {settings : Settings}
      {server : Server} {events : List Event}
      (hqueue : m.queue = uri :: rest) (hopen : m.server.store.get? uri = some document)
      (hknown : m.server.settings? uri = some settings)
      (hpublish : m.server.publish uri document settings = (server, events)) :
      Step m .work events { m with server, queue := rest }
  | answer {m : Machine} {ticket : Nat} {pass : Pass} {a : Answer} {received server : Server}
      {settings : Settings} {events : List Event} (hidle : m.queue = [])
      (hwaits : (ticket, pass) ∈ m.waiting)
      (hreceive : m.server.receive pass.uri pass.fallback a = (received, settings))
      (hpublish : received.publish pass.uri pass.document settings = (server, events)) :
      Step m (.answer ticket a) events
        { m with server, queue := pass.remaining, waiting := m.waiting.filter (·.1 ≠ ticket) }

/-- A step as a record keeps it: the machine before and after, and the events in between. -/
structure Entry where
  before : Machine
  move : Move
  events : List Event
  after : Machine

/-- The runs from a machine, with their steps in the order they were taken. -/
inductive Run (start : Machine) : List Entry → Machine → Prop
  | refl : Run start [] start
  | tail {trace : List Entry} {m m' : Machine} {move : Move} {events : List Event}
      (hrun : Run start trace m) (hstep : Step m move events m') :
      Run start (trace ++ [⟨m, move, events, m'⟩]) m'

def sentEvents (trace : List Entry) : List Event := trace.flatMap Entry.events

theorem sentEvents_append (trace trace' : List Entry) :
    sentEvents (trace ++ trace') = sentEvents trace ++ sentEvents trace' :=
  List.flatMap_append

namespace Run

theorem trans {m₁ m₂ m₃ : Machine} {trace trace' : List Entry} (h₁ : Run m₁ trace m₂)
    (h₂ : Run m₂ trace' m₃) : Run m₁ (trace ++ trace') m₃ := by
  induction h₂ with
  | refl => rwa [List.append_nil]
  | tail _ hstep ih =>
      rw [← List.append_assoc]
      exact ih.tail hstep

theorem head {m₁ m₂ m₃ : Machine} {move : Move} {events : List Event} {trace : List Entry}
    (hstep : Step m₁ move events m₂) (hrun : Run m₂ trace m₃) :
    Run m₁ (⟨m₁, move, events, m₂⟩ :: trace) m₃ :=
  (refl.tail hstep).trans hrun

theorem split {m₁ m₂ : Machine} {earlier later : List Entry} (h : Run m₁ (earlier ++ later) m₂) :
    ∃ m, Run m₁ earlier m ∧ Run m later m₂ := by
  generalize htrace : earlier ++ later = trace at h
  induction h generalizing later with
  | refl =>
      obtain ⟨rfl, rfl⟩ := List.append_eq_nil_iff.mp htrace
      exact ⟨m₁, refl, refl⟩
  | @tail trace m m' move events hrun hstep ih =>
      rcases List.eq_nil_or_concat later with rfl | ⟨front, last, rfl⟩
      · rw [List.append_nil] at htrace
        subst htrace
        exact ⟨m', hrun.tail hstep, refl⟩
      · rw [List.concat_eq_append, ← List.append_assoc] at htrace
        obtain ⟨hfront, hlast⟩ := List.append_inj' htrace rfl
        obtain ⟨mid, hearlier, hlater⟩ := ih hfront
        obtain rfl := List.singleton_inj.mp hlast
        rw [List.concat_eq_append]
        exact ⟨mid, hearlier, hlater.tail hstep⟩

theorem eq_of_nil {m₁ m₂ : Machine} (h : Run m₁ [] m₂) : m₂ = m₁ := by
  generalize htrace : [] = trace at h
  cases h with
  | refl => rfl
  | tail => simp at htrace

/-- Every entry of a run is a step, taken after the entries before it. -/
theorem entry {m₁ m₂ : Machine} {earlier later : List Entry} {e : Entry}
    (h : Run m₁ (earlier ++ e :: later) m₂) :
    Run m₁ earlier e.before ∧ Step e.before e.move e.events e.after ∧ Run e.after later m₂ := by
  obtain ⟨m, hearlier, hlater⟩ := h.split
  rw [← List.singleton_append] at hlater
  obtain ⟨m', hone, hrest⟩ := hlater.split
  generalize htrace : [e] = trace at hone
  cases hone with
  | refl => simp at htrace
  | tail hrun hstep =>
      rcases List.append_eq_singleton_iff.mp htrace.symm with ⟨rfl, hlast⟩ | ⟨-, hnil⟩
      · obtain rfl := List.singleton_inj.mp hlast
        obtain rfl := eq_of_nil hrun
        exact ⟨hearlier, hstep, hrest⟩
      · simp at hnil

theorem first {m₁ m₂ : Machine} {e : Entry} {later : List Entry} (h : Run m₁ (e :: later) m₂) :
    e.before = m₁ ∧ Step e.before e.move e.events e.after ∧ Run e.after later m₂ := by
  rw [← List.nil_append (e :: later)] at h
  obtain ⟨hnone, hstep, hlater⟩ := h.entry
  exact ⟨hnone.eq_of_nil, hstep, hlater⟩

end Run

/-! ## The server's functions are runs -/

namespace Server

theorem validateAll_closed {server : Server} {uri : Uri} (h : server.store.get? uri = none)
    (rest : List Uri) : server.validateAll (uri :: rest) = server.validateAll rest := by
  simp [validateAll, h]

theorem validateAll_unknown {server : Server} {uri : Uri} {document : Document}
    (hopen : server.store.get? uri = some document) (hunknown : server.settings? uri = none)
    (rest : List Uri) :
    server.validateAll (uri :: rest) = (server, [.requestConfiguration uri],
      some ⟨uri, document, server.globalSettings, rest⟩) := by
  rw [settings?] at hunknown
  simp [validateAll, hopen, hunknown]

theorem validateAll_known {server : Server} {uri : Uri} {document : Document} {settings : Settings}
    (hopen : server.store.get? uri = some document)
    (hknown : server.settings? uri = some settings) (rest : List Uri) :
    server.validateAll (uri :: rest) =
      let (published, events) := server.publish uri document settings
      let (after, later, pass) := published.validateAll rest
      (after, events ++ later, pass) := by
  rw [settings?] at hknown
  simp [validateAll, hopen, hknown]

end Server

/-- The running call works off its queue as `validateAll` does. -/
theorem run_validateAll (m : Machine) :
    ∃ trace, Run m trace ({ m with server := (m.server.validateAll m.queue).1 }.stop
        (m.server.validateAll m.queue).2.2) ∧
      sentEvents trace = (m.server.validateAll m.queue).2.1 ∧ ∀ e ∈ trace, e.move = .work := by
  obtain ⟨server, queue, waiting, nextTicket⟩ := m
  induction queue generalizing server with
  | nil => exact ⟨[], .refl, rfl, by simp⟩
  | cons uri rest ih =>
      cases hopen : server.store.get? uri with
      | none =>
          obtain ⟨trace, hrun, hevents, hwork⟩ := ih server
          dsimp only at hrun hevents ⊢
          rw [Server.validateAll_closed hopen]
          refine ⟨_, .head (.skip rfl hopen) hrun, hevents, ?_⟩
          simpa using hwork
      | some document =>
          cases hsettings : server.settings? uri with
          | none =>
              dsimp only
              rw [Server.validateAll_unknown hopen hsettings]
              exact ⟨_, .head (.ask rfl hopen hsettings) .refl, rfl, by simp⟩
          | some settings =>
              obtain ⟨trace, hrun, hevents, hwork⟩ := ih (server.publish uri document settings).1
              dsimp only at hrun hevents ⊢
              rw [Server.validateAll_known hopen hsettings]
              refine ⟨_, .head (.finish rfl hopen hsettings rfl) hrun, congrArg _ hevents, ?_⟩
              simpa using hwork

/-- A call of the server is a run of the machine with the same events: the step of the call itself,
and then the work on the documents that it queued. -/
theorem run_call {m : Machine} (hidle : m.queue = []) (files : FileSystem) (c : Call) :
    ∃ first later, Run m (first :: later) ({ m with server := (m.server.call files c).1 }.stop
        (m.server.call files c).2.2.2) ∧
      first.move = .call files c ∧ (∀ e ∈ later, e.move = .work) ∧
      sentEvents (first :: later) = (m.server.call files c).2.1 := by
  obtain ⟨reply, hcall⟩ := m.server.call_eq_accept files c
  obtain ⟨later, hrun, hevents, hwork⟩ := run_validateAll
    { m with server := (m.server.accept files c).1, queue := (m.server.accept files c).2.2 }
  rw [hcall]
  exact ⟨_, later, .head (.call hidle rfl (.refl _)) hrun, rfl, hwork, congrArg _ hevents⟩

/-- Going on with a suspended call is a run of the machine with the same events: the step of the
answer, and then the work on the documents that were left. -/
theorem run_resume {m : Machine} (hidle : m.queue = []) {ticket : Nat} {pass : Pass}
    (hwaits : (ticket, pass) ∈ m.waiting) (a : Answer) :
    ∃ first later, Run m (first :: later)
        ({ m with server := (m.server.resume pass a).1,
                  waiting := m.waiting.filter (·.1 ≠ ticket) }.stop (m.server.resume pass a).2.2) ∧
      first.move = .answer ticket a ∧ (∀ e ∈ later, e.move = .work) ∧
      sentEvents (first :: later) = (m.server.resume pass a).2.1 := by
  obtain ⟨later, hrun, hevents, hwork⟩ := run_validateAll
    { m with
      server := ((m.server.receive pass.uri pass.fallback a).1.publish pass.uri pass.document
        (m.server.receive pass.uri pass.fallback a).2).1
      queue := pass.remaining
      waiting := m.waiting.filter (·.1 ≠ ticket) }
  exact ⟨_, later, .head (.answer hidle hwaits rfl rfl) hrun, rfl, hwork, congrArg _ hevents⟩

/-! ## A session to run

Runs on fixed inputs start from the built-in tables, with one document. -/

def Engine.builtin : Engine := ⟨⟨builtinKeywords⟩, ⟨builtinHover⟩⟩

theorem ofEntries_builtinKeywords :
    KeywordTable.ofEntries builtinKeywords = .ok ⟨builtinKeywords⟩ := by
  have hsound : firstFault .keyword KeywordEntry.label KeywordEntry.label KeywordEntry.label [] 0
      builtinKeywords = none := by decide +kernel
  rw [KeywordTable.ofEntries, hsound]

theorem ofEntries_builtinHover : HoverTable.ofEntries builtinHover = .ok ⟨builtinHover⟩ := by
  have hsound : firstFault .hover HoverEntry.label HoverEntry.key HoverEntry.shown [] 0
      builtinHover = none := by decide +kernel
  rw [HoverTable.ofEntries, hsound]

theorem covers_builtinKeywords : KeywordTable.covers ⟨builtinKeywords⟩ vocabularyLabels = .ok () := by
  have hcovered : vocabularyLabels.find?
      (fun label => (KeywordTable.get? ⟨builtinKeywords⟩ label).isNone) = none := by decide +kernel
  rw [KeywordTable.covers, hcovered]

/-- The program accepts its built-in rows: without table files it runs on this engine, whatever the
file system. -/
theorem Engine.ofTables_load_builtin (files : FileSystem) :
    LookupTables.load files none none >>= Engine.ofTables = .ok Engine.builtin := by
  simp only [LookupTables.load, ofEntries_builtinKeywords, ofEntries_builtinHover, Engine.ofTables,
    covers_builtinKeywords, Engine.builtin, bind, Except.bind, pure, Except.pure]

def loginUri : Uri := { scheme := "file", authority := some {}, path := "/w/login.tacl" }

def askableOpening : Opening := { flags := { configuration := true } }

def capAnswer (cap : Nat) : Answer := .values [.object [(Settings.capName, .ofNat cap)]]

end ScenarioServer
