import ScenarioServer.Proofs.PlainServer
import ScenarioServer.Proofs.SettingsCache

/-!
# The publish guard

Generations and the ledger are there for passes that are overtaken. Where the client answers every
request at once no pass is, and the server could do without: it is then the plain server.

`Server.plain` forgets what the plain server does without. It commutes with the first part of a call
(`Server.plain_accept`), with the work that follows (`Run.visits`) and so with whole sessions
(`Session.replays`): call by call the two servers send the same events and return the same replies.
-/

namespace ScenarioServer

/-! ## Forgetting generations and ledger -/

section UriMap

variable {α β : Type}

def UriMap.map (f : α → β) (map : UriMap α) : UriMap β where
  entries := map.entries.map fun (uri, value) => (uri, f value)
  nodup := by
    rw [List.map_map]
    exact map.nodup

theorem UriMap.keys_map (f : α → β) (map : UriMap α) : (map.map f).keys = map.keys := by
  simp [keys, UriMap.map]

theorem UriMap.get?_map (f : α → β) (map : UriMap α) (uri : Uri) :
    (map.map f).get? uri = (map.get? uri).map f := by
  simp only [get?, UriMap.map]
  induction map.entries with
  | nil => rfl
  | cons entry rest ih =>
      obtain ⟨key, value⟩ := entry
      rw [List.map_cons, List.lookup_cons, List.lookup_cons, ih]
      cases uri == key <;> rfl

theorem UriMap.map_erase (f : α → β) (map : UriMap α) (uri : Uri) :
    (map.erase uri).map f = (map.map f).erase uri := by
  simp [UriMap.map, erase, List.filter_map, Function.comp_def]

theorem UriMap.map_insert (f : α → β) (map : UriMap α) (uri : Uri) (value : α) :
    (map.insert uri value).map f = (map.map f).insert uri (f value) := by
  simp [UriMap.map, insert, erase, List.filter_map, Function.comp_def]

end UriMap

def Document.draft (document : Document) : Draft := ⟨document.text, document.version⟩

namespace Server

def process (server : Server) : Process where
  engine := server.engine
  discovers := server.discovers
  flags := server.flags
  defaults := server.defaults
  globalSettings := server.globalSettings
  root := server.root

/-- The server without generations and ledger. -/
def plain (server : Server) : PlainServer where
  toProcess := server.process
  documents := server.store.documents.map Document.draft
  settings := server.store.settings

theorem plain_get? (server : Server) (uri : Uri) :
    server.plain.documents.get? uri = (server.store.get? uri).map Document.draft :=
  UriMap.get?_map ..

theorem plain_keys (server : Server) : server.plain.documents.keys = server.store.uris :=
  UriMap.keys_map ..

theorem plain_settings? (server : Server) (uri : Uri) :
    server.plain.settings? uri = server.settings? uri :=
  rfl

theorem plain_put (server : Server) (uri : Uri) (text : String) (version : Int) :
    plain { server with store := server.store.put uri text version } =
      server.plain.put uri text version := by
  simp only [plain, PlainServer.put, Store.put, UriMap.map_insert]
  rfl

theorem plain_close (server : Server) (uri : Uri) :
    plain { server with store := server.store.close uri } =
      { server.plain with
        documents := server.plain.documents.erase uri
        settings := server.plain.settings.erase uri } := by
  simp only [plain, Store.close, UriMap.map_erase]
  rfl

theorem plain_withLoaded (server : Server) (loaded : Option Settings) :
    (server.withLoaded loaded).plain =
      { server.plain with toProcess := server.process.load loaded } := by
  cases loaded <;> rfl

theorem plain_openSession (server : Server) (files : FileSystem) (opening : Opening) :
    (server.openSession files opening).plain =
      { server.plain with toProcess := server.process.openSession files opening } := by
  rw [openSession_eq, plain_withLoaded]
  rfl

theorem plain_changeConfiguration (server : Server) (value : Json.Value) :
    (server.changeConfiguration value).plain =
      { server.plain with
        toProcess := server.process.changeConfiguration value
        settings := if server.flags.configuration then .empty else server.plain.settings } := by
  unfold changeConfiguration Process.changeConfiguration
  by_cases hflag : server.flags.configuration = true
  · have hflag' : server.process.flags.configuration = true := hflag
    rw [if_pos hflag, if_pos hflag', if_pos hflag]
    rfl
  · have hflag' : ¬server.process.flags.configuration = true := hflag
    rw [if_neg hflag, if_neg hflag', if_neg hflag]
    simp only [process]
    cases Settings.ofChange? value server.defaults <;> rfl

/-- The first part of a call does the same on both servers. -/
theorem plain_accept (server : Server) (files : FileSystem) (c : Call) :
    server.plain.accept files c =
      ((server.accept files c).1.plain, (server.accept files c).2) := by
  cases c with
  | openSession opening => simp only [accept, plain_openSession]; rfl
  | didOpen uri text version => simp only [accept, plain_put]; rfl
  | didChange uri changes version =>
      simp only [accept, PlainServer.accept]
      cases changes.getLast? with
      | none => rfl
      | some text => simp only [plain_put]
  | didClose uri => simp only [accept, plain_close]; rfl
  | didChangeConfiguration value =>
      simp only [accept, ← plain_keys, plain_changeConfiguration]
      rfl
  | didChangeWatchedFiles uris =>
      have hreloaded : server.plain.reloaded? files uris =
        Move.loaded? server.discovers server.root (.call files (.didChangeWatchedFiles uris)) := rfl
      simp only [accept, PlainServer.accept, changeFiles?_eq_map, hreloaded]
      cases Move.loaded? server.discovers server.root (.call files (.didChangeWatchedFiles uris)) with
      | none => rfl
      | some settings =>
          simp only [Option.map_some, plain_withLoaded, ← plain_keys]
          rfl
  | initialized | shutdown | completion | resolve | hover => rfl

theorem plain_reply (server : Server) (files : FileSystem) (c : Call) :
    server.plain.reply c = (server.call files c).2.2.1 := by
  cases c with
  | didChange uri changes version =>
      simp only [call, PlainServer.reply]
      cases changes.getLast? <;> rfl
  | didChangeWatchedFiles uris =>
      simp only [call, PlainServer.reply]
      cases server.changeFiles? files uris <;> rfl
  | resolve item =>
      simp only [call, PlainServer.reply]
      have hkeywords : server.plain.engine.keywords = server.engine.keywords := rfl
      rw [hkeywords]
      cases item.resolve server.engine.keywords <;> rfl
  | hover uri position =>
      simp only [call, PlainServer.reply, plain_get?]
      cases server.store.get? uri <;> rfl
  | openSession | initialized | shutdown | didOpen | didClose | didChangeConfiguration |
    completion => rfl

theorem plain_publish {server after : Server} {uri : Uri} {document : Document} {settings : Settings}
    {events : List Event} (h : server.publish uri document settings = (after, events)) :
    after.plain = server.plain := by
  rcases publish_cases h with ⟨rfl, -, -⟩ | ⟨-, -, rfl, -⟩
  · rfl
  · rfl

theorem plain_receive {server received : Server} {uri : Uri} {fallback settings : Settings}
    {a : Answer} (h : server.receive uri fallback a = (received, settings))
    (hopen : server.store.isOpen uri = true) :
    received.plain = server.plain.cache uri (answeredSettings? fallback a) := by
  unfold receive at h
  cases hgiven : answeredSettings? fallback a with
  | none =>
      rw [hgiven] at h
      obtain ⟨rfl, -⟩ := Prod.mk.inj h
      rfl
  | some given =>
      rw [hgiven] at h
      obtain ⟨rfl, -⟩ := Prod.mk.inj h
      simp only [Store.cacheSettings, hopen, if_true]
      rfl

end Server

/-! ## Work -/

theorem Step.skips {m m' : Machine} {move : Move} {events : List Event}
    (hstep : Step m move events m') {uri : Uri} {rest : List Uri} (hqueue : m.queue = uri :: rest)
    (hclosed : m.server.store.get? uri = none) : events = [] ∧ m' = { m with queue := rest } := by
  cases hstep with
  | call hidle | answer hidle =>
      rw [hidle] at hqueue
      cases hqueue
  | skip hqueue' =>
      obtain ⟨rfl, rfl⟩ := List.cons.inj (hqueue.symm.trans hqueue')
      exact ⟨rfl, rfl⟩
  | ask hqueue' hopen | finish hqueue' hopen =>
      obtain ⟨rfl, -⟩ := List.cons.inj (hqueue.symm.trans hqueue')
      rw [hclosed] at hopen
      cases hopen

/-- A run of work that is not over yet has a next step. -/
theorem Run.next {m m' : Machine} {trace : List Entry} (hrun : Run m trace m') (hends : m'.AtRest)
    (hworks : ¬m.AtRest) : ∃ move events m₁ later,
      trace = ⟨m, move, events, m₁⟩ :: later ∧ Step m move events m₁ ∧ Run m₁ later m' := by
  cases trace with
  | nil =>
      obtain rfl := hrun.eq_of_nil
      exact absurd hends hworks
  | cons e later =>
      obtain ⟨rfl, hstep, hlater⟩ := hrun.first
      exact ⟨_, _, _, _, rfl, hstep, hlater⟩

/-- The only call waits: the next step takes in the answer and ends the pass. -/
theorem Run.answering {m m' : Machine} {trace : List Entry} (hrun : Run m trace m') (hsound : Sound m)
    (hwork : ∀ e ∈ trace, ¬e.move.IsCall) {answer : Uri → Answer} (hanswered : Answered answer trace)
    (hends : m'.AtRest) {ticket : Nat} {pass : Pass} (hidle : m.queue = [])
    (hwaiting : m.waiting = [(ticket, pass)])
    (hopen : m.server.store.get? pass.uri = some pass.document) :
    ∃ e later, trace = e :: later ∧ Run m [e] e.after ∧ Run e.after later m' ∧
      e.after.queue = pass.remaining ∧ e.after.waiting = [] ∧
      e.after.server.plain = m.server.plain.cache pass.uri
        (Server.answeredSettings? pass.fallback (answer pass.uri)) ∧
      e.events = [m.server.process.publication pass.uri pass.document.draft
        ((Server.answeredSettings? pass.fallback (answer pass.uri)).getD pass.fallback)] := by
  obtain ⟨move, events, m₁, later, rfl, hstep, hlater⟩ := hrun.next hends (by
    rintro ⟨-, hnone⟩
    rw [hwaiting] at hnone
    cases hnone)
  obtain ⟨a, rfl, hrest, hdone⟩ :=
    hstep.answer_of_waiting hidle hwaiting (hwork _ (List.mem_cons_self ..))
  have ha : a = answer pass.uri := by
    have hgiven := answers_of_answer (e := ⟨m, .answer ticket a, events, m₁⟩) rfl hwaiting pass.uri
    rw [if_pos rfl] at hgiven
    exact (answered_cons_iff.mp hanswered).1 pass.uri _ (hgiven ▸ List.mem_singleton_self _)
  have hwaits := hwaiting ▸ List.mem_singleton_self (ticket, pass)
  have hevents := hstep.events_of_current hsound (.answer hwaits) hopen
  rw [Server.receive_settings, ha] at hevents
  refine ⟨_, later, rfl, Run.refl.tail hstep, hlater, hrest, hdone, ?_, hevents⟩
  cases hstep with
  | answer _ hwaits' hreceive hpublish =>
      obtain rfl := hsound.distinct ticket _ _ hwaits hwaits'
      have hisOpen := (Store.isOpen_iff ..).mpr ⟨_, hopen⟩
      rw [← ha]
      exact (Server.plain_publish hpublish).trans (Server.plain_receive hreceive hisOpen)

/-- The machine comes to the next document of its queue: the pass over it does what a visit of the
plain server does. -/
theorem Run.visit {m m' : Machine} {during : List Entry} (hrun : Run m during m') (hsound : Sound m)
    (hwaiting : m.waiting = []) (hwork : ∀ e ∈ during, ¬e.move.IsCall) {answer : Uri → Answer}
    (hanswered : Answered answer during) (hends : m'.AtRest) {uri : Uri} {rest : List Uri}
    (hqueue : m.queue = uri :: rest) :
    ∃ pass later m₁, during = pass ++ later ∧ Run m pass m₁ ∧ Run m₁ later m' ∧ m₁.queue = rest ∧
      m₁.waiting = [] ∧ m.server.plain.visit answer uri = (m₁.server.plain, sentEvents pass) := by
  obtain ⟨move, events, m₁, later, rfl, hstep, hlater⟩ := hrun.next hends (by
    rintro ⟨hidle, -⟩
    rw [hidle] at hqueue
    cases hqueue)
  have hdraft := m.server.plain_get? uri
  have hfirst := Run.refl.tail hstep
  cases hopen : m.server.store.get? uri with
  | none =>
      obtain ⟨rfl, rfl⟩ := hstep.skips hqueue hopen
      refine ⟨_, later, _, rfl, hfirst, hlater, rfl, hwaiting, ?_⟩
      rw [hopen, Option.map_none] at hdraft
      simp only [PlainServer.visit, hdraft]
      rfl
  | some document =>
      rw [hopen, Option.map_some] at hdraft
      -- the pass ends with this step if its settings are known, and with the next if it has to ask
      rcases hstep.pass_cases hqueue hopen with
        ⟨settings, hknown, rfl, hpublish, hrest, hstill⟩ | ⟨hunknown, rfl, rfl, rfl⟩
      · obtain rfl := hstep.events_of_current hsound (.work hqueue hopen hknown) hopen
        refine ⟨_, later, m₁, rfl, hfirst, hlater, hrest, hstill.trans hwaiting, ?_⟩
        simp only [PlainServer.visit, hdraft, Server.plain_settings?, hknown,
          Server.plain_publish hpublish]
        rfl
      · obtain ⟨e, last, rfl, hanswer, hlast, hrest, hdone, hplain, hevents⟩ :=
          hlater.answering (hstep.sound hsound) (List.forall_mem_cons.mp hwork).2
            (answered_cons_iff.mp hanswered).2 hends rfl (Machine.waiting_stop hwaiting _) hopen
        refine ⟨_, last, e.after, rfl, hfirst.trans hanswer, hlast, hrest, hdone, ?_⟩
        simp only [PlainServer.visit, hdraft, Server.plain_settings?, hunknown, hplain,
          sentEvents_append]
        simp only [sentEvents, List.flatMap_cons, List.flatMap_nil, hevents]
        rfl

/-- Work on the queue does on the plain server what it does on the machine. -/
theorem Run.visits {m m' : Machine} {during : List Entry} (hrun : Run m during m') (hsound : Sound m)
    (hwaiting : m.waiting = []) (hwork : ∀ e ∈ during, ¬e.move.IsCall) {answer : Uri → Answer}
    (hanswered : Answered answer during) (hends : m'.AtRest) :
    m.server.plain.visitAll answer m.queue = (m'.server.plain, sentEvents during) := by
  -- on the queue, since a pass may take one step or two
  induction hqueue : m.queue generalizing m during with
  | nil =>
      obtain rfl := hrun.eq_nil_of_idle hqueue hwaiting hwork
      obtain rfl := hrun.eq_of_nil
      rfl
  | cons uri rest ih =>
      obtain ⟨pass, later, m₁, rfl, hpass, hlater, hrest, hdone, hvisit⟩ :=
        hrun.visit hsound hwaiting hwork hanswered hends hqueue
      have hafter := ih hlater (hpass.sound hsound) hdone
        (fun e he => hwork e (List.mem_append_right _ he)) (answered_append_iff.mp hanswered).2 hrest
      simp only [PlainServer.visitAll, hvisit, hafter, sentEvents_append]

/-! ## Whole sessions -/

/-- The plain server serves the requests of a session one after another, its documents in some order
each time, and sends and returns what the exchanges say. -/
inductive PlainServer.Replays : PlainServer → List Exchange → PlainServer → Prop
  | nil (s : PlainServer) : Replays s [] s
  | cons {s served after : PlainServer} {x : Exchange} {xs : List Exchange} {order : List Uri}
      (horder : order.Perm (s.accept x.request.files x.request.call).2.2)
      (hserve : s.serve x.request order = (served, x.events))
      (hreply : s.reply x.request.call = x.reply) (hrest : Replays served xs after) :
      Replays s (x :: xs) after

theorem Exchange.Serves.sound {x : Exchange} (h : x.Serves) (hsound : Sound x.before) :
    Sound x.after :=
  h.run.sound (h.step.sound hsound)

/-- The work of an exchange, seen on the plain server. -/
theorem Exchange.Serves.visits {x : Exchange} (h : x.Serves) (hsound : Sound x.before) :
    x.calling.after.server.plain.visitAll x.request.answer x.calling.after.queue =
      (x.after.server.plain, sentEvents x.during) :=
  h.run.visits (h.step.sound hsound) h.queued.2 h.work h.answered h.ends

/-- The call of an exchange: its first part is done, and the documents it names are queued. -/
theorem Exchange.Serves.accepts {x : Exchange} (h : x.Serves) :
    ∃ uris, x.calling.after.queue.Perm uris ∧
      x.before.server.accept x.request.files x.request.call =
        (x.calling.after.server, x.calling.events, uris) := by
  obtain ⟨request, ⟨before, move, events, after⟩, during, last⟩ := x
  have hstep := h.step
  have hcall := h.call
  dsimp only at hstep hcall
  rw [hcall] at hstep
  cases hstep with
  | call _ haccept horder => exact ⟨_, horder, haccept⟩

theorem Exchange.Serves.replay {x : Exchange} (h : x.Serves) (hsound : Sound x.before) :
    ∃ order, order.Nodup ∧
      order.Perm (x.before.server.plain.accept x.request.files x.request.call).2.2 ∧
      x.before.server.plain.serve x.request order = (x.after.server.plain, x.events) := by
  obtain ⟨uris, horder, haccept⟩ := h.accepts
  have hplain := x.before.server.plain_accept x.request.files x.request.call
  rw [haccept] at hplain
  refine ⟨x.calling.after.queue, h.queued.1, ?_, ?_⟩
  · rw [hplain]
    exact horder
  · simp only [PlainServer.serve, hplain, h.visits hsound]
    rfl

theorem Session.serves {m m' : Machine} {xs : List Exchange} (h : Session m xs m') (hsound : Sound m) :
    ∀ x ∈ xs, x.Serves ∧ Sound x.before := by
  induction h with
  | nil => simp
  | cons hserves _ ih =>
      exact List.forall_mem_cons.mpr ⟨⟨hserves, hsound⟩, ih (hserves.sound hsound)⟩

theorem Exchange.reply_eq (x : Exchange) :
    x.reply = x.before.server.plain.reply x.request.call :=
  (x.before.server.plain_reply ..).symm

theorem Session.replays {m m' : Machine} {xs : List Exchange} (h : Session m xs m')
    (hsound : Sound m) : PlainServer.Replays m.server.plain xs m'.server.plain := by
  induction h with
  | nil m => exact .nil _
  | @cons x xs m hserves hrest ih =>
      obtain ⟨order, -, horder, hserve⟩ := hserves.replay hsound
      exact .cons horder hserve x.reply_eq.symm (ih (hserves.sound hsound))

/-! ## How often a call publishes -/

namespace Server

/-- The documents that a call publishes. -/
def publishedBy (server : Server) (files : FileSystem) : Call → List Uri
  | .didOpen uri _ _ | .didClose uri => [uri]
  | .didChange uri changes _ => if changes.isEmpty then [] else [uri]
  | .didChangeConfiguration _ => server.store.uris
  | .didChangeWatchedFiles uris =>
    if (server.changeFiles? files uris).isSome then server.store.uris else []
  | _ => []

theorem accept_publishedBy {server after : Server} {files : FileSystem} {c : Call}
    {events : List Event} {uris : List Uri} (h : server.accept files c = (after, events, uris))
    (hclose : ∀ uri, c ≠ .didClose uri) :
    uris = server.publishedBy files c ∧
      ∀ uri ∈ uris, ∃ document, after.store.get? uri = some document := by
  cases c with
  | didOpen uri text version =>
      obtain ⟨rfl, -, rfl⟩ := h
      exact ⟨rfl, by simp [Store.get?_put]⟩
  | didChange uri changes version =>
      simp only [accept] at h
      cases changes with
      | nil =>
          obtain ⟨-, -, rfl⟩ := h
          exact ⟨rfl, by simp⟩
      | cons text later =>
          rw [List.getLast?_cons] at h
          obtain ⟨rfl, -, rfl⟩ := h
          exact ⟨rfl, by simp [Store.get?_put]⟩
  | didClose uri => exact absurd rfl (hclose uri)
  | didChangeConfiguration value =>
      obtain ⟨rfl, -, rfl⟩ := h
      refine ⟨?_, fun uri => (Store.mem_uris_iff ..).mp⟩
      rw [← plain_keys, plain_changeConfiguration, publishedBy, ← plain_keys]
  | didChangeWatchedFiles changed =>
      simp only [accept] at h
      split at h
      · next hfiles =>
        obtain ⟨-, -, rfl⟩ := h
        simp [publishedBy, hfiles]
      · next hfiles =>
        obtain ⟨rfl, -, rfl⟩ := h
        refine ⟨?_, fun uri => (Store.mem_uris_iff ..).mp⟩
        rw [publishedBy, hfiles, changeFiles?_store hfiles]
        rfl
  | openSession | initialized | shutdown | completion | resolve | hover =>
      obtain ⟨-, -, rfl⟩ := h
      exact ⟨rfl, by simp⟩

end Server

/-- Work publishes every document of the queue once, if it is open. -/
theorem Exchange.Serves.length_publications_during {x : Exchange} (h : x.Serves)
    (hsound : Sound x.before)
    (hopen : ∀ uri ∈ x.calling.after.queue, ∃ document,
      x.calling.after.server.store.get? uri = some document) (uri : Uri) :
    (publications uri (sentEvents x.during)).length =
      if uri ∈ x.calling.after.queue then 1 else 0 := by
  have hvisits := h.visits hsound
  rw [← publications_eventsFor, ← (Prod.mk.inj hvisits).2]
  split
  · next hmem =>
    obtain ⟨document, hdocument⟩ := hopen uri hmem
    have hdraft := x.calling.after.server.plain_get? uri
    rw [hdocument, Option.map_some] at hdraft
    rw [(PlainServer.visitAll_of_mem h.queued.1 hmem ..).1]
    exact PlainServer.length_publications_visit hdraft _
  · next hmem =>
    rw [(PlainServer.visitAll_of_not_mem hmem ..).1]
    rfl

theorem Exchange.publications_events (x : Exchange) (uri : Uri) :
    publications uri x.events =
      publications uri x.calling.events ++ publications uri (sentEvents x.during) :=
  publications_append ..

/-- A call that closes a document takes its diagnostics back, and publishes nothing else. -/
theorem Exchange.Serves.publications_of_close {x : Exchange} (h : x.Serves) {target : Uri}
    (hclose : x.request.call = .didClose target) (uri : Uri) :
    publications uri x.events = if target = uri then [(none, [])] else [] := by
  obtain ⟨uris, horder, haccept⟩ := h.accepts
  simp only [hclose, Server.accept, Prod.mk.injEq] at haccept
  obtain ⟨-, hevents, rfl⟩ := haccept
  have hnone := h.run.eq_nil_of_idle (List.perm_nil.mp horder) h.queued.2 h.work
  rw [x.publications_events, hnone, ← hevents, publications_publish]
  exact List.append_nil _

theorem Exchange.Serves.length_publications {x : Exchange} (h : x.Serves) (hsound : Sound x.before)
    (uri : Uri) : (publications uri x.events).length =
      if uri ∈ x.before.server.publishedBy x.request.files x.request.call then 1 else 0 := by
  by_cases hclose : ∃ target, x.request.call = .didClose target
  · obtain ⟨target, hclose⟩ := hclose
    rw [h.publications_of_close hclose, hclose]
    by_cases huri : target = uri
    · simp [Server.publishedBy, huri]
    · simp [Server.publishedBy, huri, Ne.symm huri]
  · have hclose : ∀ target, x.request.call ≠ .didClose target := not_exists.mp hclose
    obtain ⟨uris, horder, haccept⟩ := h.accepts
    obtain ⟨rfl, hopen⟩ := Server.accept_publishedBy haccept hclose
    have hquiet : publications uri x.calling.events = [] := by
      rcases Server.accept_cases haccept with
        ⟨_, _, _, -, hnone, -⟩ | ⟨target, htarget, -⟩ | ⟨-, -, -, hnone⟩
      · rw [hnone]
        rfl
      · exact absurd htarget (hclose target)
      · exact publications_eq_nil (hnone uri)
    have hduring := h.length_publications_during hsound
      (fun key hkey => hopen key (horder.mem_iff.mp hkey)) uri
    rw [x.publications_events, hquiet, List.nil_append, hduring]
    simp only [horder.mem_iff]

/-- In a run without stalls the publish guard cannot be seen. The run falls into exchanges, and call by
call, a server that has no guard sends the same events and returns the same replies; the order of the
documents, where a call validates several, is the one of the run. Opening a document, a change with at
least one text in it, and closing one publish this document once; a change of the client's configuration
and a new configuration file publish every open document once; no other call publishes. What a close
publishes is empty and has no version. -/
theorem guard_is_invisible {engine : Engine} {defaults : Settings} {discovers : Bool}
    {trace : List Entry} {m : Machine}
    (hrun : Run (Machine.start engine defaults discovers) trace m) (hunstalled : Unstalled trace)
    (hends : m.AtRest) :
    ∃ xs, Session (Machine.start engine defaults discovers) xs m ∧
      xs.flatMap Exchange.steps = trace ∧
      PlainServer.Replays (.start engine defaults discovers) xs m.server.plain ∧
      ∀ x ∈ xs, ∀ uri,
        (publications uri x.events).length =
          (if uri ∈ x.before.server.publishedBy x.request.files x.request.call then 1 else 0) ∧
        (x.request.call = .didClose uri → publications uri x.events = [(none, [])]) := by
  have hsound := Sound.start engine defaults discovers
  obtain ⟨xs, hsession, hsteps⟩ := hrun.session hsound hunstalled (.start ..) hends
  refine ⟨xs, hsession, hsteps, hsession.replays hsound, fun x hx uri => ?_⟩
  obtain ⟨hserves, hbefore⟩ := hsession.serves hsound x hx
  refine ⟨hserves.length_publications hbefore uri, fun hclose => ?_⟩
  rw [hserves.publications_of_close hclose, if_pos rfl]

/-- A document is opened, closed, and opened again under a lower version. -/
theorem reopening_run : ∃ trace m, Run (Machine.start Engine.builtin {} false) trace m ∧
    Unstalled trace ∧ m.AtRest ∧ publications loginUri (sentEvents trace) =
      [(some 5, validate loginUri "AA" 1 false), (none, []),
        (some 1, validate loginUri "AA" 1000 false)] := by
  have hrun : Run (Machine.start Engine.builtin {} false) _ _ :=
    .head (@Step.call _ .empty (.openSession askableOpening) _ _ _ _ rfl rfl (.refl _)) <|
    .head (@Step.call _ .empty (.didOpen loginUri "AA" 5) _ _ _ _ rfl rfl (.refl _)) <|
    .head (.ask rfl rfl rfl) <|
    .head (@Step.answer _ 0 _ (capAnswer 1) _ _ _ _ rfl (List.mem_cons_self ..) rfl rfl) <|
    .head (@Step.call _ .empty (.didClose loginUri) _ _ _ _ rfl rfl (.refl _)) <|
    .head (@Step.call _ .empty (.didOpen loginUri "AA" 1) _ _ _ _ rfl rfl (.refl _)) <|
    .head (.ask rfl rfl rfl) <|
    .head (@Step.answer _ 1 _ .failure _ _ _ _ rfl (List.mem_cons_self ..) rfl rfl) .refl
  refine ⟨_, _, hrun, ?_, ⟨rfl, rfl⟩, rfl⟩
  simp [Unstalled, Move.IsCall, Machine.start, Machine.stop]

/-- The law at that run: the lower version is published, as it is by a server without a guard. -/
theorem guard_is_invisible_at_reopen : ∃ trace m,
    Run (Machine.start Engine.builtin {} false) trace m ∧ Unstalled trace ∧ m.AtRest ∧
    publications loginUri (sentEvents trace) =
      [(some 5, validate loginUri "AA" 1 false), (none, []),
        (some 1, validate loginUri "AA" 1000 false)] ∧
    ∃ xs, xs.flatMap Exchange.steps = trace ∧
      PlainServer.Replays (.start Engine.builtin {} false) xs m.server.plain := by
  obtain ⟨trace, m, hrun, hunstalled, hends, hpublished⟩ := reopening_run
  obtain ⟨xs, -, hsteps, hreplays, -⟩ := guard_is_invisible hrun hunstalled hends
  exact ⟨trace, m, hrun, hunstalled, hends, hpublished, xs, hsteps, hreplays⟩

end ScenarioServer
