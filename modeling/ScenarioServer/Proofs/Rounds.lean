import ScenarioServer.Proofs.Overtaking

/-!
# Calls that are answered at once

In a run without stalls (`Unstalled`) the client answers every request before it makes another
call. Then at most one call waits at a time, and nothing happens while it waits (`Steady`), so the
steps from a call to its end form a round: the documents that are `pending` are taken one by one,
and each open one is published exactly once.

`Run.validated_of_round` says this for every round, with the settings that each pass uses: those that
were known when the round began, or those of the one answer that the client gives in it.
`Run.answered_of_cached` looks further back: what is cached for a document is what the client's latest
answer gave.
-/

namespace ScenarioServer

/-! ## Runs without stalls -/

def Move.IsCall : Move → Prop
  | .call _ _ => True
  | _ => False

/-- Every call comes when no other call waits for an answer. -/
def Unstalled (trace : List Entry) : Prop :=
  ∀ e ∈ trace, e.move.IsCall → e.before.waiting = []

/-- No call waits, or one does, none runs, and nothing that it has read has changed since. -/
inductive Steady (m : Machine) : Prop
  | running (hwaiting : m.waiting = [])
  | asking {ticket : Nat} {pass : Pass} (hqueue : m.queue = []) (hwaiting : m.waiting = [(ticket, pass)])
      (hopen : m.server.store.get? pass.uri = some pass.document)
      (hunknown : m.server.settings? pass.uri = none)
      (hfallback : pass.fallback = m.server.globalSettings)

theorem Steady.waiting_eq_nil {m : Machine} (h : Steady m) {uri : Uri} {rest : List Uri}
    (hqueue : m.queue = uri :: rest) : m.waiting = [] := by
  cases h with
  | running hwaiting => exact hwaiting
  | asking hidle =>
      rw [hidle] at hqueue
      cases hqueue

theorem Steady.of_answer {m : Machine} (h : Steady m) {ticket : Nat} {pass : Pass}
    (hwaits : (ticket, pass) ∈ m.waiting) :
    m.waiting = [(ticket, pass)] ∧ m.server.store.get? pass.uri = some pass.document ∧
      m.server.settings? pass.uri = none ∧ pass.fallback = m.server.globalSettings := by
  cases h with
  | running hwaiting =>
      rw [hwaiting] at hwaits
      cases hwaits
  | asking _ hwaiting hopen hunknown hfallback =>
      rw [hwaiting] at hwaits
      obtain ⟨rfl, rfl⟩ := Prod.mk.inj (List.mem_singleton.mp hwaits)
      exact ⟨hwaiting, hopen, hunknown, hfallback⟩

theorem Step.steady {m m' : Machine} {move : Move} {events : List Event}
    (hstep : Step m move events m') (h : Steady m) (hcall : move.IsCall → m.waiting = []) :
    Steady m' := by
  cases hstep with
  | call => exact .running (hcall trivial)
  | skip hqueue | finish hqueue => exact .running (h.waiting_eq_nil hqueue)
  | @ask uri rest document hqueue hopen hunknown =>
      have hwaiting := h.waiting_eq_nil hqueue
      have hasked : (m.stop (some ⟨uri, document, m.server.globalSettings, rest⟩)).waiting =
          [(m.nextTicket, ⟨uri, document, m.server.globalSettings, rest⟩)] := by
        simp [Machine.stop, hwaiting]
      exact .asking rfl hasked hopen hunknown rfl
  | answer hidle hwaits =>
      obtain ⟨hwaiting, -⟩ := h.of_answer hwaits
      refine .running ?_
      simp [hwaiting]

theorem Run.steady {m m' : Machine} {trace : List Entry} (hrun : Run m trace m') (h : Steady m)
    (hunstalled : Unstalled trace) : Steady m' := by
  induction hrun with
  | refl => exact h
  | tail hrun hstep ih =>
      have hbefore := ih fun e he => hunstalled e (List.mem_append_left _ he)
      exact hstep.steady hbefore (hunstalled _ (List.mem_append_right _ (List.mem_singleton.mpr rfl)))

/-! ## Answers -/

/-- The client's answer for a document that a step takes in, with the process-wide settings of that
moment. -/
def Entry.answer? (uri : Uri) (e : Entry) : Option (Settings × Answer) :=
  match e.move with
  | .answer ticket a =>
    match e.before.waiting.lookup ticket with
    | some pass => if pass.uri = uri then some (e.before.server.globalSettings, a) else none
    | none => none
  | _ => none

/-- The client's answers for a document, in order. -/
def answers (uri : Uri) (trace : List Entry) : List (Settings × Answer) :=
  trace.filterMap (Entry.answer? uri)

theorem answers_append (uri : Uri) (trace trace' : List Entry) :
    answers uri (trace ++ trace') = answers uri trace ++ answers uri trace' :=
  List.filterMap_append

/-- A step that is no answer brings none. -/
theorem answers_eq_nil {e : Entry} (h : ∀ ticket a, e.move ≠ .answer ticket a) (uri : Uri) :
    answers uri [e] = [] := by
  cases hmove : e.move with
  | answer ticket a => exact absurd hmove (h ticket a)
  | call | work => simp [answers, Entry.answer?, hmove]

theorem answers_of_answer {e : Entry} {ticket : Nat} {pass : Pass} {a : Answer}
    (hmove : e.move = .answer ticket a) (hwaiting : e.before.waiting = [(ticket, pass)]) (uri : Uri) :
    answers uri [e] =
      if pass.uri = uri then [(e.before.server.globalSettings, a)] else [] := by
  by_cases huri : pass.uri = uri <;> simp [answers, Entry.answer?, hmove, hwaiting, huri]

/-! ## One step of a round -/

theorem Server.publish_settings {server after : Server} {uri : Uri} {document : Document}
    {settings : Settings} {events : List Event}
    (h : server.publish uri document settings = (after, events)) :
    after.flags = server.flags ∧ after.globalSettings = server.globalSettings := by
  rcases Server.publish_cases h with ⟨rfl, -, -⟩ | ⟨-, -, rfl, -⟩
  · exact ⟨rfl, rfl⟩
  · exact ⟨rfl, rfl⟩

theorem Server.receive_globalSettings {server received : Server} {uri : Uri}
    {fallback settings : Settings} {a : Answer}
    (h : server.receive uri fallback a = (received, settings)) :
    received.globalSettings = server.globalSettings := by
  unfold Server.receive at h
  split at h <;> obtain ⟨rfl, -⟩ := Prod.mk.inj h <;> rfl

theorem Server.receive_cachedSettings_of_ne {server received : Server} {uri key : Uri}
    {fallback settings : Settings} {a : Answer}
    (h : server.receive uri fallback a = (received, settings)) (hkey : key ≠ uri) :
    received.store.cachedSettings key = server.store.cachedSettings key := by
  unfold Server.receive at h
  split at h
  · obtain ⟨rfl, -⟩ := Prod.mk.inj h
    rfl
  · obtain ⟨rfl, -⟩ := Prod.mk.inj h
    simp [Store.cachedSettings_cacheSettings, hkey]

/-- Only a call writes documents, flags or process-wide settings. -/
theorem Step.frame {m m' : Machine} {move : Move} {events : List Event}
    (hstep : Step m move events m') (hcall : ¬move.IsCall) :
    (∀ uri, m'.server.store.get? uri = m.server.store.get? uri) ∧
      m'.server.flags = m.server.flags ∧
      m'.server.globalSettings = m.server.globalSettings := by
  cases hstep with
  | call => exact absurd trivial hcall
  | skip | ask => exact ⟨fun _ => rfl, rfl, rfl⟩
  | finish hqueue hopen hknown hpublish =>
      exact ⟨(Server.publish_frame hpublish).1, Server.publish_settings hpublish⟩
  | answer hidle hwaits hreceive hpublish =>
      obtain ⟨hflags, hsettings⟩ := Server.publish_settings hpublish
      refine ⟨fun uri => ?_, ?_, ?_⟩
      · exact ((Server.publish_frame hpublish).1 uri).trans ((Server.receive_keeps hreceive).get? uri)
      · exact hflags.trans (Server.receive_flags hreceive)
      · exact hsettings.trans (Server.receive_globalSettings hreceive)

/-- The documents that the call at work, or the one that waits, has still to validate. -/
def Machine.pending (m : Machine) : List Uri :=
  m.queue ++ m.waiting.flatMap fun (_, pass) => pass.uri :: pass.remaining

/-- The settings that a pass over a document uses if it begins at `m` and ends with the steps
`during`: they were known at `m`, or the client has given them in its one answer. -/
inductive Resolved (m : Machine) (during : List Entry) (uri : Uri) : Settings → Prop
  | known {settings : Settings} (hknown : m.server.settings? uri = some settings)
      (hanswers : answers uri during = []) : Resolved m during uri settings
  | answered {settings : Settings} {a : Answer} (hunknown : m.server.settings? uri = none)
      (hanswers : answers uri during = [(m.server.globalSettings, a)])
      (hsettings : settings =
        (Server.answeredSettings? m.server.globalSettings a).getD m.server.globalSettings) :
      Resolved m during uri settings

/-- The steps `during` publish the document exactly once, with the settings that are its own. -/
def Validated (m : Machine) (during : List Entry) (uri : Uri) (document : Document) : Prop :=
  ∃ settings, Resolved m during uri settings ∧ publications uri (sentEvents during) =
    [passResult uri document settings m.server.flags.relatedInformation]

/-- The step does not concern the document: it publishes nothing for it, brings no answer, and keeps
what is cached. -/
structure Quiet (uri : Uri) (e : Entry) : Prop where
  publications : publications uri e.events = []
  answers : answers uri [e] = []
  cachedSettings : e.after.server.store.cachedSettings uri = e.before.server.store.cachedSettings uri

/-- A step of a round leaves the next document pending and asks for its settings, or it is done with
that document: it has published it if it is open. -/
theorem Step.pending_cases {m m' : Machine} {move : Move} {events : List Event}
    (hstep : Step m move events m') (h : Sound m) (hsteady : Steady m) (hcall : ¬move.IsCall) :
    (m'.pending = m.pending ∧ ∀ key, Quiet key ⟨m, move, events, m'⟩) ∨
    ∃ uri, m.pending = uri :: m'.pending ∧ (∀ key, key ≠ uri → Quiet key ⟨m, move, events, m'⟩) ∧
      ∀ document, m.server.store.get? uri = some document →
        Validated m [⟨m, move, events, m'⟩] uri document := by
  have hstep' := hstep
  cases hstep with
  | call => exact absurd trivial hcall
  | ask hqueue hopen hunknown =>
      have hwaiting := hsteady.waiting_eq_nil hqueue
      refine Or.inl ⟨?_, fun key => ⟨rfl, answers_eq_nil (by simp) key, rfl⟩⟩
      simp [Machine.pending, Machine.stop, hqueue, hwaiting]
  | @skip uri rest hqueue hclosed =>
      refine Or.inr ⟨uri, ?_, fun key _ => ⟨rfl, answers_eq_nil (by simp) key, rfl⟩,
        fun document hopen => ?_⟩
      · simp [Machine.pending, hqueue]
      · rw [hclosed] at hopen
        cases hopen
  | @finish uri rest document settings server events hqueue hopen hknown hpublish =>
      obtain rfl := hstep'.events_of_current h (.work hqueue hopen hknown) hopen
      refine Or.inr ⟨uri, ?_, fun key hkey => ⟨?_, answers_eq_nil (by simp) key, ?_⟩,
        fun current hcurrent => ?_⟩
      · simp [Machine.pending, hqueue]
      · simp [Ne.symm hkey]
      · exact (Server.publish_frame hpublish).2.1 key
      · obtain rfl := Option.some.inj (hopen.symm.trans hcurrent)
        exact ⟨settings, .known hknown (answers_eq_nil (by simp) uri), by simp [sentEvents, passResult]⟩
  | @answer ticket pass a received server settings events hidle hwaits hreceive hpublish =>
      obtain ⟨hwaiting, hopen, hunknown, hfallback⟩ := hsteady.of_answer hwaits
      have hsettings : settings =
          (Server.answeredSettings? m.server.globalSettings a).getD m.server.globalSettings := by
        rw [← hfallback, ← Server.receive_settings m.server pass.uri, hreceive]
      have hevents := hstep'.events_of_current h (.answer hwaits) hopen
      rw [hreceive] at hevents
      obtain rfl := hevents
      refine Or.inr ⟨pass.uri, ?_, fun key hkey => ⟨?_, ?_, ?_⟩, fun current hcurrent => ?_⟩
      · simp [Machine.pending, hidle, hwaiting]
      · simp [Ne.symm hkey]
      · exact (answers_of_answer rfl hwaiting key).trans (if_neg (Ne.symm hkey))
      · have hpublished := (Server.publish_frame hpublish).2.1 key
        exact hpublished.trans (Server.receive_cachedSettings_of_ne hreceive hkey)
      · obtain rfl := Option.some.inj (hopen.symm.trans hcurrent)
        refine ⟨settings, .answered hunknown ?_ hsettings, by simp [sentEvents, passResult]⟩
        exact (answers_of_answer rfl hwaiting pass.uri).trans (if_pos rfl)

/-! ## The whole round -/

theorem Validated.concat {m : Machine} {during : List Entry} {uri : Uri} {document : Document}
    (h : Validated m during uri document) {e : Entry} (hquiet : Quiet uri e) :
    Validated m (during ++ [e]) uri document := by
  obtain ⟨settings, hresolved, hpublications⟩ := h
  have hlater : answers uri (during ++ [e]) = answers uri during := by
    rw [answers_append, hquiet.answers, List.append_nil]
  refine ⟨settings, ?_, ?_⟩
  · cases hresolved with
    | known hknown hnone => exact .known hknown (hlater.trans hnone)
    | answered hunknown hone hsettings => exact .answered hunknown (hlater.trans hone) hsettings
  · rw [publications_sentEvents_concat, hquiet.publications, List.append_nil, hpublications]

/-- From `start`, where a round begins, the steps `during` lead to `m`: what is still pending has not
been touched, and what no longer is has been published if it is open. -/
structure Within (start : Machine) (during : List Entry) (m : Machine) : Prop where
  sound : Sound m
  steady : Steady m
  nodup : m.pending.Nodup
  get? : ∀ uri, m.server.store.get? uri = start.server.store.get? uri
  flags : m.server.flags = start.server.flags
  globalSettings : m.server.globalSettings = start.server.globalSettings
  untouched : ∀ uri ∈ m.pending, publications uri (sentEvents during) = [] ∧
    answers uri during = [] ∧
    m.server.store.cachedSettings uri = start.server.store.cachedSettings uri
  validated : ∀ uri ∈ start.pending, uri ∉ m.pending →
    ∀ document, start.server.store.get? uri = some document → Validated start during uri document

namespace Within

variable {start m m' : Machine} {during : List Entry}

/-- The document that comes next is validated as if the round began with it. -/
theorem validated_next (h : Within start during m) {uri : Uri} (hpending : uri ∈ m.pending)
    {e : Entry} {document : Document} (hnext : Validated m [e] uri document) :
    Validated start (during ++ [e]) uri document := by
  obtain ⟨hpublications, hanswers, hcached⟩ := h.untouched uri hpending
  obtain ⟨settings, hresolved, hevents⟩ := hnext
  have hsettings : m.server.settings? uri = start.server.settings? uri := by
    unfold Server.settings?
    rw [h.flags, h.globalSettings, hcached]
  have hlater : answers uri (during ++ [e]) = answers uri [e] := by
    rw [answers_append, hanswers, List.nil_append]
  refine ⟨settings, ?_, ?_⟩
  · cases hresolved with
    | known hknown hnone => exact .known (hsettings ▸ hknown) (hlater.trans hnone)
    | answered hunknown hone hgiven =>
        rw [h.globalSettings] at hone hgiven
        exact .answered (hsettings ▸ hunknown) (hlater.trans hone) hgiven
  · rw [sentEvents_append, publications_append, hpublications, hevents, h.flags]
    rfl

theorem untouched_concat (h : Within start during m) {uri : Uri} (hpending : uri ∈ m.pending)
    {move : Move} {events : List Event} (hquiet : Quiet uri ⟨m, move, events, m'⟩) :
    publications uri (sentEvents (during ++ [⟨m, move, events, m'⟩])) = [] ∧
      answers uri (during ++ [⟨m, move, events, m'⟩]) = [] ∧
      m'.server.store.cachedSettings uri = start.server.store.cachedSettings uri := by
  obtain ⟨hpublications, hanswers, hcached⟩ := h.untouched uri hpending
  rw [publications_sentEvents_concat, answers_append, hpublications, hanswers, hquiet.publications,
    hquiet.answers]
  exact ⟨rfl, rfl, hquiet.cachedSettings.trans hcached⟩

theorem step {move : Move} {events : List Event} (h : Within start during m)
    (hstep : Step m move events m') (hcall : ¬move.IsCall) :
    Within start (during ++ [⟨m, move, events, m'⟩]) m' := by
  obtain ⟨hget, hflags, hglobal⟩ := hstep.frame hcall
  have hframe := fun uri => (hget uri).trans (h.get? uri)
  have hsound := hstep.sound h.sound
  have hsteady := hstep.steady h.steady fun his => absurd his hcall
  rcases hstep.pending_cases h.sound h.steady hcall with
    ⟨hsame, hquiet⟩ | ⟨next, hhead, hquiet, hnext⟩
  · refine ⟨hsound, hsteady, hsame ▸ h.nodup, hframe, hflags.trans h.flags, hglobal.trans h.globalSettings,
      fun uri huri => ?_, fun uri huri hdone document hopen => ?_⟩
    · exact h.untouched_concat (hsame ▸ huri) (hquiet uri)
    · exact (h.validated uri huri (hsame ▸ hdone) document hopen).concat (hquiet uri)
  · obtain ⟨hnew, hnodup⟩ := List.nodup_cons.mp (hhead ▸ h.nodup)
    refine ⟨hsound, hsteady, hnodup, hframe, hflags.trans h.flags, hglobal.trans h.globalSettings,
      fun uri huri => ?_, fun uri huri hdone document hopen => ?_⟩
    · have hne : uri ≠ next := by
        rintro rfl
        exact hnew huri
      exact h.untouched_concat (hhead ▸ List.mem_cons_of_mem _ huri) (hquiet uri hne)
    · by_cases hne : uri = next
      · subst hne
        rw [← h.get?] at hopen
        exact h.validated_next (hhead ▸ List.mem_cons_self ..) (hnext document hopen)
      · have hbefore : uri ∉ m.pending := by
          rw [hhead]
          simp [hne, hdone]
        exact (h.validated uri huri hbefore document hopen).concat (hquiet uri hne)

end Within

theorem Run.within {start m : Machine} {during : List Entry} (hrun : Run start during m)
    (hsound : Sound start) (hwaiting : start.waiting = []) (hnodup : start.queue.Nodup)
    (hcalls : ∀ e ∈ during, ¬e.move.IsCall) : Within start during m := by
  induction hrun with
  | refl =>
      refine ⟨hsound, .running hwaiting, ?_, fun _ => rfl, rfl, rfl, fun uri _ => ⟨rfl, rfl, rfl⟩,
        fun uri hpending hdone => absurd hpending hdone⟩
      simpa [Machine.pending, hwaiting] using hnodup
  | tail hrun hstep ih =>
      have hbefore := ih fun e he => hcalls e (List.mem_append_left _ he)
      exact hbefore.step hstep (hcalls _ (List.mem_append_right _ (List.mem_singleton.mpr rfl)))

/-- Once a round has ended, every document that was queued and is open has been published exactly
once. -/
theorem Run.validated_of_round {start m : Machine} {during : List Entry} (hrun : Run start during m)
    (hsound : Sound start) (hwaiting : start.waiting = []) (hnodup : start.queue.Nodup)
    (hcalls : ∀ e ∈ during, ¬e.move.IsCall) (hidle : m.queue = []) (hended : m.waiting = [])
    {uri : Uri} {document : Document} (hqueued : uri ∈ start.queue)
    (hopen : start.server.store.get? uri = some document) :
    Validated start during uri document := by
  have hwithin := hrun.within hsound hwaiting hnodup hcalls
  refine hwithin.validated uri (List.mem_append_left _ hqueued) ?_ document hopen
  simp [Machine.pending, hidle, hended]

/-! ## The settings cache -/

/-- No call puts settings into the cache. -/
theorem Server.accept_cachedSettings {server after : Server} {files : FileSystem} {c : Call}
    {events : List Event} {uris : List Uri} (h : server.accept files c = (after, events, uris))
    {uri : Uri} {settings : Settings} (hcached : after.store.cachedSettings uri = some settings) :
    server.store.cachedSettings uri = some settings := by
  cases c with
  | didOpen =>
      obtain ⟨rfl, -, -⟩ := h
      exact hcached
  | didChange target changes version =>
      simp only [accept] at h
      split at h <;> obtain ⟨rfl, -, -⟩ := h <;> exact hcached
  | didClose target =>
      obtain ⟨rfl, -, -⟩ := h
      rw [Store.cachedSettings_close] at hcached
      split at hcached
      · cases hcached
      · exact hcached
  | didChangeConfiguration value =>
      obtain ⟨rfl, -, -⟩ := h
      unfold changeConfiguration at hcached
      split at hcached
      · cases hcached
      · split at hcached <;> exact hcached
  | didChangeWatchedFiles changed =>
      simp only [accept] at h
      split at h
      · obtain ⟨rfl, -, -⟩ := h
        exact hcached
      · next hfiles =>
        obtain ⟨rfl, -, -⟩ := h
        rw [changeFiles?_store hfiles] at hcached
        exact hcached
  | openSession opening =>
      obtain ⟨rfl, -, -⟩ := h
      rw [(openSession_frame ..).1] at hcached
      exact hcached
  | initialized | shutdown | completion | resolve | hover =>
      obtain ⟨rfl, -, -⟩ := h
      exact hcached

theorem Server.cachedSettings_of_unknown {server : Server} {uri : Uri}
    (h : server.settings? uri = none) : server.store.cachedSettings uri = none := by
  unfold settings? at h
  split at h
  · exact h
  · cases h

theorem Step.cachedSettings_cases {m m' : Machine} {move : Move} {events : List Event}
    (hstep : Step m move events m') (hsteady : Steady m) {uri : Uri} {settings : Settings}
    (hcached : m'.server.store.cachedSettings uri = some settings) :
    (m.server.store.cachedSettings uri = some settings ∧
      answers uri [⟨m, move, events, m'⟩] = []) ∨
    ∃ a, answers uri [⟨m, move, events, m'⟩] = [(m.server.globalSettings, a)] ∧
      Server.answeredSettings? m.server.globalSettings a = some settings := by
  cases hstep with
  | call _ haccept =>
      exact Or.inl ⟨Server.accept_cachedSettings haccept hcached, answers_eq_nil (by simp) uri⟩
  | skip | ask => exact Or.inl ⟨hcached, answers_eq_nil (by simp) uri⟩
  | finish _ _ _ hpublish =>
      rw [(Server.publish_frame hpublish).2.1] at hcached
      exact Or.inl ⟨hcached, answers_eq_nil (by simp) uri⟩
  | @answer ticket pass a received server given events hidle hwaits hreceive hpublish =>
      obtain ⟨hwaiting, hopen, hunknown, hfallback⟩ := hsteady.of_answer hwaits
      rw [(Server.publish_frame hpublish).2.1] at hcached
      by_cases huri : uri = pass.uri
      · subst huri
        have hisOpen := (Store.isOpen_iff ..).mpr ⟨_, hopen⟩
        rw [Server.receive_cachedSettings hreceive, if_pos hisOpen,
          Server.cachedSettings_of_unknown hunknown, Option.or_none, hfallback] at hcached
        exact Or.inr ⟨a, (answers_of_answer rfl hwaiting _).trans (if_pos rfl), hcached⟩
      · rw [Server.receive_cachedSettings_of_ne hreceive huri] at hcached
        exact Or.inl ⟨hcached, (answers_of_answer rfl hwaiting uri).trans (if_neg (Ne.symm huri))⟩

/-- What is cached for a document is what the client's latest answer for it has given. -/
theorem Run.answered_of_cached {start m : Machine} {trace : List Entry} (hrun : Run start trace m)
    (hsteady : Steady start)
    (hempty : ∀ uri, start.server.store.cachedSettings uri = none) (hunstalled : Unstalled trace)
    {uri : Uri} {settings : Settings} (hcached : m.server.store.cachedSettings uri = some settings) :
    ∃ inForce a, (answers uri trace).getLast? = some (inForce, a) ∧
      Server.answeredSettings? inForce a = some settings := by
  induction hrun generalizing settings with
  | refl =>
      rw [hempty] at hcached
      cases hcached
  | @tail trace m m' move events hrun hstep ih =>
      have hearlier : Unstalled trace := fun e he => hunstalled e (List.mem_append_left _ he)
      rw [answers_append]
      rcases hstep.cachedSettings_cases (hrun.steady hsteady hearlier) hcached with
        ⟨hbefore, hnone⟩ | ⟨a, hone, hgiven⟩
      · rw [hnone, List.append_nil]
        exact ih hearlier hbefore
      · rw [hone]
        exact ⟨_, a, List.getLast?_concat, hgiven⟩

end ScenarioServer
