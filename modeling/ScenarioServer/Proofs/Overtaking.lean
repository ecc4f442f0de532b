import ScenarioServer.Proofs.Publication

/-!
# Passes that are answered late

A pass waits for its settings, and meanwhile much may happen: the settings change, and another
pass over the same document begins after the change and publishes. The first pass is then
`Overtaken`. What its late answer does is decided by the document alone:

* it publishes exactly if the document has neither been set nor closed since the pass began
  (`Suspended.events_of_untouched`, `Suspended.events_of_touched`), and then with the settings
  that the client's answer gives over the process-wide ones of that time;
* it replaces the cached settings exactly if the document is open and the answer is not a
  failure (`Step.cachedSettings_of_answer`).

A change of settings is neither, so a late pass over an unchanged document undoes it
(`settings_change_undone`); `overtaken_pass` is the whole law.
-/

namespace ScenarioServer

/-! ## A pass from its request to its answer -/

/-- The pass asks for its settings in the step `asking` and gets the answer `a` in the step
`answering`, with the steps `between` in the middle. -/
structure Suspended (trace : List Entry) (pass : Pass) (asking : Entry) (between : List Entry)
    (answering : Entry) (a : Answer) : Prop where
  place : ∃ earlier later, trace = earlier ++ asking :: (between ++ answering :: later)
  begins : (asking.before.nextTicket, pass) ∈ asking.after.waiting
  ends : answering.move = .answer asking.before.nextTicket a

/-- The step puts other settings in force, for a client that can be asked: the client's
configuration changes, or a configuration file is loaded. -/
def Entry.ChangesSettings (e : Entry) : Prop :=
  e.before.server.flags.configuration = true ∧
    ((∃ files value, e.move = .call files (.didChangeConfiguration value)) ∨
      ∃ files uris reloaded, e.move = .call files (.didChangeWatchedFiles uris) ∧
        e.before.server.changeFiles? files uris = some reloaded)

/-- The step publishes with a version for `uri`, and the pass that ends there began after the step
`change`: it was not suspended at all, or under a ticket that was still to come. -/
def Entry.PublishesSince (e change : Entry) (uri : Uri) : Prop :=
  (∃ version diagnostics, .publish uri (some version) diagnostics ∈ e.events) ∧
    (e.move = .work ∨ ∃ ticket a, e.move = .answer ticket a ∧ change.before.nextTicket ≤ ticket)

/-- While the pass waits, the settings change, and then a pass over the same document that began
after the change publishes. -/
structure Overtaken (trace : List Entry) (pass : Pass) (asking : Entry) (between : List Entry)
    (answering : Entry) (a : Answer) : Prop where
  suspended : Suspended trace pass asking between answering a
  overtaken : ∃ before change middle publishing after,
    between = before ++ change :: (middle ++ publishing :: after) ∧
      change.ChangesSettings ∧ publishing.PublishesSince change pass.uri

/-! ## Tickets -/

theorem Step.nextTicket_le {m m' : Machine} {move : Move} {events : List Event}
    (hstep : Step m move events m') : m.nextTicket ≤ m'.nextTicket := by
  cases hstep with
  | ask => exact Nat.le_succ _
  | call | skip | finish | answer => exact Nat.le_refl _

/-- A ticket that was given out before is not given out again. -/
theorem Step.waiting_of_old {m m' : Machine} {move : Move} {events : List Event}
    (hstep : Step m move events m') {ticket : Nat} {pass : Pass}
    (hwaits : (ticket, pass) ∈ m'.waiting) (hold : ticket < m.nextTicket) :
    (ticket, pass) ∈ m.waiting := by
  cases hstep with
  | call | skip | finish => exact hwaits
  | answer => exact (List.mem_filter.mp hwaits).1
  | ask =>
      rcases List.mem_append.mp hwaits with hwaits | hnew
      · exact hwaits
      · obtain ⟨rfl, -⟩ := Prod.mk.inj (List.mem_singleton.mp hnew)
        exact absurd hold (Nat.lt_irrefl _)

theorem Run.nextTicket_le {m m' : Machine} {trace : List Entry} (hrun : Run m trace m') :
    m.nextTicket ≤ m'.nextTicket := by
  induction hrun with
  | refl => exact Nat.le_refl _
  | tail _ hstep ih => exact Nat.le_trans ih hstep.nextTicket_le

theorem Run.waiting_of_old {m m' : Machine} {trace : List Entry} (hrun : Run m trace m')
    {ticket : Nat} {pass : Pass} (hwaits : (ticket, pass) ∈ m'.waiting)
    (hold : ticket < m.nextTicket) : (ticket, pass) ∈ m.waiting := by
  induction hrun with
  | refl => exact hwaits
  | tail hrun hstep ih =>
      exact ih (hstep.waiting_of_old hwaits (Nat.lt_of_lt_of_le hold hrun.nextTicket_le))

theorem Step.waits_of_answer {m m' : Machine} {events : List Event} {ticket : Nat} {a : Answer}
    (hstep : Step m (.answer ticket a) events m') : ∃ pass, (ticket, pass) ∈ m.waiting := by
  cases hstep with
  | answer _ hwaits => exact ⟨_, hwaits⟩

/-- A step that gives out a ticket begins a pass over an open document. -/
theorem Step.begins {m m' : Machine} {move : Move} {events : List Event}
    (hstep : Step m move events m') (h : Sound m) {pass : Pass}
    (hwaits : (m.nextTicket, pass) ∈ m'.waiting) :
    m'.server.store.get? pass.uri = some pass.document ∧
      pass.fallback = m.server.globalSettings ∧ m.nextTicket < m'.nextTicket := by
  have hfresh : (m.nextTicket, pass) ∉ m.waiting := fun hold =>
    Nat.lt_irrefl _ (h.tickets _ _ hold)
  cases hstep with
  | call | skip | finish => exact absurd hwaits hfresh
  | answer => exact absurd (List.mem_filter.mp hwaits).1 hfresh
  | ask hqueue hopen hunknown =>
      rcases List.mem_append.mp hwaits with hold | hnew
      · exact absurd hold hfresh
      · obtain ⟨-, rfl⟩ := Prod.mk.inj (List.mem_singleton.mp hnew)
        exact ⟨hopen, rfl, Nat.lt_succ_self _⟩

/-! ## The document meanwhile -/

theorem Run.get?_of_untouched {m m' : Machine} {trace : List Entry} (hrun : Run m trace m')
    {uri : Uri} (h : ∀ e ∈ trace, ¬e.move.Puts uri ∧ ¬e.move.Closes uri) :
    m'.server.store.get? uri = m.server.store.get? uri := by
  induction hrun with
  | refl => rfl
  | tail hrun hstep ih =>
      have hbefore := ih fun e he => h e (List.mem_append_left _ he)
      obtain ⟨hputs, hcloses⟩ := h _ (List.mem_append_right _ (List.mem_singleton.mpr rfl))
      rcases hstep.document_cases uri with ⟨hput, -⟩ | ⟨hclose, -⟩ | ⟨-, -, hsame⟩
      · exact absurd hput hputs
      · exact absurd hclose hcloses
      · exact hsame.trans hbefore

/-- The document is past a generation: if it is open at all, then at a later one. -/
structure Past (m : Machine) (uri : Uri) (generation : Nat) : Prop where
  le_counter : generation ≤ m.server.store.lastGeneration
  lt_stored : ∀ document, m.server.store.get? uri = some document →
    generation < document.generation

theorem Step.past {m m' : Machine} {move : Move} {events : List Event}
    (hstep : Step m move events m') {uri : Uri} {generation : Nat}
    (hle : generation ≤ m.server.store.lastGeneration)
    (h : Past m uri generation ∨ move.Puts uri ∨ move.Closes uri) : Past m' uri generation := by
  refine ⟨Nat.le_trans hle hstep.lastGeneration_le, fun document hopen => ?_⟩
  rcases hstep.document_cases uri with
    ⟨-, -, -, text, version, hput⟩ | ⟨-, -, -, hclosed⟩ | ⟨hputs, hcloses, hsame⟩
  · obtain rfl := Option.some.inj (hput.symm.trans hopen)
    exact Nat.lt_succ_of_le hle
  · rw [hclosed] at hopen
    cases hopen
  · rcases h with hpast | hput | hclose
    · exact hpast.lt_stored document (hsame.symm.trans hopen)
    · exact absurd hput hputs
    · exact absurd hclose hcloses

theorem Run.lastGeneration_le {m m' : Machine} {trace : List Entry} (hrun : Run m trace m') :
    m.server.store.lastGeneration ≤ m'.server.store.lastGeneration := by
  induction hrun with
  | refl => exact Nat.le_refl _
  | tail _ hstep ih => exact Nat.le_trans ih hstep.lastGeneration_le

/-- A generation does not come back once its document was set or closed. -/
theorem Run.past_of_touched {m m' : Machine} {trace : List Entry} (hrun : Run m trace m')
    {uri : Uri} {generation : Nat} (hle : generation ≤ m.server.store.lastGeneration)
    (h : ∃ e ∈ trace, e.move.Puts uri ∨ e.move.Closes uri) : Past m' uri generation := by
  induction hrun with
  | refl =>
      obtain ⟨e, he, -⟩ := h
      cases he
  | tail hrun hstep ih =>
      obtain ⟨e, he, htouched⟩ := h
      apply hstep.past (Nat.le_trans hle hrun.lastGeneration_le)
      rcases List.mem_append.mp he with he | he
      · exact Or.inl (ih ⟨e, he, htouched⟩)
      · obtain rfl := List.mem_singleton.mp he
        exact Or.inr htouched

/-! ## The answer -/

theorem Server.receive_cachedSettings {server received : Server} {uri : Uri}
    {fallback settings : Settings} {a : Answer}
    (h : server.receive uri fallback a = (received, settings)) :
    received.store.cachedSettings uri =
      if server.store.isOpen uri = true then
        (answeredSettings? fallback a).or (server.store.cachedSettings uri)
      else server.store.cachedSettings uri := by
  unfold receive at h
  split at h
  · next hanswer =>
    obtain ⟨rfl, -⟩ := Prod.mk.inj h
    simp [hanswer]
  · next hanswer =>
    obtain ⟨rfl, -⟩ := Prod.mk.inj h
    simp [hanswer, Store.cachedSettings_cacheSettings]

theorem Server.receive_settings (server : Server) (uri : Uri) (fallback : Settings) (a : Answer) :
    (server.receive uri fallback a).2 = (answeredSettings? fallback a).getD fallback := by
  unfold receive
  split
  · next hanswer => simp [hanswer]
  · next hanswer => simp [hanswer]

/-- What an answer leaves in the settings cache. -/
theorem Step.cachedSettings_of_answer {m m' : Machine} {events : List Event} {ticket : Nat}
    {a : Answer} (hstep : Step m (.answer ticket a) events m') (h : Sound m) {pass : Pass}
    (hwaits : (ticket, pass) ∈ m.waiting) :
    m'.server.store.cachedSettings pass.uri =
      if m.server.store.isOpen pass.uri = true then
        (Server.answeredSettings? pass.fallback a).or (m.server.store.cachedSettings pass.uri)
      else m.server.store.cachedSettings pass.uri := by
  cases hstep with
  | answer hidle hwaits' hreceive hpublish =>
      obtain rfl := h.distinct ticket _ _ hwaits hwaits'
      have hpublished := (Server.publish_frame hpublish).2.1 pass.uri
      exact hpublished.trans (Server.receive_cachedSettings hreceive)

namespace Suspended

variable {engine : Engine} {defaults : Settings} {discovers : Bool} {trace between : List Entry}
  {m : Machine} {pass : Pass} {asking answering : Entry} {a : Answer}

/-- The two ends of the wait: the pass has read the document when it begins, and it is this pass
that the answer ends. -/
theorem run (h : Suspended trace pass asking between answering a)
    (hrun : Run (Machine.start engine defaults discovers) trace m) :
    (pass.fallback = asking.before.server.globalSettings ∧
      asking.after.server.store.get? pass.uri = some pass.document) ∧ Sound asking.after ∧
    Run asking.after between answering.before ∧ Sound answering.before ∧
    (asking.before.nextTicket, pass) ∈ answering.before.waiting ∧
    Step answering.before (.answer asking.before.nextTicket a) answering.events answering.after := by
  obtain ⟨⟨earlier, later, rfl⟩, hbegins, hends⟩ := h
  obtain ⟨hearlier, hasking, hafter⟩ := hrun.entry
  obtain ⟨hbetween, hanswering, -⟩ := hafter.entry
  have hbefore := hearlier.sound (Sound.start engine defaults discovers)
  obtain ⟨hopen, hfallback, hticket⟩ := hasking.begins hbefore hbegins
  have hasked := hasking.sound hbefore
  have hsound := hbetween.sound hasked
  rw [hends] at hanswering
  refine ⟨⟨hfallback, hopen⟩, hasked, hbetween, hsound, ?_, hanswering⟩
  -- some pass waits under the ticket, and the ticket never had another one
  obtain ⟨waiting, hwaits⟩ := hanswering.waits_of_answer
  have hwaited := hbetween.waiting_of_old hwaits hticket
  obtain rfl := hasked.distinct _ _ _ hbegins hwaited
  exact hwaits

theorem events_of_untouched (h : Suspended trace pass asking between answering a)
    (hrun : Run (Machine.start engine defaults discovers) trace m)
    (huntouched : ∀ e ∈ between, ¬e.move.Puts pass.uri ∧ ¬e.move.Closes pass.uri) :
    answering.events = [.publish pass.uri (some pass.document.version)
      (validate pass.uri pass.document.text
        ((Server.answeredSettings? pass.fallback a).getD pass.fallback).maxNumberOfProblems
        answering.before.server.flags.relatedInformation)] := by
  obtain ⟨⟨-, hopen⟩, -, hbetween, hsound, hwaits, hanswering⟩ := h.run hrun
  have hcurrent := (hbetween.get?_of_untouched huntouched).trans hopen
  have hevents := hanswering.events_of_current hsound (.answer hwaits) hcurrent
  rw [Server.receive_settings] at hevents
  exact hevents

theorem events_of_touched (h : Suspended trace pass asking between answering a)
    (hrun : Run (Machine.start engine defaults discovers) trace m)
    (htouched : ∃ e ∈ between, e.move.Puts pass.uri ∨ e.move.Closes pass.uri) :
    answering.events = [] := by
  obtain ⟨⟨-, hopen⟩, hasked, hbetween, hsound, hwaits, hanswering⟩ := h.run hrun
  have hpast := hbetween.past_of_touched (hasked.stored _ _ hopen) htouched
  apply hanswering.events_of_superseded hsound (.answer hwaits)
  intro hcurrent
  exact Nat.lt_irrefl _ (hpast.lt_stored _ hcurrent)

end Suspended

/-- A pass that was overtaken publishes after all if its document has neither been set nor closed
since the pass began, with the settings that its answer gives over the process-wide ones of that
time; otherwise it sends nothing. It replaces the cached settings if the document is open and
the answer is not a failure, and leaves them alone otherwise. -/
theorem overtaken_pass {engine : Engine} {defaults : Settings} {discovers : Bool}
    {trace between : List Entry} {m : Machine} {pass : Pass} {asking answering : Entry} {a : Answer}
    (hrun : Run (Machine.start engine defaults discovers) trace m)
    (h : Overtaken trace pass asking between answering a) :
    pass.fallback = asking.before.server.globalSettings ∧
    ((∀ e ∈ between, ¬e.move.Puts pass.uri ∧ ¬e.move.Closes pass.uri) →
      answering.events = [.publish pass.uri (some pass.document.version)
        (validate pass.uri pass.document.text
          ((Server.answeredSettings? pass.fallback a).getD pass.fallback).maxNumberOfProblems
          answering.before.server.flags.relatedInformation)]) ∧
    ((∃ e ∈ between, e.move.Puts pass.uri ∨ e.move.Closes pass.uri) → answering.events = []) ∧
    answering.after.server.store.cachedSettings pass.uri =
      if answering.before.server.store.isOpen pass.uri = true then
        (Server.answeredSettings? pass.fallback a).or
          (answering.before.server.store.cachedSettings pass.uri)
      else answering.before.server.store.cachedSettings pass.uri := by
  obtain ⟨⟨hfallback, -⟩, -, -, hsound, hwaits, hanswering⟩ := h.suspended.run hrun
  exact ⟨hfallback, h.suspended.events_of_untouched hrun, h.suspended.events_of_touched hrun,
    hanswering.cachedSettings_of_answer hsound hwaits⟩

/-! ## A settings change undone

A pass over a document waits. The client's configuration changes, a second pass gets the new cap
of 1, publishes and caches it. Then the first pass is answered with a cap of 5. -/

theorem overtaken_run : ∃ trace between m asking answering,
    Run (Machine.start Engine.builtin {} false) trace m ∧
    Overtaken trace ⟨loginUri, ⟨"AA BB", 1, 1⟩, {}, []⟩ asking between answering (capAnswer 5) ∧
    (∀ e ∈ between, ¬e.move.Puts loginUri ∧ ¬e.move.Closes loginUri) ∧
    answering.before.server.flags.relatedInformation = false ∧
    answering.before.server.store.cachedSettings loginUri = some ⟨1⟩ ∧
    answering.after.server.store.cachedSettings loginUri = some ⟨5⟩ := by
  have hrun : Run (Machine.start Engine.builtin {} false) _ _ :=
    .head (@Step.call _ .empty (.openSession askableOpening) _ _ _ _ rfl rfl (.refl _)) <|
    .head (@Step.call _ .empty (.didOpen loginUri "AA BB" 1) _ _ _ _ rfl rfl (.refl _)) <|
    .head (.ask rfl rfl rfl) <|
    .head (@Step.call _ .empty (.didChangeConfiguration .null) _ _ _ _ rfl rfl (.refl _)) <|
    .head (.ask rfl rfl rfl) <|
    .head (@Step.answer _ 1 _ (capAnswer 1) _ _ _ _ rfl
      (List.mem_cons_of_mem _ (List.mem_cons_self ..)) rfl rfl) <|
    .head (@Step.answer _ 0 _ (capAnswer 5) _ _ _ _ rfl (List.mem_cons_self ..) rfl rfl) .refl
  refine ⟨_, [_, _, _], _, _, _, hrun, ⟨⟨⟨[_, _], [], rfl⟩, List.mem_cons_self .., rfl⟩, ?_⟩,
    ?_, rfl, rfl, rfl⟩
  · refine ⟨[], _, [_], _, [], rfl, ⟨rfl, Or.inl ⟨_, _, rfl⟩⟩, ?_⟩
    exact ⟨⟨_, _, List.mem_cons_self ..⟩, Or.inr ⟨_, _, rfl, by decide⟩⟩
  · simp [Move.Puts, Move.Closes, Call.put?]

/-- The law at that run: the first pass publishes, up to five diagnostics. -/
theorem overtaken_pass_publishes : ∃ trace between m asking answering,
    Run (Machine.start Engine.builtin {} false) trace m ∧
    Overtaken trace ⟨loginUri, ⟨"AA BB", 1, 1⟩, {}, []⟩ asking between answering (capAnswer 5) ∧
    answering.events = [.publish loginUri (some 1) (validate loginUri "AA BB" 5 false)] := by
  obtain ⟨trace, between, m, asking, answering, hrun, hovertaken, huntouched, hflag, -⟩ :=
    overtaken_run
  obtain ⟨-, hpublishes, -⟩ := overtaken_pass hrun hovertaken
  have hevents := hpublishes huntouched
  rw [hflag] at hevents
  exact ⟨trace, between, m, asking, answering, hrun, hovertaken, hevents⟩

/-- It is not so that a pass which was overtaken neither publishes nor replaces the settings that
were cached since. -/
theorem settings_change_undone :
    ¬∀ (engine : Engine) (defaults : Settings) (discovers : Bool) (trace between : List Entry)
      (m : Machine) (pass : Pass) (asking answering : Entry) (a : Answer),
      Run (Machine.start engine defaults discovers) trace m →
      Overtaken trace pass asking between answering a →
      publications pass.uri answering.events = [] ∧
        ∀ settings, answering.before.server.store.cachedSettings pass.uri = some settings →
          answering.after.server.store.cachedSettings pass.uri = some settings := by
  intro hclaim
  obtain ⟨trace, between, m, asking, answering, hrun, hovertaken, huntouched, -, hbefore, hafter⟩ :=
    overtaken_run
  obtain ⟨-, hkept⟩ := hclaim _ _ _ _ _ _ _ _ _ _ hrun hovertaken
  have hcached := hkept ⟨1⟩ hbefore
  rw [hafter] at hcached
  cases hcached

end ScenarioServer
