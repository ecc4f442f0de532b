import ScenarioServer.Proofs.Reload

/-!
# Clients that cannot be asked

A client that does not support configuration requests gets the process-wide settings for every
document, and no call of it ever waits. So the only documents that can be out of date are the ones
that the running call has still to validate: `UpToDate` says so of every state. A call keeps it, since
a call that changes process-wide settings queues every open document and any other one queues the
document that it sets (`Server.accept_settings`); each step of its work keeps it as well.

Between two calls nothing is queued, and `lastPublication_is_fresh` is what follows: the client was
last told the diagnostics of every open document under the settings that are in force now.
-/

namespace ScenarioServer

/-! ## What a call does to the settings -/

def Move.OpensSession : Move → Prop
  | .call _ (.openSession _) => True
  | _ => False

/-- A call other than the first keeps the client's flags. It keeps the process-wide settings as well,
or it goes on to validate every open document. -/
theorem Server.accept_settings {server after : Server} {files : FileSystem} {c : Call}
    {events : List Event} {uris : List Uri} (h : server.accept files c = (after, events, uris))
    (hopens : ¬(Move.call files c).OpensSession) :
    after.flags = server.flags ∧ uris.Nodup ∧ (after.globalSettings = server.globalSettings ∨
      ∀ uri document, after.store.get? uri = some document → uri ∈ uris) := by
  cases c with
  | openSession opening => exact absurd trivial hopens
  | didOpen uri text version =>
      obtain ⟨rfl, rfl, rfl⟩ := h
      exact ⟨rfl, by simp, Or.inl rfl⟩
  | didChange uri changes version =>
      simp only [accept] at h
      split at h <;> obtain ⟨rfl, rfl, rfl⟩ := h
      · exact ⟨rfl, List.nodup_nil, Or.inl rfl⟩
      · exact ⟨rfl, by simp, Or.inl rfl⟩
  | didChangeConfiguration value =>
      obtain ⟨rfl, rfl, rfl⟩ := h
      refine ⟨?_, Store.nodup_uris _, Or.inr fun uri document hopen => ?_⟩
      · unfold changeConfiguration
        split
        · rfl
        · split <;> rfl
      · exact (Store.mem_uris_iff ..).mpr ⟨document, hopen⟩
  | didChangeWatchedFiles changed =>
      simp only [accept] at h
      split at h
      · obtain ⟨rfl, rfl, rfl⟩ := h
        exact ⟨rfl, List.nodup_nil, Or.inl rfl⟩
      · next hfiles =>
        obtain ⟨rfl, rfl, rfl⟩ := h
        obtain ⟨settings, hreloaded⟩ := changeFiles?_eq hfiles
        refine ⟨by rw [hreloaded], Store.nodup_uris _, Or.inr fun uri document hopen => ?_⟩
        exact (Store.mem_uris_iff ..).mpr ⟨document, hopen⟩
  | didClose | initialized | shutdown | completion | resolve | hover =>
      obtain ⟨rfl, rfl, rfl⟩ := h
      exact ⟨rfl, List.nodup_nil, Or.inl rfl⟩

theorem Step.settings_of_call {m m' : Machine} {move : Move} {events : List Event}
    (hstep : Step m move events m') (hcall : move.IsCall) (hopens : ¬move.OpensSession) :
    m.queue = [] ∧ m'.waiting = m.waiting ∧ m'.server.flags = m.server.flags ∧ m'.queue.Nodup ∧
      (m'.server.globalSettings = m.server.globalSettings ∨
        ∀ uri document, m'.server.store.get? uri = some document → uri ∈ m'.queue) := by
  cases hstep with
  | call hidle haccept horder =>
      obtain ⟨hflags, hnodup, hsettings⟩ := Server.accept_settings haccept hopens
      refine ⟨hidle, rfl, hflags, horder.nodup_iff.mpr hnodup, hsettings.imp_right fun hall => ?_⟩
      intro uri document hopen
      exact horder.mem_iff.mpr (hall uri document hopen)
  | skip | ask | finish | answer => exact hcall.elim

/-- An open document that a call does not go on to validate is the one from before, under the same
process-wide settings. -/
theorem Step.queued_or_kept {m m' : Machine} {move : Move} {events : List Event}
    (hstep : Step m move events m') (hcall : move.IsCall) (hopens : ¬move.OpensSession) {uri : Uri}
    {document : Document} (hopen : m'.server.store.get? uri = some document) :
    uri ∈ m'.queue ∨ (m.server.store.get? uri = some document ∧
      m'.server.globalSettings = m.server.globalSettings) := by
  obtain ⟨-, -, -, -, hsettings⟩ := hstep.settings_of_call hcall hopens
  rcases hstep.document_cases uri with ⟨-, -, hqueue, -⟩ | ⟨-, -, -, hclosed⟩ | ⟨-, -, hsame⟩
  · rw [hqueue]
    exact Or.inl (List.mem_singleton_self uri)
  · rw [hclosed] at hopen
    cases hopen
  · rcases hsettings with hkept | hall
    · exact Or.inr ⟨hsame ▸ hopen, hkept⟩
    · exact Or.inl (hall uri document hopen)

/-! ## The invariant -/

/-- No call waits, and the client was last told the diagnostics of every open document that is not
about to be validated, under the settings that are in force. -/
structure UpToDate (flags : ClientFlags) (trace : List Entry) (m : Machine) : Prop where
  sound : Sound m
  flags : m.server.flags = flags
  waiting : m.waiting = []
  fresh : ∀ uri document, m.server.store.get? uri = some document → uri ∉ m.queue →
    lastPublication uri trace =
      some (passResult uri document m.server.globalSettings m.server.flags.relatedInformation)

theorem Server.settings?_of_unaskable {server : Server} (h : server.flags.configuration = false)
    (uri : Uri) : server.settings? uri = some server.globalSettings := by
  simp [settings?, h]

/-- A call publishes nothing for a document that is open after it. -/
theorem Step.publications_of_call {m m' : Machine} {move : Move} {events : List Event}
    (hstep : Step m move events m') (h : Sound m) (hcall : move.IsCall) {uri : Uri}
    {document : Document} (hopen : m'.server.store.get? uri = some document) :
    publications uri events = [] := by
  rcases hstep.publication_cases h uri with hnone | ⟨hcloses, -⟩ | ⟨_, _, hends, -⟩
  · exact hnone
  · rcases hstep.document_cases uri with ⟨-, hnot, -⟩ | ⟨-, -, -, hclosed⟩ | ⟨-, hnot, -⟩
    · exact absurd hcloses hnot
    · rw [hclosed] at hopen
      cases hopen
    · exact absurd hcloses hnot
  · cases hends <;> exact hcall.elim

theorem UpToDate.call {flags : ClientFlags} {trace : List Entry} {m m' : Machine} {move : Move}
    {events : List Event} (h : UpToDate flags trace m) (hstep : Step m move events m')
    (hcall : move.IsCall) (hopens : ¬move.OpensSession) :
    UpToDate flags (trace ++ [⟨m, move, events, m'⟩]) m' := by
  obtain ⟨hidle, hwaiting, hflags, -, -⟩ := hstep.settings_of_call hcall hopens
  refine ⟨hstep.sound h.sound, hflags.trans h.flags, hwaiting.trans h.waiting, ?_⟩
  intro uri document hopen hqueued
  rw [lastPublication_concat_of_nil (hstep.publications_of_call h.sound hcall hopen)]
  rcases hstep.queued_or_kept hcall hopens hopen with hnext | ⟨hbefore, hkept⟩
  · exact absurd hnext hqueued
  · rw [hflags, hkept]
    exact h.fresh uri document hbefore (by simp [hidle])

/-- The running call takes the next document off its queue once that is closed or published. -/
theorem UpToDate.work {flags : ClientFlags} {trace : List Entry} {m m' : Machine} {move : Move}
    {events : List Event} (h : UpToDate flags trace m) (hstep : Step m move events m')
    (hflag : flags.configuration = false) (hcall : ¬move.IsCall) :
    UpToDate flags (trace ++ [⟨m, move, events, m'⟩]) m' := by
  have hunaskable : m.server.flags.configuration = false := by rw [h.flags, hflag]
  obtain ⟨hget, hflags, hglobal⟩ := hstep.frame hcall
  have hsound := hstep.sound h.sound
  have hstep' := hstep
  cases hstep with
  | call => exact absurd trivial hcall
  | ask _ _ hunknown =>
      rw [Server.settings?_of_unaskable hunaskable] at hunknown
      cases hunknown
  | answer _ hwaits =>
      rw [h.waiting] at hwaits
      cases hwaits
  | @skip next rest hqueue hclosed =>
      refine ⟨hsound, h.flags, h.waiting, fun uri document hopen hqueued => ?_⟩
      have huri : uri ≠ next := by
        rintro rfl
        rw [hclosed] at hopen
        cases hopen
      rw [lastPublication_concat_of_nil rfl]
      exact h.fresh uri document hopen (by simp [hqueue, huri, hqueued])
  | @finish next rest read settings server events hqueue hcurrent hknown hpublish =>
      rw [Server.settings?_of_unaskable hunaskable] at hknown
      obtain rfl := Option.some.inj hknown
      obtain rfl := hstep'.events_of_current h.sound (.work hqueue hcurrent
        (Server.settings?_of_unaskable hunaskable next)) hcurrent
      refine ⟨hsound, hflags.trans h.flags, h.waiting, fun uri document hopen hqueued => ?_⟩
      rw [hget] at hopen
      rw [hflags, hglobal]
      by_cases huri : uri = next
      · subst huri
        obtain rfl := Option.some.inj (hcurrent.symm.trans hopen)
        exact lastPublication_concat_of_singleton (by simp [passResult])
      · rw [lastPublication_concat_of_nil (by simp [Ne.symm huri])]
        exact h.fresh uri document hopen (by simp [hqueue, huri, hqueued])

theorem Run.upToDate {flags : ClientFlags} {earlier trace : List Entry} {start m : Machine}
    (hrun : Run start trace m) (hstart : UpToDate flags earlier start)
    (hflag : flags.configuration = false) (hopens : ∀ e ∈ trace, ¬e.move.OpensSession) :
    UpToDate flags (earlier ++ trace) m := by
  induction hrun with
  | refl => rwa [List.append_nil]
  | @tail trace m m' move events hrun hstep ih =>
      have hbefore := ih fun e he => hopens e (List.mem_append_left _ he)
      rw [← List.append_assoc]
      by_cases hcall : move.IsCall
      · exact hbefore.call hstep hcall (hopens _ (List.mem_append_right _ (List.mem_singleton.mpr rfl)))
      · exact hbefore.work hstep hflag hcall

/-! ## Whole sessions -/

/-- The session is opened by the first call of the run and by no other. -/
def OpenedOnce (trace : List Entry) (opening : Opening) : Prop :=
  ∃ first rest files, trace = first :: rest ∧ first.move = .call files (.openSession opening) ∧
    ∀ e ∈ rest, ¬e.move.OpensSession

/-- The call that opens the session leaves nothing to do and no document open. -/
theorem Step.opens {engine : Engine} {defaults : Settings} {discovers : Bool} {m : Machine}
    {files : FileSystem} {opening : Opening} {events : List Event}
    (hstep : Step (Machine.start engine defaults discovers) (.call files (.openSession opening))
      events m) :
    m.server.flags = opening.flags ∧ m.queue = [] ∧ m.waiting = [] ∧
      ∀ uri, m.server.store.get? uri = none := by
  cases hstep with
  | call hidle haccept horder =>
      obtain ⟨rfl, rfl, rfl⟩ := haccept
      obtain ⟨hstore, hflags⟩ := Server.openSession_frame (Server.start engine defaults discovers) files
        opening
      refine ⟨hflags, List.perm_nil.mp horder, rfl, fun uri => ?_⟩
      exact congrArg (·.get? uri) hstore

theorem UpToDate.of_openedOnce {engine : Engine} {defaults : Settings} {discovers : Bool}
    {trace : List Entry} {m : Machine} {opening : Opening}
    (hrun : Run (Machine.start engine defaults discovers) trace m) (hopened : OpenedOnce trace opening)
    (hflag : opening.flags.configuration = false) : UpToDate opening.flags trace m := by
  obtain ⟨first, rest, files, rfl, hmove, hrest⟩ := hopened
  rw [← List.nil_append (first :: rest)] at hrun
  obtain ⟨hstart, hstep, hlater⟩ := hrun.entry
  have hsound := hstep.sound (hstart.sound (Sound.start engine defaults discovers))
  rw [hstart.eq_of_nil, hmove] at hstep
  obtain ⟨hflags, -, hwaiting, hempty⟩ := hstep.opens
  have hfirst : UpToDate opening.flags [first] first.after := by
    refine ⟨hsound, hflags, hwaiting, fun uri document hopen => ?_⟩
    rw [hempty] at hopen
    cases hopen
  exact hlater.upToDate hfirst hflag hrest

/-- A call publishes, exactly once, every document that it has set, and every open document if it has
changed the process-wide settings. -/
theorem UpToDate.republishes {flags : ClientFlags} {earlier during : List Entry} {calling : Entry}
    {m : Machine} (h : UpToDate flags earlier calling.before)
    (hstep : Step calling.before calling.move calling.events calling.after)
    (hlater : Run calling.after during m) (hflag : flags.configuration = false)
    (hcall : calling.move.IsCall) (hopens : ¬calling.move.OpensSession)
    (hcalls : ∀ e ∈ during, ¬e.move.IsCall)
    (hidle : m.queue = []) (hended : m.waiting = []) {uri : Uri} {document : Document}
    (hopen : m.server.store.get? uri = some document)
    (hchanged : calling.before.server.store.get? uri ≠ some document ∨
      calling.before.server.globalSettings ≠ m.server.globalSettings) :
    publications uri (sentEvents (calling :: during)) =
      [passResult uri document m.server.globalSettings flags.relatedInformation] := by
  obtain ⟨-, hwaiting, hflags, hnodup, -⟩ := hstep.settings_of_call hcall hopens
  have hsound := hstep.sound h.sound
  have hbegun := hwaiting.trans h.waiting
  have hwithin := hlater.within hsound hbegun hnodup hcalls
  have hopen' : calling.after.server.store.get? uri = some document := by
    rw [← hwithin.get?, hopen]
  have hqueued : uri ∈ calling.after.queue := by
    rcases hstep.queued_or_kept hcall hopens hopen' with hnext | ⟨hbefore, hkept⟩
    · exact hnext
    · rcases hchanged with hset | hother
      · exact absurd hbefore hset
      · exact absurd (hkept ▸ hwithin.globalSettings.symm) hother
  have hunaskable : calling.after.server.flags.configuration = false := by
    rw [hflags, h.flags, hflag]
  have hknown := Server.settings?_of_unaskable hunaskable uri
  obtain ⟨settings, hresolved, hpublications⟩ := hlater.validated_of_round hsound hbegun hnodup hcalls
    hidle hended hqueued hopen'
  have hused : settings = m.server.globalSettings := by
    cases hresolved with
    | known hfound =>
        rw [hwithin.globalSettings]
        exact Option.some.inj (hfound.symm.trans hknown)
    | answered hunknown =>
        rw [hknown] at hunknown
        cases hunknown
  have hfirst := hstep.publications_of_call h.sound hcall hopen'
  calc publications uri (sentEvents (calling :: during))
      = publications uri calling.events ++ publications uri (sentEvents during) :=
        publications_append ..
    _ = [passResult uri document m.server.globalSettings flags.relatedInformation] := by
        rw [hfirst, hpublications, hused, hflags, h.flags, List.nil_append]

theorem Step.isCall_of_idle {m m' : Machine} {move : Move} {events : List Event}
    (hstep : Step m move events m') (hidle : m.queue = []) (hwaiting : m.waiting = []) :
    move.IsCall := by
  cases hstep with
  | call => trivial
  | skip hqueue | ask hqueue | finish hqueue =>
      rw [hidle] at hqueue
      cases hqueue
  | answer _ hwaits =>
      rw [hwaiting] at hwaits
      cases hwaits

/-- A call that has nothing to validate ends with its first step. -/
theorem Run.eq_nil_of_idle {m m' : Machine} {trace : List Entry} (hrun : Run m trace m')
    (hidle : m.queue = []) (hwaiting : m.waiting = []) (hcalls : ∀ e ∈ trace, ¬e.move.IsCall) :
    trace = [] := by
  cases trace with
  | nil => rfl
  | cons e rest =>
      rw [← List.nil_append (e :: rest)] at hrun
      obtain ⟨hnone, hstep, -⟩ := hrun.entry
      rw [hnone.eq_of_nil] at hstep
      exact absurd (hstep.isCall_of_idle hidle hwaiting) (hcalls e (List.mem_cons_self ..))

theorem Step.queue_of_closes {m m' : Machine} {move : Move} {events : List Event}
    (hstep : Step m move events m') {uri : Uri} (hcloses : move.Closes uri) : m'.queue = [] := by
  cases hstep with
  | call hidle haccept horder =>
      obtain rfl := hcloses
      obtain ⟨-, -, rfl⟩ := haccept
      exact List.perm_nil.mp horder
  | skip | ask | finish | answer => exact hcloses.elim

/-- A call that closes a document takes its diagnostics back. -/
theorem UpToDate.clears {flags : ClientFlags} {earlier during : List Entry} {calling : Entry}
    {m : Machine} (h : UpToDate flags earlier calling.before)
    (hstep : Step calling.before calling.move calling.events calling.after)
    (hlater : Run calling.after during m) (hcall : calling.move.IsCall)
    (hopens : ¬calling.move.OpensSession) (hcalls : ∀ e ∈ during, ¬e.move.IsCall) {uri : Uri}
    (hopen : calling.before.server.store.get? uri ≠ none) (hclosed : m.server.store.get? uri = none) :
    publications uri (sentEvents (calling :: during)) = [(none, [])] := by
  obtain ⟨-, hwaiting, -, hnodup, -⟩ := hstep.settings_of_call hcall hopens
  have hbegun := hwaiting.trans h.waiting
  have hclosed' : calling.after.server.store.get? uri = none := by
    rw [← (hlater.within (hstep.sound h.sound) hbegun hnodup hcalls).get?, hclosed]
  rcases hstep.document_cases uri with ⟨-, -, -, text, version, hset⟩ | ⟨hcloses, -, hevents, -⟩ |
    ⟨-, -, hsame⟩
  · rw [hset] at hclosed'
    cases hclosed'
  · obtain rfl := hlater.eq_nil_of_idle (hstep.queue_of_closes hcloses) hbegun hcalls
    simp [sentEvents, hevents]
  · rw [← hsame] at hopen
    exact absurd hclosed' hopen

theorem OpenedOnce.cases {earlier later : List Entry} {e : Entry} {opening : Opening}
    (h : OpenedOnce (earlier ++ e :: later) opening) :
    (earlier = [] ∧ ∃ files, e.move = .call files (.openSession opening)) ∨
      (OpenedOnce earlier opening ∧ ¬e.move.OpensSession) := by
  obtain ⟨first, rest, files, htrace, hmove, hrest⟩ := h
  cases earlier with
  | nil =>
      obtain ⟨rfl, -⟩ := List.cons.inj htrace
      exact Or.inl ⟨rfl, files, hmove⟩
  | cons entry front =>
      obtain ⟨rfl, rfl⟩ := List.cons.inj htrace
      refine Or.inr ⟨⟨entry, front, files, rfl, hmove, fun e he => ?_⟩, hrest e (by simp)⟩
      exact hrest e (List.mem_append_left _ he)

/-- Between two calls the client was last told the diagnostics of every open document, under its
version and the process-wide settings that are in force. For the last call: it has published exactly
once every document that it has set, and every open one if it has changed these settings, and has taken
back the diagnostics of a document that it has closed. -/
theorem lastPublication_is_fresh {engine : Engine} {defaults : Settings} {discovers : Bool}
    {trace : List Entry} {m : Machine} {opening : Opening}
    (hrun : Run (Machine.start engine defaults discovers) trace m) (hopened : OpenedOnce trace opening)
    (hflag : opening.flags.configuration = false) (hidle : m.queue = []) :
    m.waiting = [] ∧
    (∀ uri document, m.server.store.get? uri = some document →
      lastPublication uri trace = some (some document.version, validate uri document.text
        m.server.globalSettings.maxNumberOfProblems opening.flags.relatedInformation)) ∧
    ∀ earlier calling during, trace = earlier ++ calling :: during → calling.move.IsCall →
      (∀ e ∈ during, ¬e.move.IsCall) → ∀ uri,
      (∀ document, m.server.store.get? uri = some document →
        (calling.before.server.store.get? uri ≠ some document ∨
          calling.before.server.globalSettings ≠ m.server.globalSettings) →
        publications uri (sentEvents (calling :: during)) =
          [passResult uri document m.server.globalSettings opening.flags.relatedInformation]) ∧
      (calling.before.server.store.get? uri ≠ none → m.server.store.get? uri = none →
        publications uri (sentEvents (calling :: during)) = [(none, [])]) := by
  have hend := UpToDate.of_openedOnce hrun hopened hflag
  refine ⟨hend.waiting, fun uri document hopen => ?_, ?_⟩
  · rw [hend.fresh uri document hopen (by simp [hidle]), hend.flags]
    rfl
  · rintro earlier calling during rfl hcall hcalls uri
    obtain ⟨hearlier, hstep, hlater⟩ := hrun.entry
    rcases hopened.cases with ⟨rfl, files, hmove⟩ | ⟨hbefore, hopens⟩
    · -- The call that opens the session finds and leaves no document.
      have hstart := hearlier.eq_of_nil
      have hnone : calling.before.server.store.get? uri = none := by
        rw [hstart]
        rfl
      rw [hstart, hmove] at hstep
      obtain ⟨-, hqueue, hwaiting, hempty⟩ := hstep.opens
      obtain rfl := hlater.eq_nil_of_idle hqueue hwaiting hcalls
      obtain rfl := hlater.eq_of_nil
      refine ⟨fun document hopen => ?_, fun hopen => absurd hnone hopen⟩
      rw [hempty] at hopen
      cases hopen
    · have h := UpToDate.of_openedOnce hearlier hbefore hflag
      refine ⟨fun document hopen hchanged => ?_, fun hopen hclosed => ?_⟩
      · exact h.republishes hstep hlater hflag hcall hopens hcalls hidle hend.waiting hopen hchanged
      · exact h.clears hstep hlater hcall hopens hcalls hopen hclosed

/-- A document is opened and published; then the client announces a cap of 1. -/
theorem change_run : ∃ earlier calling during m,
    Run (Machine.start Engine.builtin {} false) (earlier ++ calling :: during) m ∧
    OpenedOnce (earlier ++ calling :: during) {} ∧ m.queue = [] ∧
    calling.move.IsCall ∧ (∀ e ∈ during, ¬e.move.IsCall) ∧
    m.server.store.get? loginUri = some ⟨"AA BB", 1, 1⟩ ∧
    calling.before.server.globalSettings = ⟨1000⟩ ∧ m.server.globalSettings = ⟨1⟩ := by
  have hearlier : Run (Machine.start Engine.builtin {} false) _ _ :=
    .head (@Step.call _ .empty (.openSession {}) _ _ _ _ rfl rfl (.refl _)) <|
    .head (@Step.call _ .empty (.didOpen loginUri "AA BB" 1) _ _ _ _ rfl rfl (.refl _)) <|
    .head (.finish rfl rfl rfl rfl) .refl
  have hrun := hearlier.trans <|
    .head (@Step.call _ .empty (.didChangeConfiguration (.object [(Settings.capName, .ofNat 1)]))
      _ _ _ _ rfl rfl (.refl _)) <|
    .head (.finish rfl rfl rfl rfl) .refl
  refine ⟨_, _, _, _, hrun, ⟨_, _, .empty, rfl, rfl, ?_⟩, rfl, trivial, ?_, rfl, rfl, rfl⟩
  · simp [Move.OpensSession]
  · simp [Move.IsCall]

/-- The law at that run: the call has published the document again, with one diagnostic. -/
theorem lastPublication_is_fresh_after_change : ∃ earlier calling during m,
    Run (Machine.start Engine.builtin {} false) (earlier ++ calling :: during) m ∧
    OpenedOnce (earlier ++ calling :: during) {} ∧ m.queue = [] ∧ m.waiting = [] ∧
    m.server.store.get? loginUri = some ⟨"AA BB", 1, 1⟩ ∧
    lastPublication loginUri (earlier ++ calling :: during) =
      some (some 1, validate loginUri "AA BB" 1 false) ∧
    publications loginUri (sentEvents (calling :: during)) =
      [(some 1, validate loginUri "AA BB" 1 false)] ∧
    (validate loginUri "AA BB" 1 false).length = 1 := by
  obtain ⟨earlier, calling, during, m, hrun, hopened, hidle, hcall, hcalls, hopen, hold, hnew⟩ :=
    change_run
  obtain ⟨hended, hlast, hround⟩ := lastPublication_is_fresh hrun hopened rfl hidle
  obtain ⟨hset, -⟩ := hround earlier calling during rfl hcall hcalls loginUri
  have hchanged : calling.before.server.globalSettings ≠ m.server.globalSettings := by
    rw [hold, hnew]
    decide
  have hfresh := hlast loginUri _ hopen
  have hpublished := hset _ hopen (Or.inr hchanged)
  rw [hnew] at hfresh hpublished
  exact ⟨earlier, calling, during, m, hrun, hopened, hidle, hended, hopen, hfresh, hpublished,
    by decide +kernel⟩

end ScenarioServer
