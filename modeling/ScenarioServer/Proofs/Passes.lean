import ScenarioServer.Proofs.Soundness

/-!
# One step, seen from one document

For a single document a step does one of few things. `Step.document_cases` is about the store:
the step sets the document under a new generation, closes it, or leaves it as it is.
`Step.publication_cases` is about what is sent: nothing, the empty list of a close, or the
diagnostics of a pass that read the document as it is now. The second holds in sound states
only, where the ledger refuses no current pass.

`state_is_consistent` says of every reachable state what the maps, the counter and the passes that
wait have to do with one another.
-/

namespace ScenarioServer

/-! ## Moves that concern a document -/

namespace Move

/-- The move sets the text of a document: it is opened, or changed by at least one change. -/
def Puts (uri : Uri) : Move → Prop
  | .call _ c => ∃ text version, c.put? = some (uri, text, version)
  | _ => False

def Closes (uri : Uri) : Move → Prop
  | .call _ c => c = .didClose uri
  | _ => False

end Move

/-- The step ends a pass over `uri`: the pass read `document` when it began, and `settings` are the
ones it uses, be they in force already or taken from the client's answer. -/
inductive Ends (m : Machine) : Move → Uri → Document → Settings → Prop
  | work {uri : Uri} {rest : List Uri} {document : Document} {settings : Settings}
      (hqueue : m.queue = uri :: rest) (hopen : m.server.store.get? uri = some document)
      (hknown : m.server.settings? uri = some settings) : Ends m .work uri document settings
  | answer {ticket : Nat} {pass : Pass} {a : Answer} (hwaits : (ticket, pass) ∈ m.waiting) :
      Ends m (.answer ticket a) pass.uri pass.document
        (m.server.receive pass.uri pass.fallback a).2

/-! ## The document in the store -/

/-- Publishing writes nothing but the ledger. -/
theorem Server.publish_frame {server after : Server} {uri : Uri} {document : Document}
    {settings : Settings} {events : List Event}
    (h : server.publish uri document settings = (after, events)) :
    (∀ key, after.store.get? key = server.store.get? key) ∧
      (∀ key, after.store.cachedSettings key = server.store.cachedSettings key) ∧
      after.store.lastGeneration = server.store.lastGeneration := by
  rcases Server.publish_cases h with ⟨rfl, -, -⟩ | ⟨-, -, rfl, -⟩
  · exact ⟨fun _ => rfl, fun _ => rfl, rfl⟩
  · exact ⟨fun _ => rfl, fun _ => rfl, rfl⟩

theorem Server.receive_flags {server received : Server} {uri : Uri} {fallback settings : Settings}
    {a : Answer} (h : server.receive uri fallback a = (received, settings)) :
    received.flags = server.flags := by
  unfold Server.receive at h
  split at h <;> obtain ⟨rfl, -⟩ := Prod.mk.inj h <;> rfl

theorem Step.document_cases {m m' : Machine} {move : Move} {events : List Event}
    (hstep : Step m move events m') (uri : Uri) :
    (move.Puts uri ∧ ¬move.Closes uri ∧ m'.queue = [uri] ∧ ∃ text version,
      m'.server.store.get? uri = some ⟨text, version, m.server.store.lastGeneration + 1⟩) ∨
    (move.Closes uri ∧ ¬move.Puts uri ∧ events = [.publish uri none []] ∧
      m'.server.store.get? uri = none) ∨
    (¬move.Puts uri ∧ ¬move.Closes uri ∧
      m'.server.store.get? uri = m.server.store.get? uri) := by
  cases hstep with
  | @call files c server events uris queue hidle haccept horder =>
      rcases Server.accept_cases haccept with
        ⟨target, text, version, hput, -, rfl, rfl⟩ | ⟨target, rfl, rfl, -, rfl⟩ |
        ⟨hput, hclose, hkeeps, -⟩
      · have hclose : c ≠ .didClose uri := by
          rintro rfl
          cases hput
        by_cases huri : target = uri
        · subst huri
          have hqueue : queue = [target] := List.perm_singleton.mp horder
          refine Or.inl ⟨⟨text, version, hput⟩, hclose, hqueue, text, version, ?_⟩
          simp [Store.get?_put]
        · refine Or.inr (Or.inr ⟨?_, hclose, ?_⟩)
          · rintro ⟨text', version', hput'⟩
            rw [hput] at hput'
            exact huri (Prod.mk.inj (Option.some.inj hput')).1
          · simp [Store.get?_put, Ne.symm huri]
      · have hput : ¬Move.Puts uri (.call files (.didClose target)) := by
          rintro ⟨text, version, hput⟩
          cases hput
        by_cases huri : target = uri
        · subst huri
          exact Or.inr (Or.inl ⟨rfl, hput, rfl, by simp [Store.get?_close]⟩)
        · refine Or.inr (Or.inr ⟨hput, ?_, by simp [Store.get?_close, Ne.symm huri]⟩)
          intro hcloses
          exact huri (Call.didClose.inj hcloses)
      · refine Or.inr (Or.inr ⟨?_, hclose uri, hkeeps.get? uri⟩)
        rintro ⟨text, version, hput'⟩
        rw [hput] at hput'
        cases hput'
  | skip | ask => exact Or.inr (Or.inr ⟨id, id, rfl⟩)
  | finish hqueue hopen hknown hpublish =>
      exact Or.inr (Or.inr ⟨id, id, (Server.publish_frame hpublish).1 uri⟩)
  | answer hidle hwaits hreceive hpublish =>
      refine Or.inr (Or.inr ⟨id, id, ?_⟩)
      exact ((Server.publish_frame hpublish).1 uri).trans ((Server.receive_keeps hreceive).get? uri)

theorem Step.lastGeneration_le {m m' : Machine} {move : Move} {events : List Event}
    (hstep : Step m move events m') :
    m.server.store.lastGeneration ≤ m'.server.store.lastGeneration := by
  cases hstep with
  | call hidle haccept =>
      rcases Server.accept_cases haccept with
        ⟨target, text, version, -, -, -, rfl⟩ | ⟨target, -, -, -, rfl⟩ | ⟨-, -, hkeeps, -⟩
      · exact Nat.le_succ _
      · exact Nat.le_refl _
      · exact Nat.le_of_eq hkeeps.lastGeneration.symm
  | skip | ask => exact Nat.le_refl _
  | finish hqueue hopen hknown hpublish =>
      exact Nat.le_of_eq (Server.publish_frame hpublish).2.2.symm
  | answer hidle hwaits hreceive hpublish =>
      have hpublished := (Server.publish_frame hpublish).2.2
      have hreceived := (Server.receive_keeps hreceive).lastGeneration
      exact Nat.le_of_eq (hpublished.trans hreceived).symm

/-! ## What is sent for a document -/

/-- What an event publishes for a document: a version and the diagnostics. -/
def Event.publication? (uri : Uri) : Event → Option (Option Int × List Diagnostic)
  | .publish target version diagnostics =>
    if target = uri then some (version, diagnostics) else none
  | _ => none

/-- What is published for a document, in order. -/
def publications (uri : Uri) (events : List Event) : List (Option Int × List Diagnostic) :=
  events.filterMap (Event.publication? uri)

theorem publications_append (uri : Uri) (events events' : List Event) :
    publications uri (events ++ events') = publications uri events ++ publications uri events' :=
  List.filterMap_append

@[simp] theorem publications_publish (uri target : Uri) (version : Option Int)
    (diagnostics : List Diagnostic) :
    publications uri [.publish target version diagnostics] =
      if target = uri then [(version, diagnostics)] else [] := by
  by_cases huri : target = uri <;> simp [publications, Event.publication?, huri]

theorem publications_eq_nil {uri : Uri} {events : List Event}
    (h : ∀ version diagnostics, .publish uri version diagnostics ∉ events) :
    publications uri events = [] := by
  rw [publications, List.filterMap_eq_nil_iff]
  intro event hmem
  cases event with
  | publish target version diagnostics =>
      have hne : target ≠ uri := by
        rintro rfl
        exact h version diagnostics hmem
      simp [Event.publication?, hne]
  | requestConfiguration | register | log => rfl

theorem mem_publications {uri : Uri} {version : Option Int} {diagnostics : List Diagnostic}
    {events : List Event} (h : .publish uri version diagnostics ∈ events) :
    (version, diagnostics) ∈ publications uri events :=
  List.mem_filterMap.mpr ⟨_, h, by simp [Event.publication?]⟩

/-- The publication of a pass that read `document`. -/
def passResult (uri : Uri) (document : Document) (settings : Settings) (related : Bool) :
    Option Int × List Diagnostic :=
  (some document.version, validate uri document.text settings.maxNumberOfProblems related)

/-- Whichever way a pass ends, its last act is to publish. -/
theorem Step.publish_of_ends {m m' : Machine} {move : Move} {events : List Event}
    (hstep : Step m move events m') (h : Sound m) {uri : Uri} {document : Document}
    {settings : Settings} (hends : Ends m move uri document settings) :
    ∃ ready, m.server.Keeps ready ∧ ready.flags = m.server.flags ∧
      ready.publish uri document settings = (m'.server, events) := by
  cases hends with
  | work hqueue hopen hknown =>
      cases hstep with
      | skip hqueue' hclosed =>
          obtain ⟨rfl, -⟩ := List.cons.inj (hqueue.symm.trans hqueue')
          rw [hopen] at hclosed
          cases hclosed
      | ask hqueue' _ hunknown =>
          obtain ⟨rfl, -⟩ := List.cons.inj (hqueue.symm.trans hqueue')
          rw [hknown] at hunknown
          cases hunknown
      | finish hqueue' hopen' hknown' hpublish =>
          obtain ⟨rfl, -⟩ := List.cons.inj (hqueue.symm.trans hqueue')
          obtain rfl := Option.some.inj (hopen.symm.trans hopen')
          obtain rfl := Option.some.inj (hknown.symm.trans hknown')
          exact ⟨m.server, .of_store rfl, rfl, hpublish⟩
  | @answer ticket pass a hwaits =>
      cases hstep with
      | answer hidle hwaits' hreceive hpublish =>
          obtain rfl := h.distinct ticket _ _ hwaits hwaits'
          rw [hreceive]
          exact ⟨_, Server.receive_keeps hreceive, Server.receive_flags hreceive, hpublish⟩

/-- A pass that finds its document current has read it as it is now: an equal generation means the
same text and version. -/
theorem Ends.get?_of_isCurrent {m : Machine} {move : Move} {uri : Uri} {document : Document}
    {settings : Settings} (hends : Ends m move uri document settings) (h : Sound m)
    (hcurrent : m.server.store.isCurrent uri document.generation = true) :
    m.server.store.get? uri = some document := by
  obtain ⟨stored, hstored, hgeneration⟩ := (Store.isCurrent_iff ..).mp hcurrent
  cases hends with
  | work hqueue hopen hknown => exact hopen
  | answer hwaits =>
      obtain rfl := h.snapshot _ _ hwaits stored hstored hgeneration
      exact hstored

/-- A pass that read the document as it is now is admitted, recorded and sent. -/
theorem Step.record_of_current {m m' : Machine} {move : Move} {events : List Event}
    (hstep : Step m move events m') (h : Sound m) {uri : Uri} {document : Document}
    {settings : Settings} (hends : Ends m move uri document settings)
    (hcurrent : m.server.store.get? uri = some document) :
    m'.server.store.ledger.latest uri = some document.generation ∧
    events = [.publish uri (some document.version) (validate uri document.text
      settings.maxNumberOfProblems m.server.flags.relatedInformation)] := by
  obtain ⟨ready, hkeeps, hflags, hpublish⟩ := hstep.publish_of_ends h hends
  have hready : ready.store.isCurrent uri document.generation = true :=
    (Store.isCurrent_iff ..).mpr ⟨document, (hkeeps.get? uri).trans hcurrent, rfl⟩
  have hadmits : ready.store.ledger.admits uri document.generation = true := by
    rw [Ledger.admits_iff, hkeeps.latest, ← Ledger.admits_iff]
    exact h.admits hcurrent
  rcases Server.publish_cases hpublish with ⟨-, -, hguard⟩ | ⟨-, -, hserver, rfl⟩
  · exact absurd ⟨hready, hadmits⟩ hguard
  · rw [hflags, hserver]
    simp [Ledger.latest_record, hadmits]

theorem Step.events_of_current {m m' : Machine} {move : Move} {events : List Event}
    (hstep : Step m move events m') (h : Sound m) {uri : Uri} {document : Document}
    {settings : Settings} (hends : Ends m move uri document settings)
    (hcurrent : m.server.store.get? uri = some document) :
    events = [.publish uri (some document.version) (validate uri document.text
      settings.maxNumberOfProblems m.server.flags.relatedInformation)] :=
  (hstep.record_of_current h hends hcurrent).2

/-- A pass that read the document as it no longer is sends nothing. -/
theorem Step.events_of_superseded {m m' : Machine} {move : Move} {events : List Event}
    (hstep : Step m move events m') (h : Sound m) {uri : Uri} {document : Document}
    {settings : Settings} (hends : Ends m move uri document settings)
    (hsuperseded : m.server.store.get? uri ≠ some document) : events = [] := by
  obtain ⟨ready, hkeeps, -, hpublish⟩ := hstep.publish_of_ends h hends
  rcases Server.publish_cases hpublish with ⟨-, rfl, -⟩ | ⟨hcurrent, -, -, -⟩
  · rfl
  · refine absurd (hends.get?_of_isCurrent h ?_) hsuperseded
    rw [Store.isCurrent_iff] at hcurrent ⊢
    rw [hkeeps.get?] at hcurrent
    exact hcurrent

theorem Step.publication_cases {m m' : Machine} {move : Move} {events : List Event}
    (hstep : Step m move events m') (h : Sound m) (uri : Uri) :
    publications uri events = [] ∨
    (move.Closes uri ∧ publications uri events = [(none, [])]) ∨
    (∃ document settings, Ends m move uri document settings ∧
      m.server.store.get? uri = some document ∧
      publications uri events =
        [passResult uri document settings m.server.flags.relatedInformation]) := by
  -- for the two kinds of step that end a pass, over whatever document
  have hpass : ∀ {target document settings}, Ends m move target document settings →
      publications uri events = [] ∨ ∃ document settings, Ends m move uri document settings ∧
        m.server.store.get? uri = some document ∧ publications uri events =
          [passResult uri document settings m.server.flags.relatedInformation] := by
    intro target document settings hends
    by_cases hcurrent : m.server.store.get? target = some document
    · obtain rfl := hstep.events_of_current h hends hcurrent
      by_cases huri : target = uri
      · subst huri
        exact Or.inr ⟨document, settings, hends, hcurrent, by simp [passResult]⟩
      · exact Or.inl (by simp [huri])
    · obtain rfl := hstep.events_of_superseded h hends hcurrent
      exact Or.inl rfl
  cases hstep with
  | call hidle haccept =>
      rcases Server.accept_cases haccept with
        ⟨target, text, version, -, rfl, -, -⟩ | ⟨target, rfl, rfl, -, -⟩ | ⟨-, -, -, hquiet⟩
      · exact Or.inl rfl
      · by_cases huri : target = uri
        · subst huri
          exact Or.inr (Or.inl ⟨rfl, by simp⟩)
        · exact Or.inl (by simp [huri])
      · exact Or.inl (publications_eq_nil (hquiet uri))
  | skip | ask => exact Or.inl rfl
  | finish hqueue hopen hknown _ => exact (hpass (.work hqueue hopen hknown)).imp_right Or.inr
  | answer _ hwaits _ _ => exact (hpass (.answer hwaits)).imp_right Or.inr

/-! ## What every state keeps -/

/-- In every state of every run: what has been published for a document is recorded of an open one,
under a generation not above the document's, which is not above the counter; settings are cached for
open documents only; and a pass that waits has a generation not above the counter, and has read the
text and version that are stored if it has the generation that is stored. So a step that ends a pass
whose document is current finds it admitted, and nothing is kept of a document that is closed. -/
theorem state_is_consistent {engine : Engine} {defaults : Settings} {discovers : Bool}
    {trace : List Entry} {m : Machine}
    (hrun : Run (Machine.start engine defaults discovers) trace m) :
    (∀ uri generation, m.server.store.ledger.latest uri = some generation →
      ∃ document, m.server.store.get? uri = some document ∧ generation ≤ document.generation ∧
        document.generation ≤ m.server.store.lastGeneration) ∧
    (∀ uri settings, m.server.store.cachedSettings uri = some settings →
      m.server.store.isOpen uri = true) ∧
    (∀ ticket pass, (ticket, pass) ∈ m.waiting →
      pass.document.generation ≤ m.server.store.lastGeneration ∧
      ∀ document, m.server.store.get? pass.uri = some document →
        document.generation = pass.document.generation →
        document.text = pass.document.text ∧ document.version = pass.document.version) ∧
    (∀ move events m' uri document settings, Step m move events m' →
      Ends m move uri document settings →
      m.server.store.isCurrent uri document.generation = true →
      m.server.store.ledger.admits uri document.generation = true ∧
      m'.server.store.ledger.latest uri = some document.generation ∧
      events = [.publish uri (some document.version) (validate uri document.text
        settings.maxNumberOfProblems m.server.flags.relatedInformation)]) ∧
    (∀ uri, m.server.store.get? uri = none →
      m.server.store.ledger.latest uri = none ∧ m.server.store.cachedSettings uri = none) := by
  have h : Sound m := hrun.sound (Sound.start engine defaults discovers)
  refine ⟨?_, h.cached, ?_, ?_, ?_⟩
  · intro uri generation hlatest
    obtain ⟨document, hopen, hle⟩ := h.published uri generation hlatest
    exact ⟨document, hopen, hle, h.stored uri document hopen⟩
  · intro ticket pass hwaits
    refine ⟨h.waiting ticket pass hwaits, fun document hopen hgeneration => ?_⟩
    obtain rfl := h.snapshot ticket pass hwaits document hopen hgeneration
    exact ⟨rfl, rfl⟩
  · intro move events m' uri document settings hstep hends hcurrent
    have hopen := hends.get?_of_isCurrent h hcurrent
    exact ⟨h.admits hopen, hstep.record_of_current h hends hopen⟩
  · intro uri hclosed
    constructor
    · rw [Option.eq_none_iff_forall_ne_some]
      intro generation hlatest
      obtain ⟨document, hopen, -⟩ := h.published uri generation hlatest
      rw [hclosed] at hopen
      cases hopen
    · rw [Option.eq_none_iff_forall_ne_some]
      intro settings hcached
      obtain ⟨document, hopen⟩ := (Store.isOpen_iff ..).mp (h.cached uri settings hcached)
      rw [hclosed] at hopen
      cases hopen

/-- A document is opened and changed, and both passes over it wait. The second is answered and
recorded; then the document is closed, and nothing is kept of it although the first still waits. -/
theorem state_is_consistent_at_close :
    ∃ trace m, Run (Machine.start Engine.builtin {} false) trace m ∧
      (0, ⟨loginUri, ⟨"AAA", 1, 1⟩, {}, []⟩) ∈ m.waiting ∧
      (Document.mk "AAA" 1 1).generation ≤ m.server.store.lastGeneration ∧
      ∃ events m' m'', Step m (.answer 1 (capAnswer 1)) events m' ∧
        m'.server.store.ledger.latest loginUri = some 2 ∧
        Step m' (.call .empty (.didClose loginUri)) [.publish loginUri none []] m'' ∧
        m''.server.store.ledger.latest loginUri = none ∧
        m''.server.store.cachedSettings loginUri = none := by
  have hrun : Run (Machine.start Engine.builtin {} false) _ _ :=
    .head (@Step.call _ .empty (.openSession askableOpening) _ _ _ _ rfl rfl (.refl _)) <|
    .head (@Step.call _ .empty (.didOpen loginUri "AAA" 1) _ _ _ _ rfl rfl (.refl _)) <|
    .head (.ask rfl rfl rfl) <|
    .head (@Step.call _ .empty (.didChange loginUri ["BBB"] 2) _ _ _ _ rfl rfl (.refl _)) <|
    .head (.ask rfl rfl rfl) .refl
  obtain ⟨-, -, hwaiting, hends, -⟩ := state_is_consistent hrun
  have hwaits := List.mem_cons_of_mem (0, Pass.mk loginUri ⟨"AAA", 1, 1⟩ {} [])
    (List.mem_singleton_self (1, Pass.mk loginUri ⟨"BBB", 2, 2⟩ {} []))
  have hanswered := hrun.tail (@Step.answer _ 1 _ (capAnswer 1) _ _ _ _ rfl hwaits rfl rfl)
  have hclosing := hanswered.tail
    (@Step.call _ .empty (.didClose loginUri) _ _ _ _ rfl rfl (.refl _))
  obtain ⟨-, hanswer, -⟩ := hanswered.entry
  obtain ⟨-, hclose, -⟩ := hclosing.entry
  obtain ⟨-, hrecorded, -⟩ := hends _ _ _ _ _ _ hanswer (.answer hwaits) rfl
  obtain ⟨-, -, -, -, hclosed⟩ := state_is_consistent hclosing
  exact ⟨_, _, hrun, List.mem_cons_self .., (hwaiting 0 _ (List.mem_cons_self ..)).1, _, _, _, hanswer,
    hrecorded, hclose, hclosed loginUri rfl⟩

end ScenarioServer
