import ScenarioServer.Proofs.Passes

/-!
# What the client has been told

Two theorems about every run of a session, whatever the order in which calls come and requests
are answered.

* `lastPublication_of_quiescent`: once no call runs or waits, the client has last been told the
  diagnostics of every open document as it is now, and the empty list for a closed one. The
  invariant behind it is `Covered`: an open document whose present state has not been
  published is about to be validated or has a pass that waits for it.
* `publications_are_current`: whatever is published with a version was computed from the text that
  is stored at that moment, under the version that is stored. So generations never go back from
  one publication of a document to the next, and nothing is published for a closed document.
-/

namespace ScenarioServer

/-! ## The record of a run -/

def lastPublication (uri : Uri) (trace : List Entry) : Option (Option Int × List Diagnostic) :=
  (publications uri (sentEvents trace)).getLast?

theorem publications_sentEvents_concat (uri : Uri) (trace : List Entry) (e : Entry) :
    publications uri (sentEvents (trace ++ [e])) =
      publications uri (sentEvents trace) ++ publications uri e.events := by
  rw [sentEvents_append, publications_append]
  simp [sentEvents]

theorem lastPublication_concat_of_nil {uri : Uri} {trace : List Entry} {e : Entry}
    (h : publications uri e.events = []) :
    lastPublication uri (trace ++ [e]) = lastPublication uri trace := by
  rw [lastPublication, publications_sentEvents_concat, h, List.append_nil, lastPublication]

theorem lastPublication_concat_of_singleton {uri : Uri} {trace : List Entry} {e : Entry}
    {publication : Option Int × List Diagnostic}
    (h : publications uri e.events = [publication]) :
    lastPublication uri (trace ++ [e]) = some publication := by
  rw [lastPublication, publications_sentEvents_concat, h, List.getLast?_concat]

/-- During the run a pass over `uri` ended that had read `document` and used these settings and
this related flag. -/
def UsedIn (trace : List Entry) (uri : Uri) (document : Document) (settings : Settings)
    (related : Bool) : Prop :=
  ∃ e ∈ trace, Ends e.before e.move uri document settings ∧
    e.before.server.flags.relatedInformation = related

theorem UsedIn.concat {trace : List Entry} {uri : Uri} {document : Document} {settings : Settings}
    {related : Bool} (h : UsedIn trace uri document settings related) (e : Entry) :
    UsedIn (trace ++ [e]) uri document settings related := by
  obtain ⟨e', hmem, hends⟩ := h
  exact ⟨e', List.mem_append_left _ hmem, hends⟩

/-- The client was last told the diagnostics of this state of the document. -/
def ToldLast (trace : List Entry) (uri : Uri) (document : Document) : Prop :=
  ∃ settings related, UsedIn trace uri document settings related ∧
    lastPublication uri trace = some (passResult uri document settings related)

theorem toldLast_of_ends {m m' : Machine} {move : Move} {events : List Event} {trace : List Entry}
    (hstep : Step m move events m') (h : Sound m) {uri : Uri} {document : Document}
    {settings : Settings} (hends : Ends m move uri document settings)
    (hcurrent : m.server.store.get? uri = some document) :
    ToldLast (trace ++ [⟨m, move, events, m'⟩]) uri document := by
  refine ⟨settings, m.server.flags.relatedInformation,
    ⟨_, List.mem_append_right _ (List.mem_singleton.mpr rfl), hends, rfl⟩, ?_⟩
  apply lastPublication_concat_of_singleton
  obtain rfl := hstep.events_of_current h hends hcurrent
  simp [passResult]

/-! ## Nothing is lost -/

/-- The state of an open document is not lost on the client: the running call is about to validate
the document and nothing else, or a pass over this state waits, or the client was told. -/
def Covered (trace : List Entry) (m : Machine) (uri : Uri) (document : Document) : Prop :=
  m.queue = [uri] ∨
  (∃ ticket pass, (ticket, pass) ∈ m.waiting ∧ pass.uri = uri ∧ pass.document = document) ∨
  ToldLast trace uri document

theorem Covered.of_queue {m m' : Machine} {move : Move} {events : List Event} {trace : List Entry}
    (hstep : Step m move events m') (h : Sound m) {uri : Uri} {document : Document}
    (hcurrent : m.server.store.get? uri = some document) (hqueue : m.queue = [uri]) :
    Covered (trace ++ [⟨m, move, events, m'⟩]) m' uri document := by
  cases hstep with
  | call hidle | answer hidle =>
      rw [hidle] at hqueue
      cases hqueue
  | skip hqueue' hclosed =>
      obtain ⟨rfl, -⟩ := List.cons.inj (hqueue.symm.trans hqueue')
      rw [hcurrent] at hclosed
      cases hclosed
  | ask hqueue' hopen hunknown =>
      obtain ⟨rfl, -⟩ := List.cons.inj (hqueue.symm.trans hqueue')
      obtain rfl := Option.some.inj (hcurrent.symm.trans hopen)
      exact Or.inr (Or.inl ⟨_, _, List.mem_append_right _ (List.mem_singleton.mpr rfl), rfl, rfl⟩)
  | finish hqueue' hopen hknown hpublish =>
      obtain ⟨rfl, -⟩ := List.cons.inj (hqueue.symm.trans hqueue')
      exact Or.inr (Or.inr (toldLast_of_ends (.finish hqueue' hopen hknown hpublish) h
        (.work hqueue' hcurrent hknown) hcurrent))

/-- A pass that waits goes on waiting, or ends and tells the client. -/
theorem Covered.of_waiting {m m' : Machine} {move : Move} {events : List Event}
    {trace : List Entry} (hstep : Step m move events m') (h : Sound m) {ticket : Nat} {pass : Pass}
    (hcurrent : m.server.store.get? pass.uri = some pass.document)
    (hwaits : (ticket, pass) ∈ m.waiting) :
    Covered (trace ++ [⟨m, move, events, m'⟩]) m' pass.uri pass.document := by
  cases hstep with
  | call | skip | finish => exact Or.inr (Or.inl ⟨ticket, pass, hwaits, rfl, rfl⟩)
  | ask =>
      exact Or.inr (Or.inl ⟨ticket, pass, List.mem_append_left _ hwaits, rfl, rfl⟩)
  | @answer answered other a received server settings events hidle hother hreceive hpublish =>
      by_cases hticket : ticket = answered
      · subst hticket
        obtain rfl := h.distinct ticket _ _ hwaits hother
        exact Or.inr (Or.inr (toldLast_of_ends (.answer hidle hother hreceive hpublish) h
          (.answer hwaits) hcurrent))
      · refine Or.inr (Or.inl ⟨ticket, pass, ?_, rfl, rfl⟩)
        exact List.mem_filter.mpr ⟨hwaits, by simpa using hticket⟩

/-- What the client was told of a document that does not change stays true of it. -/
theorem ToldLast.step {m m' : Machine} {move : Move} {events : List Event} {trace : List Entry}
    (hstep : Step m move events m') (h : Sound m) {uri : Uri} {document : Document}
    (hcurrent : m.server.store.get? uri = some document) (hcloses : ¬move.Closes uri)
    (htold : ToldLast trace uri document) :
    ToldLast (trace ++ [⟨m, move, events, m'⟩]) uri document := by
  rcases hstep.publication_cases h uri with hnone | ⟨hclose, -⟩ | ⟨other, settings, hends, hother, -⟩
  · obtain ⟨settings, related, hused, hlast⟩ := htold
    exact ⟨settings, related, hused.concat _, (lastPublication_concat_of_nil hnone).trans hlast⟩
  · exact absurd hclose hcloses
  · obtain rfl := Option.some.inj (hcurrent.symm.trans hother)
    exact toldLast_of_ends hstep h hends hcurrent

/-- In every state of a run each open document is covered, and the client was last told the empty
list, if anything, for each closed one. -/
theorem Run.covered {engine : Engine} {defaults : Settings} {discovers : Bool}
    {trace : List Entry} {m : Machine} (hrun : Run (Machine.start engine defaults discovers) trace m)
    (uri : Uri) :
    (∀ document, m.server.store.get? uri = some document → Covered trace m uri document) ∧
    (m.server.store.get? uri = none →
      ∀ publication, lastPublication uri trace = some publication → publication = (none, [])) := by
  induction hrun with
  | refl => constructor <;> simp [Machine.start, Server.start, lastPublication, sentEvents, publications]
  | @tail trace m m' move events hrun hstep ih =>
      have h : Sound m := hrun.sound (Sound.start engine defaults discovers)
      rcases hstep.document_cases uri with
        ⟨-, -, hqueue, text, version, hopen⟩ | ⟨-, -, rfl, hclosed⟩ | ⟨-, hcloses, hsame⟩
      · refine ⟨fun document _ => Or.inl hqueue, fun hclosed => ?_⟩
        rw [hopen] at hclosed
        cases hclosed
      · refine ⟨fun document hopen => ?_, fun _ publication hlast => ?_⟩
        · rw [hclosed] at hopen
          cases hopen
        · have hempty : publications uri [.publish uri none []] = [(none, [])] := by simp
          rw [lastPublication_concat_of_singleton hempty] at hlast
          exact (Option.some.inj hlast).symm
      · rw [hsame]
        refine ⟨fun document hopen => ?_, fun hclosed publication hlast => ?_⟩
        · rcases ih.1 document hopen with hqueue | ⟨ticket, pass, hwaits, rfl, rfl⟩ | htold
          · exact .of_queue hstep h hopen hqueue
          · exact .of_waiting hstep h hopen hwaits
          · exact Or.inr (Or.inr (htold.step hstep h hopen hcloses))
        · rcases hstep.publication_cases h uri with hnone | ⟨hclose, -⟩ | ⟨_, _, _, hopen, _⟩
          · rw [lastPublication_concat_of_nil hnone] at hlast
            exact ih.2 hclosed publication hlast
          · exact absurd hclose hcloses
          · rw [hclosed] at hopen
            cases hopen

/-- Once no call runs or waits, the client has last been told the diagnostics of every open document
under its present version, computed from its present text with the settings and the related flag
of a pass that ended during the run; and the empty list without a version for a document that is
not open, if anything was ever published for it. -/
theorem lastPublication_of_quiescent {engine : Engine} {defaults : Settings} {discovers : Bool}
    {trace : List Entry} {m : Machine} (hrun : Run (Machine.start engine defaults discovers) trace m)
    (hidle : m.queue = []) (hwaiting : m.waiting = []) (uri : Uri) :
    (∀ document, m.server.store.get? uri = some document →
      ∃ settings related, UsedIn trace uri document settings related ∧
        lastPublication uri trace = some (some document.version,
          validate uri document.text settings.maxNumberOfProblems related)) ∧
    (m.server.store.get? uri = none →
      ∀ publication, lastPublication uri trace = some publication → publication = (none, [])) := by
  obtain ⟨hopen, hclosed⟩ := hrun.covered uri
  refine ⟨fun document hdocument => ?_, hclosed⟩
  rcases hopen document hdocument with hqueue | ⟨ticket, pass, hwaits, -⟩ | htold
  · rw [hidle] at hqueue
    cases hqueue
  · rw [hwaiting] at hwaits
    cases hwaits
  · exact htold

/-- Two passes wait for the same document and are answered in the other order: the second publishes,
the first no longer does. -/
theorem lastPublication_after_overlap :
    ∃ trace m, Run (Machine.start Engine.builtin {} false) trace m ∧
      m.queue = [] ∧ m.waiting = [] ∧
      m.server.store.get? loginUri = some ⟨"BBB CCC", 2, 2⟩ ∧
      ∃ settings related, UsedIn trace loginUri ⟨"BBB CCC", 2, 2⟩ settings related ∧
        lastPublication loginUri trace = some (some 2,
          validate loginUri "BBB CCC" settings.maxNumberOfProblems related) := by
  have hrun : Run (Machine.start Engine.builtin {} false) _ _ :=
    .head (@Step.call _ .empty (.openSession askableOpening) _ _ _ _ rfl rfl (.refl _)) <|
    .head (@Step.call _ .empty (.didOpen loginUri "AAA" 1) _ _ _ _ rfl rfl (.refl _)) <|
    .head (.ask rfl rfl rfl) <|
    .head (@Step.call _ .empty (.didChange loginUri ["BBB CCC"] 2) _ _ _ _ rfl rfl (.refl _)) <|
    .head (.ask rfl rfl rfl) <|
    .head (@Step.answer _ 1 _ (capAnswer 1) _ _ _ _ rfl
      (List.mem_cons_of_mem _ (List.mem_cons_self ..)) rfl rfl) <|
    .head (@Step.answer _ 0 _ .failure _ _ _ _ rfl (List.mem_cons_self ..) rfl rfl) .refl
  exact ⟨_, _, hrun, rfl, rfl, rfl, (lastPublication_of_quiescent hrun rfl rfl loginUri).1 _ rfl⟩

/-! ## Nothing stale is sent -/

/-- The generations of what an entry publishes for a document under a version: those that the
document has at that moment. -/
def Entry.generations (uri : Uri) (e : Entry) : List Nat :=
  (publications uri e.events).filterMap fun publication =>
    if publication.1.isSome then (e.before.server.store.get? uri).map Document.generation else none

/-- The generations of what a run publishes for a document under a version, in order. -/
def publishedGenerations (uri : Uri) (trace : List Entry) : List Nat :=
  trace.flatMap (Entry.generations uri)

/-- A step publishes with a version at most once for a document, and then at the generation that
the document has. -/
theorem Step.generations_cases {m m' : Machine} {move : Move} {events : List Event}
    (hstep : Step m move events m') (h : Sound m) (uri : Uri) :
    Entry.generations uri ⟨m, move, events, m'⟩ = [] ∨
      ∃ document, m.server.store.get? uri = some document ∧
        Entry.generations uri ⟨m, move, events, m'⟩ = [document.generation] := by
  rcases hstep.publication_cases h uri with
    hnone | ⟨-, hempty⟩ | ⟨document, settings, -, hcurrent, hresult⟩
  · exact Or.inl (by simp [Entry.generations, hnone])
  · exact Or.inl (by simp [Entry.generations, hempty])
  · exact Or.inr ⟨document, hcurrent, by simp [Entry.generations, hresult, hcurrent, passResult]⟩

theorem publishedGenerations_concat (uri : Uri) (trace : List Entry) (e : Entry) :
    publishedGenerations uri (trace ++ [e]) = publishedGenerations uri trace ++ e.generations uri := by
  simp [publishedGenerations]

/-- The published generations increase, up to the one that the document has now and up to the
counter. -/
structure Ordered (uri : Uri) (published : List Nat) (m : Machine) : Prop where
  increasing : published.Pairwise (· ≤ ·)
  le_counter : ∀ generation ∈ published, generation ≤ m.server.store.lastGeneration
  le_stored : ∀ generation ∈ published, ∀ document,
    m.server.store.get? uri = some document → generation ≤ document.generation

theorem Ordered.step {m m' : Machine} {move : Move} {events : List Event} {uri : Uri}
    {published : List Nat} (hstep : Step m move events m') (h : Ordered uri published m) :
    Ordered uri published m' := by
  refine ⟨h.increasing, fun generation hmem => ?_, fun generation hmem document hopen => ?_⟩
  · exact Nat.le_trans (h.le_counter generation hmem) hstep.lastGeneration_le
  · rcases hstep.document_cases uri with
      ⟨-, -, -, text, version, hput⟩ | ⟨-, -, -, hclosed⟩ | ⟨-, -, hsame⟩
    · -- a new generation is above the counter, whatever was closed in between
      obtain rfl := Option.some.inj (hput.symm.trans hopen)
      exact Nat.le_succ_of_le (h.le_counter generation hmem)
    · rw [hclosed] at hopen
      cases hopen
    · exact h.le_stored generation hmem document (hsame.symm.trans hopen)

theorem Ordered.publish {m : Machine} {uri : Uri} {published : List Nat}
    (h : Ordered uri published m) (hsound : Sound m) {document : Document}
    (hopen : m.server.store.get? uri = some document) :
    Ordered uri (published ++ [document.generation]) m := by
  constructor
  · rw [List.pairwise_append]
    refine ⟨h.increasing, List.pairwise_singleton .., fun earlier hearlier last hlast => ?_⟩
    obtain rfl := List.mem_singleton.mp hlast
    exact h.le_stored earlier hearlier document hopen
  · intro generation hmem
    rcases List.mem_append.mp hmem with hold | hnew
    · exact h.le_counter generation hold
    · obtain rfl := List.mem_singleton.mp hnew
      exact hsound.stored uri document hopen
  · intro generation hmem current hcurrent
    rcases List.mem_append.mp hmem with hold | hnew
    · exact h.le_stored generation hold current hcurrent
    · obtain rfl := List.mem_singleton.mp hnew
      obtain rfl := Option.some.inj (hopen.symm.trans hcurrent)
      exact Nat.le_refl _

theorem Run.ordered {start m : Machine} {trace : List Entry} (hrun : Run start trace m)
    (hstart : Sound start) (uri : Uri) : Ordered uri (publishedGenerations uri trace) m := by
  induction hrun with
  | refl => constructor <;> simp [publishedGenerations]
  | tail hrun hstep ih =>
      have hsound := hrun.sound hstart
      rw [publishedGenerations_concat]
      rcases hstep.generations_cases hsound uri with hnone | ⟨document, hopen, hone⟩
      · rw [hnone, List.append_nil]
        exact ih.step hstep
      · rw [hone]
        exact (ih.publish hsound hopen).step hstep

theorem Run.closed_of_not_puts {m m' : Machine} {trace : List Entry} (hrun : Run m trace m')
    {uri : Uri} (hclosed : m.server.store.get? uri = none)
    (hputs : ∀ e ∈ trace, ¬e.move.Puts uri) : m'.server.store.get? uri = none := by
  induction hrun with
  | refl => exact hclosed
  | tail hrun hstep ih =>
      have hbefore := ih fun e he => hputs e (List.mem_append_left _ he)
      rcases hstep.document_cases uri with ⟨hput, -⟩ | ⟨-, -, -, hnone⟩ | ⟨-, -, hsame⟩
      · exact absurd hput (hputs _ (List.mem_append_right _ (List.mem_singleton.mpr rfl)))
      · exact hnone
      · exact hsame.trans hbefore

theorem Step.current_of_publish {m m' : Machine} {move : Move} {events : List Event}
    (hstep : Step m move events m') (h : Sound m) {uri : Uri} {version : Int}
    {diagnostics : List Diagnostic} (hmem : .publish uri (some version) diagnostics ∈ events) :
    ∃ document settings, Ends m move uri document settings ∧
      m.server.store.get? uri = some document ∧ m'.server.store.get? uri = some document ∧
      version = document.version ∧ diagnostics = validate uri document.text
        settings.maxNumberOfProblems m.server.flags.relatedInformation := by
  have hmem := mem_publications hmem
  rcases hstep.publication_cases h uri with
    hnone | ⟨-, hempty⟩ | ⟨document, settings, hends, hcurrent, hresult⟩
  · rw [hnone] at hmem
    cases hmem
  · rw [hempty] at hmem
    simp at hmem
  · rw [hresult, List.mem_singleton] at hmem
    obtain ⟨hversion, rfl⟩ := Prod.mk.inj hmem
    refine ⟨document, settings, hends, hcurrent, ?_, Option.some.inj hversion, rfl⟩
    rcases hstep.document_cases uri with ⟨hput, -⟩ | ⟨hclose, -⟩ | ⟨-, -, hsame⟩
    · cases hends <;> exact hput.elim
    · cases hends <;> exact hclose.elim
    · exact hsame.trans hcurrent

/-- Whatever is published with a version is about the document as it is stored when it is sent: open,
under this version, and with the text that the pass has validated. So the generations of what
is published for a document never decrease, across closes and reopens too, and after a close
nothing is published with a version until the document is opened or changed again. -/
theorem publications_are_current {engine : Engine} {defaults : Settings} {discovers : Bool}
    {trace : List Entry} {m : Machine}
    (hrun : Run (Machine.start engine defaults discovers) trace m) :
    (∀ e ∈ trace, ∀ uri version diagnostics, .publish uri (some version) diagnostics ∈ e.events →
      ∃ document settings, Ends e.before e.move uri document settings ∧
        e.before.server.store.get? uri = some document ∧
        e.after.server.store.get? uri = some document ∧
        version = document.version ∧ diagnostics = validate uri document.text
          settings.maxNumberOfProblems e.before.server.flags.relatedInformation) ∧
    (∀ uri, (publishedGenerations uri trace).Pairwise (· ≤ ·)) ∧
    (∀ uri earlier closing between publishing later,
      trace = earlier ++ closing :: (between ++ publishing :: later) →
      closing.move.Closes uri →
      (∃ version diagnostics, .publish uri (some version) diagnostics ∈ publishing.events) →
      ∃ e ∈ between, e.move.Puts uri) := by
  have hstart := Sound.start engine defaults discovers
  refine ⟨?_, fun uri => (hrun.ordered hstart uri).increasing, ?_⟩
  · intro e he uri version diagnostics hmem
    obtain ⟨earlier, later, rfl⟩ := List.append_of_mem he
    obtain ⟨hearlier, hstep, -⟩ := hrun.entry
    exact hstep.current_of_publish (hearlier.sound hstart) hmem
  · rintro uri earlier closing between publishing later rfl hcloses ⟨version, diagnostics, hmem⟩
    refine Classical.byContradiction fun hnone => ?_
    obtain ⟨hearlier, hclosing, hafter⟩ := hrun.entry
    obtain ⟨hbetween, hpublishing, -⟩ := hafter.entry
    have hsound := hbetween.sound (hclosing.sound (hearlier.sound hstart))
    obtain ⟨document, -, -, hopen, -⟩ := hpublishing.current_of_publish hsound hmem
    have hclosed : closing.after.server.store.get? uri = none := by
      rcases hclosing.document_cases uri with ⟨-, hnot, -⟩ | ⟨-, -, -, hclosed⟩ | ⟨-, hnot, -⟩
      · exact absurd hcloses hnot
      · exact hclosed
      · exact absurd hcloses hnot
    have hstill := hbetween.closed_of_not_puts hclosed fun e he hput => hnone ⟨e, he, hput⟩
    rw [hopen] at hstill
    cases hstill

/-- A document is published, closed, and opened again under the same version: two publications, the
second under a new generation. -/
theorem publications_across_reopen :
    ∃ trace m, Run (Machine.start Engine.builtin {} false) trace m ∧
      publishedGenerations loginUri trace = [1, 2] ∧
      (publishedGenerations loginUri trace).Pairwise (· ≤ ·) ∧
      ∃ e ∈ trace, ∃ diagnostics, .publish loginUri (some 1) diagnostics ∈ e.events ∧
        ∃ document settings, Ends e.before e.move loginUri document settings ∧
          e.before.server.store.get? loginUri = some document ∧ document.version = 1 := by
  have hrun : Run (Machine.start Engine.builtin {} false) _ _ :=
    .head (@Step.call _ .empty (.didOpen loginUri "AAA" 1) _ _ _ _ rfl rfl (.refl _)) <|
    .head (.finish rfl rfl rfl rfl) <|
    .head (@Step.call _ .empty (.didClose loginUri) _ _ _ _ rfl rfl (.refl _)) <|
    .head (@Step.call _ .empty (.didOpen loginUri "clean text" 1) _ _ _ _ rfl rfl (.refl _)) <|
    .head (.finish rfl rfl rfl rfl) .refl
  obtain ⟨hcurrent, hordered, -⟩ := publications_are_current hrun
  obtain ⟨document, settings, hends, hopen, -, hversion, -⟩ :=
    hcurrent _ (List.mem_cons_of_mem _ (List.mem_cons_self ..)) loginUri 1 _ (List.mem_cons_self ..)
  exact ⟨_, _, hrun, rfl, hordered loginUri, _, List.mem_cons_of_mem _ (List.mem_cons_self ..), _,
    List.mem_cons_self .., document, settings, hends, hopen, hversion.symm⟩

end ScenarioServer
