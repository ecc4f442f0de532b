import Mathlib.Data.List.DropRight
import ScenarioServer.Proofs.Freshness
import ScenarioServer.Wire.Connection

/-!
# The settings cache

A client that can be asked is asked for the settings of a document when nothing is cached for it. In
a run without stalls the cache and the client's answers keep step: `Caches` says that what is cached
for a document is what the client's answers have given since the document was closed or the
configuration changed (`keptAnswers`), and that there is never more than one such answer.

`cache_follows_answers` adds what a pass over a document does with it, step by step: it uses what is
cached, or sends one request and uses the answer to it.
-/

namespace ScenarioServer

/-! ## Answers that are kept -/

/-- The move drops what is cached for a document, in a session with a client that can be asked. -/
def Move.drops (uri : Uri) : Move → Bool
  | .call _ (.didClose target) => target = uri
  | .call _ (.didChangeConfiguration _) => true
  | _ => false

/-- The values of an answer that is no failure. -/
def Answer.values? : Answer → Option (List Json.Value)
  | .failure => none
  | .values sent => some sent

/-- The client's answers for a document, other than failures, since the document was closed last and
the configuration changed last: each with the process-wide settings of its moment. -/
def keptAnswers (uri : Uri) (trace : List Entry) : List (Settings × List Json.Value) :=
  (answers uri (trace.rtakeWhile fun e => !e.move.drops uri)).filterMap fun given =>
    given.2.values?.map (given.1, ·)

/-- The settings that values give to a document: those of the first one, or the process-wide ones if
there is none or it cannot be used. -/
def Settings.ofValues (inForce : Settings) (sent : List Json.Value) : Settings :=
  (sent.head?.bind (Settings.ofSection? · inForce)).getD inForce

theorem Server.answeredSettings?_eq (inForce : Settings) (a : Answer) :
    Server.answeredSettings? inForce a = a.values?.map (Settings.ofValues inForce) := by
  cases a <;> rfl

theorem keptAnswers_concat_of_drops {uri : Uri} {trace : List Entry} {e : Entry}
    (h : e.move.drops uri = true) : keptAnswers uri (trace ++ [e]) = [] := by
  simp [keptAnswers, h, answers]

theorem keptAnswers_concat {uri : Uri} {trace : List Entry} {e : Entry}
    (h : e.move.drops uri = false) :
    keptAnswers uri (trace ++ [e]) = keptAnswers uri trace ++
      (answers uri [e]).filterMap fun given => given.2.values?.map (given.1, ·) := by
  simp only [keptAnswers, List.rtakeWhile_concat, h, Bool.not_false, if_true, answers_append,
    List.filterMap_append]

/-! ## What a call does to the cache -/

theorem Server.accept_cachedSettings_of_drops {server after : Server} {files : FileSystem} {c : Call}
    {events : List Event} {uris : List Uri} (h : server.accept files c = (after, events, uris))
    (haskable : server.flags.configuration = true) {uri : Uri}
    (hdrops : (Move.call files c).drops uri = true) : after.store.cachedSettings uri = none := by
  cases c with
  | didClose target =>
      obtain ⟨rfl, -, -⟩ := h
      obtain rfl : target = uri := of_decide_eq_true hdrops
      rw [Store.cachedSettings_close, if_pos rfl]
  | didChangeConfiguration value =>
      obtain ⟨rfl, -, -⟩ := h
      rw [changeConfiguration, if_pos haskable]
      rfl
  | _ => cases hdrops

theorem Server.accept_cachedSettings_of_not_drops {server after : Server} {files : FileSystem}
    {c : Call} {events : List Event} {uris : List Uri}
    (h : server.accept files c = (after, events, uris)) {uri : Uri}
    (hdrops : (Move.call files c).drops uri = false) :
    after.store.cachedSettings uri = server.store.cachedSettings uri := by
  cases c with
  | didChange target changes version =>
      simp only [accept] at h
      split at h <;> obtain ⟨rfl, -, -⟩ := h <;> rfl
  | didClose target =>
      obtain ⟨rfl, -, -⟩ := h
      have hother : uri ≠ target := Ne.symm (of_decide_eq_false hdrops)
      rw [Store.cachedSettings_close, if_neg hother]
  | didChangeConfiguration => cases hdrops
  | didChangeWatchedFiles changed =>
      simp only [accept] at h
      split at h
      · obtain ⟨rfl, -, -⟩ := h
        rfl
      · next hfiles =>
        obtain ⟨rfl, -, -⟩ := h
        rw [changeFiles?_store hfiles]
  | openSession opening =>
      obtain ⟨rfl, -, -⟩ := h
      rw [(openSession_frame ..).1]
  | didOpen | initialized | shutdown | completion | resolve | hover =>
      obtain ⟨rfl, -, -⟩ := h
      rfl

/-! ## The invariant -/

/-- What is cached for each document is what its one kept answer gives, if there is one. -/
structure Caches (trace : List Entry) (m : Machine) : Prop where
  steady : Steady m
  askable : m.server.flags.configuration = true
  cached : ∀ uri, (m.server.store.cachedSettings uri).toList =
    (keptAnswers uri trace).map fun (inForce, sent) => Settings.ofValues inForce sent

theorem Caches.call {trace : List Entry} {m m' : Machine} {move : Move} {events : List Event}
    (h : Caches trace m) (hstep : Step m move events m') (hcall : move.IsCall)
    (hopens : ¬move.OpensSession) (hwaiting : m.waiting = []) :
    Caches (trace ++ [⟨m, move, events, m'⟩]) m' := by
  obtain ⟨-, -, hflags, -⟩ := hstep.settings_of_call hcall hopens
  refine ⟨hstep.steady h.steady fun _ => hwaiting, by rw [hflags, h.askable], fun uri => ?_⟩
  cases hstep with
  | @call files c server events uris queue hidle haccept horder =>
      by_cases hdrops : (Move.call files c).drops uri = true
      · rw [keptAnswers_concat_of_drops hdrops]
        rw [Server.accept_cachedSettings_of_drops haccept h.askable hdrops]
        rfl
      · rw [Bool.not_eq_true] at hdrops
        rw [keptAnswers_concat hdrops, answers_eq_nil (by simp) uri, List.filterMap_nil,
          List.append_nil]
        rw [Server.accept_cachedSettings_of_not_drops haccept hdrops]
        exact h.cached uri
  | skip | ask | finish | answer => exact hcall.elim

theorem Caches.work {trace : List Entry} {m m' : Machine} {move : Move} {events : List Event}
    (h : Caches trace m) (hsound : Sound m) (hstep : Step m move events m')
    (hcall : ¬move.IsCall) : Caches (trace ++ [⟨m, move, events, m'⟩]) m' := by
  obtain ⟨-, hflags, -⟩ := hstep.frame hcall
  have hsteady := hstep.steady h.steady fun his => absurd his hcall
  refine ⟨hsteady, by rw [hflags, h.askable], fun uri => ?_⟩
  have hkeeps : move.drops uri = false := by
    cases move with
    | call => exact absurd trivial hcall
    | answer | work => rfl
  rw [keptAnswers_concat hkeeps, List.map_append]
  have hstep' := hstep
  cases hstep with
  | call => exact absurd trivial hcall
  | skip | ask =>
      rw [answers_eq_nil (by simp) uri]
      exact (h.cached uri).trans (List.append_nil _).symm
  | finish _ _ _ hpublish =>
      rw [answers_eq_nil (by simp) uri, (Server.publish_frame hpublish).2.1]
      exact (h.cached uri).trans (List.append_nil _).symm
  | @answer ticket pass a received server settings events hidle hwaits hreceive hpublish =>
      obtain ⟨hwaiting, hopen, hunknown, hfallback⟩ := h.steady.of_answer hwaits
      rw [answers_of_answer rfl hwaiting uri]
      by_cases huri : pass.uri = uri
      · -- nothing was cached, so no answer was kept; the one of this step is the first
        subst huri
        have hnone := Server.cachedSettings_of_unknown hunknown
        have hbefore := h.cached pass.uri
        rw [hnone, Option.toList_none] at hbefore
        rw [← hbefore, hstep'.cachedSettings_of_answer hsound hwaits, hnone, hfallback,
          if_pos ((Store.isOpen_iff ..).mpr ⟨_, hopen⟩), Option.or_none, if_pos rfl,
          Server.answeredSettings?_eq]
        cases a <;> rfl
      · rw [if_neg huri, (Server.publish_frame hpublish).2.1,
          Server.receive_cachedSettings_of_ne hreceive (Ne.symm huri)]
        exact (h.cached uri).trans (List.append_nil _).symm

theorem Run.caches {start m : Machine} {earlier trace : List Entry} (hrun : Run start trace m)
    (hsound : Sound start) (hstart : Caches earlier start) (hunstalled : Unstalled trace)
    (hopens : ∀ e ∈ trace, ¬e.move.OpensSession) : Caches (earlier ++ trace) m := by
  induction hrun with
  | refl => rwa [List.append_nil]
  | @tail trace m m' move events hrun hstep ih =>
      have hbefore := ih (fun e he => hunstalled e (List.mem_append_left _ he))
        fun e he => hopens e (List.mem_append_left _ he)
      have hlast := List.mem_append_right trace (List.mem_singleton_self ⟨m, move, events, m'⟩)
      rw [← List.append_assoc]
      by_cases hcall : move.IsCall
      · exact hbefore.call hstep hcall (hopens _ hlast) (hunstalled _ hlast hcall)
      · exact hbefore.work (hrun.sound hsound) hstep hcall

theorem Caches.of_openedOnce {engine : Engine} {defaults : Settings} {discovers : Bool}
    {trace : List Entry} {m : Machine} {opening : Opening}
    (hrun : Run (Machine.start engine defaults discovers) trace m)
    (hopened : OpenedOnce trace opening) (hflag : opening.flags.configuration = true)
    (hunstalled : Unstalled trace) : Caches trace m := by
  obtain ⟨first, rest, files, rfl, hmove, hrest⟩ := hopened
  obtain ⟨hstart, hstep, hlater⟩ := hrun.first
  have hsound := hstep.sound (hstart ▸ Sound.start engine defaults discovers)
  have hquiet := answers_eq_nil (e := first) (by simp [hmove])
  rw [hstart, hmove] at hstep
  obtain ⟨hflags, -, hwaiting, hempty⟩ := hstep.opens
  have hfirst : Caches [first] first.after := by
    refine ⟨.running hwaiting, by rw [hflags, hflag], fun uri => ?_⟩
    have hnone : first.after.server.store.cachedSettings uri = none := by
      rw [Option.eq_none_iff_forall_ne_some]
      intro settings hcached
      obtain ⟨document, hopen⟩ := (Store.isOpen_iff ..).mp (hsound.cached uri settings hcached)
      rw [hempty] at hopen
      cases hopen
    rw [hnone, ← List.nil_append [first], keptAnswers_concat (by rw [hmove]; rfl), hquiet]
    rfl
  exact hlater.caches hsound hfirst (fun e he => hunstalled e (List.mem_cons_of_mem _ he)) hrest

/-! ## One pass, step by step -/

/-- The running call comes to an open document: it ends the pass over it at once, or asks. -/
theorem Step.pass_cases {m m' : Machine} {move : Move} {events : List Event}
    (hstep : Step m move events m') {uri : Uri} {rest : List Uri} {document : Document}
    (hqueue : m.queue = uri :: rest) (hopen : m.server.store.get? uri = some document) :
    (∃ settings, m.server.settings? uri = some settings ∧ move = .work ∧
      m.server.publish uri document settings = (m'.server, events) ∧
      m'.queue = rest ∧ m'.waiting = m.waiting) ∨
    (m.server.settings? uri = none ∧ move = .work ∧ events = [.requestConfiguration uri] ∧
      m' = m.stop (some ⟨uri, document, m.server.globalSettings, rest⟩)) := by
  cases hstep with
  | call hidle | answer hidle =>
      rw [hidle] at hqueue
      cases hqueue
  | skip hqueue' hclosed =>
      obtain ⟨rfl, rfl⟩ := List.cons.inj (hqueue.symm.trans hqueue')
      rw [hopen] at hclosed
      cases hclosed
  | ask hqueue' hopen' hunknown =>
      obtain ⟨rfl, rfl⟩ := List.cons.inj (hqueue.symm.trans hqueue')
      obtain rfl := Option.some.inj (hopen.symm.trans hopen')
      exact Or.inr ⟨hunknown, rfl, rfl, rfl⟩
  | finish hqueue' hopen' hknown hpublish =>
      obtain ⟨rfl, rfl⟩ := List.cons.inj (hqueue.symm.trans hqueue')
      obtain rfl := Option.some.inj (hopen.symm.trans hopen')
      exact Or.inl ⟨_, hknown, rfl, hpublish, rfl, rfl⟩

/-- The only call waits: the next step takes in the answer and goes on with its queue. -/
theorem Step.answer_of_waiting {m m' : Machine} {move : Move} {events : List Event}
    (hstep : Step m move events m') {ticket : Nat} {pass : Pass} (hidle : m.queue = [])
    (hwaiting : m.waiting = [(ticket, pass)]) (hcall : ¬move.IsCall) :
    ∃ a, move = .answer ticket a ∧ m'.queue = pass.remaining ∧ m'.waiting = [] := by
  cases hstep with
  | call => exact absurd trivial hcall
  | skip hqueue | ask hqueue | finish hqueue =>
      rw [hidle] at hqueue
      cases hqueue
  | @answer answered other a received server settings events _ hwaits _ _ =>
      rw [hwaiting] at hwaits
      obtain ⟨rfl, rfl⟩ := Prod.mk.inj (List.mem_singleton.mp hwaits)
      exact ⟨a, rfl, rfl, by simp [hwaiting]⟩

theorem Server.settings?_of_askable {server : Server} (h : server.flags.configuration = true)
    (uri : Uri) : server.settings? uri = server.store.cachedSettings uri := by
  rw [settings?, if_pos h]

/-- What is sent at the end of a pass that read `document`. -/
def passEvents (uri : Uri) (document : Document) (settings : Settings) (related : Bool) :
    List Event :=
  [.publish uri (some document.version)
    (validate uri document.text settings.maxNumberOfProblems related)]

/-- A pass with cached settings uses them and is over. -/
theorem Step.pass_of_cached {m m' : Machine} {move : Move} {events : List Event}
    (hstep : Step m move events m') (hsound : Sound m)
    (haskable : m.server.flags.configuration = true) {uri : Uri} {rest : List Uri}
    {document : Document} {settings : Settings} (hqueue : m.queue = uri :: rest)
    (hopen : m.server.store.get? uri = some document)
    (hcached : m.server.store.cachedSettings uri = some settings) :
    events = passEvents uri document settings m.server.flags.relatedInformation ∧
      m'.queue = rest := by
  rw [← Server.settings?_of_askable haskable] at hcached
  rcases hstep.pass_cases hqueue hopen with ⟨_, -, rfl, -, hrest, -⟩ | ⟨hunknown, -⟩
  · exact ⟨hstep.events_of_current hsound (.work hqueue hopen hcached) hopen, hrest⟩
  · rw [hcached] at hunknown
    cases hunknown

/-- The step takes in the client's answer and ends the pass over a document with the settings that it
gives over `inForce`; these are cached. After a failure the pass uses `inForce`, and nothing is
cached. -/
def Entry.EndsAsked (e : Entry) (uri : Uri) (document : Document) (inForce : Settings)
    (related : Bool) : Prop :=
  ∃ ticket a, e.move = .answer ticket a ∧
    (a = .failure → e.events = passEvents uri document inForce related ∧
      e.after.server.store.cachedSettings uri = none) ∧
    ∀ sent, a = .values sent →
      e.events = passEvents uri document (Settings.ofValues inForce sent) related ∧
      e.after.server.store.cachedSettings uri = some (Settings.ofValues inForce sent)

/-- A pass without cached settings asks once, and ends with the answer. -/
theorem Run.pass_of_uncached {m m' : Machine} {e answering : Entry} {later : List Entry}
    (hrun : Run m (e :: answering :: later) m') (hsound : Sound m) (hsteady : Steady m)
    (haskable : m.server.flags.configuration = true)
    (hunstalled : Unstalled [answering]) {uri : Uri} {rest : List Uri} {document : Document}
    (hqueue : m.queue = uri :: rest) (hopen : m.server.store.get? uri = some document)
    (hcached : m.server.store.cachedSettings uri = none) :
    answering.EndsAsked uri document m.server.globalSettings m.server.flags.relatedInformation ∧
      answering.after.queue = rest := by
  obtain ⟨hfirst, hstep, hlater⟩ := hrun.first
  obtain ⟨hnext, hanswering, -⟩ := hlater.first
  rw [hfirst] at hstep
  have hasked := hstep.sound hsound
  rw [← hnext] at hasked
  rw [← Server.settings?_of_askable haskable] at hcached
  rcases hstep.pass_cases hqueue hopen with ⟨_, hknown, -⟩ | ⟨-, -, -, hstop⟩
  · rw [hcached] at hknown
    cases hknown
  · have hbefore := hnext.trans hstop
    have hwaiting : answering.before.waiting =
        [(m.nextTicket, ⟨uri, document, m.server.globalSettings, rest⟩)] := by
      rw [hbefore, Machine.waiting_stop (hsteady.waiting_eq_nil hqueue)]
    have hcall : ¬answering.move.IsCall := by
      intro hcall
      have hnone := hunstalled answering (List.mem_singleton_self _) hcall
      rw [hwaiting] at hnone
      cases hnone
    have hserver : answering.before.server = m.server := by rw [hbefore]; rfl
    obtain ⟨a, hmove, hrest, -⟩ := hanswering.answer_of_waiting (by rw [hbefore]; rfl) hwaiting hcall
    have hwaits := hwaiting ▸ List.mem_singleton_self
      (m.nextTicket, Pass.mk uri document m.server.globalSettings rest)
    rw [hmove] at hanswering
    have hevents := hanswering.events_of_current hasked (.answer hwaits) (hserver ▸ hopen)
    have hkept := hanswering.cachedSettings_of_answer hasked hwaits
    have hisOpen : m.server.store.isOpen uri = true := (Store.isOpen_iff ..).mpr ⟨_, hopen⟩
    rw [Server.settings?_of_askable haskable] at hcached
    rw [Server.receive_settings, hserver, Server.answeredSettings?_eq] at hevents
    rw [hserver, if_pos hisOpen, hcached, Option.or_none, Server.answeredSettings?_eq] at hkept
    refine ⟨⟨_, a, hmove, ?_, ?_⟩, hrest⟩
    · rintro rfl
      exact ⟨hevents, hkept⟩
    · rintro sent rfl
      exact ⟨hevents, hkept⟩

/-! ## The law -/

theorem Caches.cachedSettings_iff {trace : List Entry} {m : Machine} (h : Caches trace m)
    (hsound : Sound m) (uri : Uri) (settings : Settings) :
    m.server.store.cachedSettings uri = some settings ↔
      m.server.store.isOpen uri = true ∧ ∃ inForce sent,
        keptAnswers uri trace = [(inForce, sent)] ∧ settings = Settings.ofValues inForce sent := by
  have hcache := h.cached uri
  constructor
  · intro hcached
    rw [hcached, Option.toList_some] at hcache
    obtain ⟨⟨inForce, sent⟩, hone, hgives⟩ := List.map_eq_singleton_iff.mp hcache.symm
    exact ⟨hsound.cached uri settings hcached, inForce, sent, hone, hgives.symm⟩
  · rintro ⟨-, inForce, sent, hone, rfl⟩
    rw [hone] at hcache
    exact Option.toList_eq_singleton_iff.mp hcache

theorem Caches.length_keptAnswers {trace : List Entry} {m : Machine} (h : Caches trace m)
    (uri : Uri) : (keptAnswers uri trace).length ≤ 1 := by
  have hlength := congrArg List.length (h.cached uri)
  rw [List.length_map] at hlength
  rw [← hlength]
  cases m.server.store.cachedSettings uri <;> simp

/-- With a client that can be asked and answers at once, settings are cached for a document exactly if
it is open and the client has answered for it, other than by a failure, since the document was closed
last and the configuration changed last. There is then one such answer, and the settings are those
that its first value gives over the process-wide settings of that moment. A pass that finds settings
cached uses them. A pass that finds none sends one request, for this document and this program's
section, and ends with the answer. -/
theorem cache_follows_answers {engine : Engine} {defaults : Settings} {discovers : Bool}
    {trace : List Entry} {m : Machine} {opening : Opening}
    (hrun : Run (Machine.start engine defaults discovers) trace m) (hunstalled : Unstalled trace)
    (hopened : OpenedOnce trace opening) (hflag : opening.flags.configuration = true) :
    (∀ uri settings, m.server.store.cachedSettings uri = some settings ↔
      m.server.store.isOpen uri = true ∧ ∃ inForce sent,
        keptAnswers uri trace = [(inForce, sent)] ∧ settings = Settings.ofValues inForce sent) ∧
    (∀ uri, (keptAnswers uri trace).length ≤ 1) ∧
    (∀ earlier e later uri rest document, trace = earlier ++ e :: later →
      e.before.queue = uri :: rest → e.before.server.store.get? uri = some document →
      (∀ settings, e.before.server.store.cachedSettings uri = some settings →
        e.events = passEvents uri document settings e.before.server.flags.relatedInformation ∧
        e.after.queue = rest) ∧
      (e.before.server.store.cachedSettings uri = none →
        e.events = [.requestConfiguration uri] ∧
        ∀ answering last, later = answering :: last →
          answering.EndsAsked uri document e.before.server.globalSettings
            e.before.server.flags.relatedInformation ∧
          answering.after.queue = rest)) ∧
    (∀ (connection : Wire.Connection) pass uri,
      (connection.send pass [.requestConfiguration uri]).2 =
        [Wire.request connection.nextId "workspace/configuration" (.object [("items", .array
          [.object [("scopeUri", .string uri.text), ("section", .string "tacl")]])])]) := by
  have hsound := Sound.start engine defaults discovers
  have hend := Caches.of_openedOnce hrun hopened hflag hunstalled
  refine ⟨hend.cachedSettings_iff (hrun.sound hsound), hend.length_keptAnswers, ?_,
    fun _ _ _ => rfl⟩
  rintro earlier e later uri rest document rfl hqueue hopen
  obtain ⟨hearlier, hstep, hlater⟩ := hrun.entry
  have hbefore := hearlier.sound hsound
  have hfirst : OpenedOnce earlier opening := by
    rcases hopened.cases with ⟨rfl, -⟩ | ⟨hearlier, -⟩
    · rw [hearlier.eq_of_nil] at hqueue
      cases hqueue
    · exact hearlier
  have h := Caches.of_openedOnce hearlier hfirst hflag fun e he => hunstalled e (by simp [he])
  refine ⟨fun settings hcached => hstep.pass_of_cached hbefore h.askable hqueue hopen hcached,
    fun hcached => ⟨?_, ?_⟩⟩
  · rw [← Server.settings?_of_askable h.askable] at hcached
    rcases hstep.pass_cases hqueue hopen with ⟨_, hknown, -⟩ | ⟨-, -, hevents, -⟩
    · rw [hcached] at hknown
      cases hknown
    · exact hevents
  · rintro answering last rfl
    exact (Run.head hstep hlater).pass_of_uncached hbefore h.steady h.askable
      (fun a ha => hunstalled a (by simp_all)) hqueue hopen hcached

/-- A document is opened and changed; the client's first answer is a failure, the second a cap. -/
theorem asking_run : ∃ earlier asking answering m,
    Run (Machine.start Engine.builtin {} false) (earlier ++ [asking, answering]) m ∧
    Unstalled (earlier ++ [asking, answering]) ∧
    OpenedOnce (earlier ++ [asking, answering]) askableOpening ∧
    asking.before.queue = [loginUri] ∧
    asking.before.server.store.get? loginUri = some ⟨"BB CC", 2, 2⟩ ∧
    asking.before.server.store.cachedSettings loginUri = none ∧
    asking.before.server.globalSettings = ⟨1000⟩ ∧
    asking.before.server.flags.relatedInformation = false ∧
    answers loginUri earlier = [({}, .failure)] ∧
    keptAnswers loginUri (earlier ++ [asking, answering]) =
      [({}, [.object [(Settings.capName, .ofNat 1)]])] ∧
    m.server.store.isOpen loginUri = true := by
  have hearlier : Run (Machine.start Engine.builtin {} false) _ _ :=
    .head (@Step.call _ .empty (.openSession askableOpening) _ _ _ _ rfl rfl (.refl _)) <|
    .head (@Step.call _ .empty (.didOpen loginUri "AA" 1) _ _ _ _ rfl rfl (.refl _)) <|
    .head (.ask rfl rfl rfl) <|
    .head (@Step.answer _ 0 _ .failure _ _ _ _ rfl (List.mem_cons_self ..) rfl rfl) <|
    .head (@Step.call _ .empty (.didChange loginUri ["BB CC"] 2) _ _ _ _ rfl rfl (.refl _)) .refl
  have hrun := hearlier.trans <|
    .head (.ask rfl rfl rfl) <|
    .head (@Step.answer _ 1 _ (capAnswer 1) _ _ _ _ rfl (List.mem_cons_self ..) rfl rfl) .refl
  refine ⟨_, _, _, _, hrun, ?_, ⟨_, _, .empty, rfl, rfl, ?_⟩, rfl, rfl, rfl, rfl, rfl, rfl, rfl, rfl⟩
  · simp [Unstalled, Move.IsCall, Machine.start, Machine.stop]
  · simp [Move.OpensSession]

/-- The law at that run: the failure was not kept, so the second pass asks again, and the cap of its
answer is cached. -/
theorem cache_follows_second_answer : ∃ earlier asking answering m,
    Run (Machine.start Engine.builtin {} false) (earlier ++ [asking, answering]) m ∧
    Unstalled (earlier ++ [asking, answering]) ∧
    OpenedOnce (earlier ++ [asking, answering]) askableOpening ∧
    answers loginUri earlier = [({}, .failure)] ∧
    asking.events = [.requestConfiguration loginUri] ∧
    answering.EndsAsked loginUri ⟨"BB CC", 2, 2⟩ ⟨1000⟩ false ∧
    m.server.store.cachedSettings loginUri = some ⟨1⟩ := by
  obtain ⟨earlier, asking, answering, m, hrun, hunstalled, hopened, hqueue, hopen, hnone, hglobal,
    hrelated, hfailed, hkept, hstill⟩ := asking_run
  obtain ⟨hcache, -, hpass, -⟩ := cache_follows_answers hrun hunstalled hopened rfl
  obtain ⟨-, huncached⟩ := hpass earlier asking [answering] loginUri [] _ rfl hqueue hopen
  obtain ⟨hasks, hends⟩ := huncached hnone
  obtain ⟨hanswered, -⟩ := hends answering [] rfl
  rw [hglobal, hrelated] at hanswered
  exact ⟨earlier, asking, answering, m, hrun, hunstalled, hopened, hfailed, hasks, hanswered,
    (hcache loginUri ⟨1⟩).mpr ⟨hstill, _, _, hkept, rfl⟩⟩

end ScenarioServer
