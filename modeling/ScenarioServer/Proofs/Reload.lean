import ScenarioServer.Proofs.Rounds

/-!
# A new configuration file

A call that puts a new configuration file in force validates every open document again. For a client
that can be asked, `Reloads.validated` says with which settings: a document with cached settings keeps
them, and any other gets those that the client answers now over the new ones.

What is cached need not be the client's own. An answer without a cap (`Answer.LacksCap`) is cached as
the process-wide settings of its moment, and a reload clears no cache. `reload_publishes` gives the law
of the whole call; `reload_misses_cached` is a run in which the new cap does not reach a document.
-/

namespace ScenarioServer

/-- The client has answered, but without a cap: there is no value, or it is null or of the wrong
shape, or the cap is absent in it or null. -/
def Answer.LacksCap : Answer → Prop
  | .failure => False
  | .values sent => (sent.head?.bind Settings.sectionCap?).join = none

theorem Server.answeredSettings?_of_lacksCap {a : Answer} (h : a.LacksCap) (fallback : Settings) :
    answeredSettings? fallback a = some fallback := by
  cases a with
  | failure => exact h.elim
  | values sent =>
      simp only [Answer.LacksCap] at h
      simp only [answeredSettings?]
      cases hhead : sent.head? with
      | none => rfl
      | some value =>
          rw [hhead, Option.bind_some] at h
          cases hcap : Settings.sectionCap? value with
          | none => simp [Settings.ofSection?, hcap]
          | some cap =>
              rw [hcap, Option.join_some] at h
              simp [Settings.ofSection?, hcap, h]

/-- In the step `reload` a change of files puts other settings in force, for a client that can be
asked; the steps `during` are the rest of this call, which ends at `m`. -/
structure Reloads (trace earlier : List Entry) (reload : Entry) (during : List Entry) (m : Machine)
    (settings : Settings) : Prop where
  place : trace = earlier ++ reload :: during
  reloads : ∃ files changed reloaded, reload.move = .call files (.didChangeWatchedFiles changed) ∧
    reload.before.server.changeFiles? files changed = some reloaded ∧
    reloaded.globalSettings = settings
  askable : reload.before.server.flags.configuration = true
  sameCall : ∀ e ∈ during, ¬e.move.IsCall
  idle : m.queue = []
  ended : m.waiting = []

/-- The first step of a reload queues every open document and sends nothing. -/
theorem Step.reload {m m' : Machine} {files : FileSystem} {changed : List Uri} {events : List Event}
    (hstep : Step m (.call files (.didChangeWatchedFiles changed)) events m') {reloaded : Server}
    (hreload : m.server.changeFiles? files changed = some reloaded) :
    m'.server = reloaded ∧ m'.waiting = m.waiting ∧ events = [] ∧ m'.queue.Nodup ∧
      ∀ uri document, m.server.store.get? uri = some document → uri ∈ m'.queue := by
  cases hstep with
  | call hidle haccept horder =>
      simp only [Server.accept, hreload] at haccept
      obtain ⟨rfl, rfl, rfl⟩ := haccept
      refine ⟨rfl, rfl, rfl, horder.nodup_iff.mpr (Store.nodup_uris _), fun uri document hopen => ?_⟩
      rw [horder.mem_iff, Store.mem_uris_iff, Server.changeFiles?_store hreload]
      exact ⟨document, hopen⟩

/-- Which settings the call uses for an open document: with nothing cached, those that the client
answers now over the new ones; otherwise those that its latest answer gave when it came. -/
theorem Reloads.validated {engine : Engine} {defaults : Settings} {discovers : Bool}
    {trace earlier during : List Entry} {reload : Entry} {m : Machine} {settings : Settings}
    (h : Reloads trace earlier reload during m settings)
    (hrun : Run (Machine.start engine defaults discovers) trace m) (hunstalled : Unstalled trace)
    {uri : Uri} {document : Document}
    (hopen : reload.before.server.store.get? uri = some document) :
    ∃ inForce a, (answers uri trace).getLast? = some (inForce, a) ∧
      publications uri (sentEvents (reload :: during)) = [passResult uri document
        ((Server.answeredSettings? inForce a).getD inForce)
        reload.before.server.flags.relatedInformation] ∧
      (reload.before.server.store.cachedSettings uri = none → inForce = settings) ∧
      (reload.before.server.store.cachedSettings uri ≠ none →
        (answers uri earlier).getLast? = some (inForce, a)) := by
  obtain ⟨rfl, ⟨files, changed, reloaded, hmove, hreload, rfl⟩, haskable, hcalls, hidle, hended⟩ := h
  obtain ⟨hearlier, hstep, hduring⟩ := hrun.entry
  have hbefore := hearlier.sound (Sound.start engine defaults discovers)
  have hwaiting := hunstalled reload (by simp) (by simp [hmove, Move.IsCall])
  have hquiet : answers uri [reload] = [] := answers_eq_nil (by simp [hmove]) uri
  have hafter := hstep.sound hbefore
  rw [hmove] at hstep
  obtain ⟨hserver, hstill, hevents, hnodup, hqueued⟩ := hstep.reload hreload
  obtain ⟨new, hnew⟩ := Server.changeFiles?_eq hreload
  have hstored : reload.after.server.store = reload.before.server.store := by rw [hserver, hnew]
  have hflags : reload.after.server.flags = reload.before.server.flags := by rw [hserver, hnew]
  have hknown : reload.after.server.settings? uri =
      reload.before.server.store.cachedSettings uri := by
    rw [Server.settings?, hflags, if_pos haskable, hstored]
  obtain ⟨used, hresolved, hpublications⟩ := hduring.validated_of_round hafter (hstill.trans hwaiting)
    hnodup hcalls hidle hended (hqueued uri document hopen) (hstored ▸ hopen)
  have hsent : publications uri (sentEvents (reload :: during)) =
      publications uri (sentEvents during) := by
    simp [sentEvents, hevents]
  have hanswers : answers uri (earlier ++ reload :: during) =
      answers uri earlier ++ answers uri during := by
    rw [answers_append, ← List.singleton_append, answers_append, hquiet, List.nil_append]
  rw [hsent, hpublications, hanswers, hflags]
  cases hresolved with
  | known hcached hnone =>
      rw [hknown] at hcached
      have hearlierCalls : Unstalled earlier := fun e he => hunstalled e (by simp [he])
      obtain ⟨inForce, a, hlatest, hgave⟩ := hearlier.answered_of_cached (.running rfl) (fun _ => rfl)
        hearlierCalls hcached
      rw [hnone, List.append_nil]
      refine ⟨inForce, a, hlatest, by rw [hgave, Option.getD_some], fun hcold => ?_, fun _ => hlatest⟩
      rw [hcached] at hcold
      cases hcold
  | @answered a hunknown hone hused =>
      rw [hknown] at hunknown
      rw [hone, hused, hserver]
      exact ⟨reloaded.globalSettings, a, List.getLast?_concat, rfl, fun _ => rfl,
        fun hcached => absurd hunknown hcached⟩

/-- A call that reloads the configuration file publishes every open document exactly once, with the
settings that the client's latest answer gave over the process-wide ones of that moment. So if that
answer had no cap, the document gets the process-wide cap that was in force when the answer came. This
is the new one if nothing was cached for the document when the file was reloaded, and otherwise the
one from before: the answer is then older than the call. -/
theorem reload_publishes {engine : Engine} {defaults : Settings} {discovers : Bool}
    {trace earlier during : List Entry} {reload : Entry} {m : Machine} {settings : Settings}
    (hrun : Run (Machine.start engine defaults discovers) trace m) (hunstalled : Unstalled trace)
    (h : Reloads trace earlier reload during m settings) {uri : Uri} {document : Document}
    (hopen : reload.before.server.store.get? uri = some document) :
    ∃ inForce a, (answers uri trace).getLast? = some (inForce, a) ∧
      publications uri (sentEvents (reload :: during)) = [passResult uri document
        ((Server.answeredSettings? inForce a).getD inForce)
        reload.before.server.flags.relatedInformation] ∧
      (a.LacksCap → publications uri (sentEvents (reload :: during)) =
        [passResult uri document inForce reload.before.server.flags.relatedInformation]) ∧
      (reload.before.server.store.cachedSettings uri = none → inForce = settings) ∧
      (reload.before.server.store.cachedSettings uri ≠ none →
        (answers uri earlier).getLast? = some (inForce, a)) := by
  obtain ⟨inForce, a, hlatest, hpublished, hnew, hold⟩ := h.validated hrun hunstalled hopen
  refine ⟨inForce, a, hlatest, hpublished, fun hlacks => ?_, hnew, hold⟩
  rw [hpublished, Server.answeredSettings?_of_lacksCap hlacks, Option.getD_some]

/-! ## A reload that does not arrive

A document is opened and the client has no settings for it. Then a configuration file appears with a
cap of 1. -/

def workspaceOpening : Opening :=
  { flags := { configuration := true }
    rootUri := some { scheme := "file", authority := some {}, path := "/w" } }

def configUri : Uri := { scheme := "file", authority := some {}, path := "/w/tacl.toml" }

def configFiles : FileSystem where
  read path :=
    if path = "/w/tacl.toml" then .ok "[diagnostics]\nmax_number_of_problems = 1"
    else .error .notFound
  isFile path := path = "/w/tacl.toml"
  resolve path := .ok path

theorem accept_workspace : (Machine.start Engine.builtin {} true).server.accept .empty
    (.openSession workspaceOpening) = ({ Server.start Engine.builtin {} true with
      flags := { configuration := true }, root := some "/w" }, [], []) := by
  have hroot : workspaceOpening.root? = some "/w" := by decide +kernel
  simp only [Machine.start, Server.accept, Server.openSession, hroot, Server.reload?, Config.discover,
    FileSystem.empty]
  rfl

theorem changeFiles?_configFiles {server : Server} (hdiscovers : server.discovers = true)
    (hroot : server.root = some "/w") :
    server.changeFiles? configFiles [configUri] =
      some { server with defaults := ⟨1⟩, globalSettings := ⟨1⟩ } := by
  have hconcerns : Server.concernsConfig "/w" [configUri] = true := by decide +kernel
  have hpath : Config.pathIn "/w" = "/w/tacl.toml" := by decide +kernel
  have hparent : Path.parent? "/w/tacl.toml" = some "/w" := by decide +kernel
  have hparse : Config.parse? "[diagnostics]\nmax_number_of_problems = 1" =
      some { maxNumberOfProblems := 1 } := by decide +kernel
  have hdiscover : Config.discover configFiles "/w" = .ok (some { maxNumberOfProblems := 1 }) := by
    simp [Config.discover, Config.load, configFiles, hpath, hparse, Config.relativeTo, hparent, Except.map]
  simp [Server.changeFiles?, hroot, hdiscovers, hconcerns, Server.reload?, hdiscover, Config.settings]

theorem accept_configFiles {server : Server} (hdiscovers : server.discovers = true)
    (hroot : server.root = some "/w") :
    server.accept configFiles (.didChangeWatchedFiles [configUri]) =
      ({ server with defaults := ⟨1⟩, globalSettings := ⟨1⟩ }, [], server.store.uris) := by
  simp only [Server.accept, changeFiles?_configFiles hdiscovers hroot]

/-- The client answers a request for the document with null; then the configuration file is reloaded
while these settings are cached. -/
theorem reload_run : ∃ trace earlier during reload m,
    Run (Machine.start Engine.builtin {} true) trace m ∧ Unstalled trace ∧
    Reloads trace earlier reload during m ⟨1⟩ ∧
    reload.before.server.store.get? loginUri = some ⟨"AA BB", 1, 1⟩ ∧
    reload.before.server.store.cachedSettings loginUri = some {} ∧
    reload.before.server.flags.relatedInformation = false ∧
    answers loginUri earlier = [({}, .values [.null])] ∧
    answers loginUri trace = [({}, .values [.null])] := by
  have hearlier : Run (Machine.start Engine.builtin {} true) _ _ :=
    .head (.call rfl accept_workspace (.refl _)) <|
    .head (@Step.call _ .empty (.didOpen loginUri "AA BB" 1) _ _ _ _ rfl rfl (.refl _)) <|
    .head (.ask rfl rfl rfl) <|
    .head (@Step.answer _ 0 _ (.values [.null]) _ _ _ _ rfl (List.mem_cons_self ..) rfl rfl) .refl
  have hrun := hearlier.trans <|
    .head (.call rfl (accept_configFiles rfl rfl) (.refl _)) <|
    .head (.finish rfl rfl rfl rfl) .refl
  refine ⟨_, _, _, _, _, hrun, ?_, ⟨rfl, ?_, rfl, ?_, rfl, rfl⟩, rfl, rfl, rfl, rfl, rfl⟩
  · simp [Unstalled, Move.IsCall, Machine.start, Machine.stop]
  · exact ⟨_, _, _, rfl, changeFiles?_configFiles rfl rfl, rfl⟩
  · simp [Move.IsCall]

/-- The law at that run: the document is published with the cap of 1000 that was in force before. -/
theorem reload_publishes_cached : ∃ trace earlier during reload m,
    Run (Machine.start Engine.builtin {} true) trace m ∧ Unstalled trace ∧
    Reloads trace earlier reload during m ⟨1⟩ ∧
    reload.before.server.store.get? loginUri = some ⟨"AA BB", 1, 1⟩ ∧
    publications loginUri (sentEvents (reload :: during)) =
      [(some 1, validate loginUri "AA BB" 1000 false)] := by
  obtain ⟨trace, earlier, during, reload, m, hrun, hunstalled, hreloads, hopen, -, hflag, -, hanswers⟩ :=
    reload_run
  obtain ⟨inForce, a, hlatest, -, hlacks, -⟩ := reload_publishes hrun hunstalled hreloads hopen
  rw [hanswers] at hlatest
  obtain ⟨rfl, rfl⟩ := Prod.mk.inj (Option.some.inj hlatest)
  rw [hflag] at hlacks
  exact ⟨trace, earlier, during, reload, m, hrun, hunstalled, hreloads, hopen, hlacks rfl⟩

/-- It is not so that a reloaded cap reaches every open document for which the client's latest answer
had none. -/
theorem reload_misses_cached :
    ¬∀ (engine : Engine) (defaults : Settings) (discovers : Bool)
      (trace earlier during : List Entry) (reload : Entry) (m : Machine) (settings : Settings)
      (uri : Uri) (document : Document) (inForce : Settings) (a : Answer),
      Run (Machine.start engine defaults discovers) trace m → Unstalled trace →
      Reloads trace earlier reload during m settings →
      reload.before.server.store.get? uri = some document →
      (answers uri trace).getLast? = some (inForce, a) → a.LacksCap →
      passResult uri document settings reload.before.server.flags.relatedInformation ∈
        publications uri (sentEvents (reload :: during)) := by
  intro hclaim
  obtain ⟨trace, earlier, during, reload, m, hrun, hunstalled, hreloads, hopen, -, hflag, -, hanswers⟩ :=
    reload_run
  have hlatest : (answers loginUri trace).getLast? = some ({}, .values [.null]) := by
    rw [hanswers, List.getLast?_singleton]
  have hnew := hclaim _ _ _ _ _ _ _ _ _ _ _ _ _ hrun hunstalled hreloads hopen hlatest rfl
  obtain ⟨inForce, a, hlatest', hpublished, -⟩ := hreloads.validated hrun hunstalled hopen
  obtain ⟨rfl, rfl⟩ := Prod.mk.inj (Option.some.inj (hlatest.symm.trans hlatest'))
  rw [hpublished, hflag, List.mem_singleton] at hnew
  have hcaps : validate loginUri "AA BB" 1 false ≠ validate loginUri "AA BB" 1000 false := by
    decide +kernel
  exact hcaps (Prod.mk.inj hnew).2

end ScenarioServer
