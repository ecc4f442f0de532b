import ScenarioServer.Proofs.CallTurns
import ScenarioServer.Proofs.Reload

/-!
# Changes of watched files

A change of files puts a configuration in force exactly if the server looks for one, the workspace has
a root, one of the changed files is the configuration file there, and that file can be read and spells
a configuration (`Server.Loads`, `Server.changeFiles?_eq_some_iff`). Then both process-wide settings
become those of the file, and every open document gets one turn (`Revalidates`), however the call is
interrupted. In every other case nothing happens at all. `reload_is_all_or_nothing` says both.
-/

namespace ScenarioServer

/-! ## When a configuration is loaded -/

/-- A change of these files makes the server load `config`: it looks for configuration files, its
workspace has a root, one of the changed files is the configuration file there, and this is a regular
file with a text that spells `config`. -/
structure Server.Loads (server : Server) (files : FileSystem) (changed : List Uri) (root text : String)
    (config : Config) : Prop where
  discovers : server.discovers = true
  rooted : server.root = some root
  concerned : ∃ uri ∈ changed, ∃ path, uri.filePath? = some path ∧
    Path.same path (Config.pathIn root) = true
  isFile : files.isFile (Config.pathIn root) = true
  read : files.read (Config.pathIn root) = .ok text
  parse : Config.parse? text = some config

theorem Server.concernsConfig_iff (root : String) (changed : List Uri) :
    concernsConfig root changed = true ↔ ∃ uri ∈ changed, ∃ path, uri.filePath? = some path ∧
      Path.same path (Config.pathIn root) = true := by
  simp only [concernsConfig, List.any_eq_true, Option.any_eq_true]

namespace Config

theorem settings_relativeTo (path : String) (config : Config) :
    (config.relativeTo path).settings = config.settings := by
  unfold relativeTo
  split <;> rfl

theorem load_eq_ok_iff (files : FileSystem) (path : String) (loaded : Config) :
    load files path = .ok loaded ↔ ∃ text config, files.read path = .ok text ∧
      parse? text = some config ∧ loaded = config.relativeTo path := by
  unfold load
  split
  · next hread => simp [hread]
  · next text hread =>
      split
      · next hparse => simp [hread, hparse]
      · next config hparse => simp [hread, hparse, eq_comm]

theorem discover_eq_some_iff (files : FileSystem) (root : String) (loaded : Config) :
    discover files root = .ok (some loaded) ↔
      files.isFile (pathIn root) = true ∧ load files (pathIn root) = .ok loaded := by
  unfold discover
  split
  · next hfile => cases load files (pathIn root) <;> simp [Except.map, hfile]
  · next hfile => simp [hfile]

end Config

namespace Server

theorem reload?_eq_some_iff (server reloaded : Server) (files : FileSystem) (root : String) :
    server.reload? files root = some reloaded ↔ ∃ config,
      Config.discover files root = .ok (some config) ∧ reloaded =
        { server with defaults := config.settings, globalSettings := config.settings } := by
  unfold reload?
  split
  · next config hdiscover => simp [hdiscover, eq_comm]
  · next hnone =>
      simp only [reduceCtorEq, false_iff]
      rintro ⟨config, hdiscover, -⟩
      exact hnone config hdiscover

theorem changeFiles?_eq_some_iff (server reloaded : Server) (files : FileSystem)
    (changed : List Uri) :
    server.changeFiles? files changed = some reloaded ↔
      ∃ root text config, server.Loads files changed root text config ∧ reloaded = { server with
        defaults := config.settings, globalSettings := config.settings } := by
  unfold changeFiles?
  constructor
  · intro h
    obtain ⟨root, hroot, hreload⟩ := Option.bind_eq_some_iff.mp h
    split at hreload
    · next hguard =>
        rw [Bool.and_eq_true, concernsConfig_iff] at hguard
        obtain ⟨loaded, hdiscover, rfl⟩ := (reload?_eq_some_iff ..).mp hreload
        obtain ⟨hfile, hload⟩ := (Config.discover_eq_some_iff ..).mp hdiscover
        obtain ⟨text, config, hread, hparse, rfl⟩ := (Config.load_eq_ok_iff ..).mp hload
        rw [Config.settings_relativeTo]
        exact ⟨root, text, config, ⟨hguard.1, hroot, hguard.2, hfile, hread, hparse⟩, rfl⟩
    · cases hreload
  · rintro ⟨root, text, config, h, rfl⟩
    have hload := (Config.load_eq_ok_iff ..).mpr ⟨text, config, h.read, h.parse, rfl⟩
    have hdiscover := (Config.discover_eq_some_iff ..).mpr ⟨h.isFile, hload⟩
    have hreload := (reload?_eq_some_iff server _ ..).mpr ⟨_, hdiscover, rfl⟩
    have hguard : (server.discovers && concernsConfig root changed) = true := by
      rw [h.discovers, (concernsConfig_iff ..).mpr h.concerned, Bool.and_self]
    refine Option.bind_eq_some_iff.mpr ⟨root, h.rooted, ?_⟩
    rw [if_pos hguard, hreload, Config.settings_relativeTo]

theorem changeFiles?_eq_none {server : Server} {files : FileSystem} {changed : List Uri}
    (h : ¬∃ root text config, server.Loads files changed root text config) :
    server.changeFiles? files changed = none := by
  rw [Option.eq_none_iff_forall_ne_some]
  intro reloaded hreload
  obtain ⟨root, text, config, hloads, -⟩ := (changeFiles?_eq_some_iff ..).mp hreload
  exact h ⟨root, text, config, hloads⟩

theorem accept_of_not_loads {server : Server} {files : FileSystem} {changed : List Uri}
    (h : ¬∃ root text config, server.Loads files changed root text config) :
    server.accept files (.didChangeWatchedFiles changed) = (server, [], []) := by
  simp only [accept, changeFiles?_eq_none h]

theorem accept_of_loads {server : Server} {files : FileSystem} {changed : List Uri}
    {root text : String} {config : Config} (h : server.Loads files changed root text config) :
    server.accept files (.didChangeWatchedFiles changed) = ({ server with
      defaults := config.settings, globalSettings := config.settings }, [], server.store.uris) := by
  have hreload := (changeFiles?_eq_some_iff ..).mpr ⟨root, text, config, h, rfl⟩
  simp only [accept, hreload]

end Server

/-! ## What the call does -/

/-- The settings of a configuration file are in force, and every open document is to be validated. -/
def Machine.reloading (m : Machine) (settings : Settings) : Machine :=
  { m with
    server := { m.server with defaults := settings, globalSettings := settings }
    queue := m.server.store.uris }

/-- A change of files that loads no configuration does nothing. -/
theorem Step.eq_of_not_loads {m m' : Machine} {files : FileSystem} {changed : List Uri}
    {events : List Event} (hstep : Step m (.call files (.didChangeWatchedFiles changed)) events m')
    (h : ¬∃ root text config, m.server.Loads files changed root text config) :
    events = [] ∧ m' = m := by
  cases hstep with
  | call hidle haccept horder =>
      obtain ⟨rfl, rfl, rfl⟩ := (Server.accept_of_not_loads h).symm.trans haccept
      obtain rfl := horder.eq_nil
      obtain ⟨server, queue, waiting, nextTicket⟩ := m
      obtain rfl : queue = [] := hidle
      exact ⟨rfl, rfl⟩

/-- A change of files that loads a configuration puts it in force and queues the open documents. -/
theorem Step.loads {m m' : Machine} {files : FileSystem} {changed : List Uri} {events : List Event}
    (hstep : Step m (.call files (.didChangeWatchedFiles changed)) events m') {root text : String}
    {config : Config} (h : m.server.Loads files changed root text config) :
    events = [] ∧ m'.server = { m.server with
        defaults := config.settings, globalSettings := config.settings } ∧
      m'.waiting = m.waiting ∧ m'.queue.Perm m'.server.store.uris := by
  cases hstep with
  | call hidle haccept horder =>
      obtain ⟨rfl, rfl, rfl⟩ := (Server.accept_of_loads h).symm.trans haccept
      exact ⟨rfl, rfl, rfl, horder⟩

/-- The call that loads a configuration is the work on all open documents under its settings. -/
theorem run_reloading {m : Machine} {files : FileSystem} {changed : List Uri} {root text : String}
    {config : Config} (h : m.server.Loads files changed root text config) {after : Server}
    {events : List Event} {reply : Reply} {pass : Option Pass}
    (hcall : m.server.call files (.didChangeWatchedFiles changed) = (after, events, reply, pass)) :
    reply = .nothing ∧ ∃ later,
      Run (m.reloading ⟨config.maxNumberOfProblems⟩) later ({ m with server := after }.stop pass) ∧
      sentEvents later = events ∧ ∀ e ∈ later, e.move = .work := by
  have hreload := (Server.changeFiles?_eq_some_iff ..).mpr ⟨root, text, config, h, rfl⟩
  simp only [Server.call, hreload, Server.thenValidate, Prod.mk.injEq] at hcall
  obtain ⟨rfl, rfl, rfl, rfl⟩ := hcall
  exact ⟨rfl, run_validateAll (m.reloading ⟨config.maxNumberOfProblems⟩)⟩

/-- A change of watched files either loads the workspace's configuration file, and then both
process-wide settings get its cap and every document that is open at that moment has one turn in the
call; or it loads none, and then the call does nothing. Both are said of the server's function and of
the steps of the machine. -/
theorem reload_is_all_or_nothing {engine : Engine} {defaults : Settings} {discovers : Bool}
    {earlier : List Entry} {m : Machine}
    (hrun : Run (Machine.start engine defaults discovers) earlier m) (files : FileSystem)
    (changed : List Uri) :
    ((¬∃ root text config, m.server.Loads files changed root text config) →
      m.server.call files (.didChangeWatchedFiles changed) = (m.server, [], .nothing, none) ∧
      ∀ events m', Step m (.call files (.didChangeWatchedFiles changed)) events m' →
        events = [] ∧ m' = m) ∧
    ∀ root text config, m.server.Loads files changed root text config →
      (∀ after events reply pass,
        m.server.call files (.didChangeWatchedFiles changed) = (after, events, reply, pass) →
        reply = .nothing ∧ ∃ later,
          Run (m.reloading ⟨config.maxNumberOfProblems⟩) later
            ({ m with server := after }.stop pass) ∧
          sentEvents later = events ∧ ∀ e ∈ later, e.move = .work) ∧
      (m.queue = [] → Step m (.call files (.didChangeWatchedFiles changed)) []
        (m.reloading ⟨config.maxNumberOfProblems⟩)) ∧
      ∀ events m', Step m (.call files (.didChangeWatchedFiles changed)) events m' →
        events = [] ∧ m'.waiting = m.waiting ∧ m'.server = { m.server with
          defaults := ⟨config.maxNumberOfProblems⟩, globalSettings := ⟨config.maxNumberOfProblems⟩ } ∧
        ∀ later m'', Run m' later m'' → Revalidates m' later m'' := by
  have hsound := hrun.sound (Sound.start engine defaults discovers)
  constructor
  · intro hnone
    refine ⟨?_, fun events m' hstep => hstep.eq_of_not_loads hnone⟩
    simp only [Server.call, Server.changeFiles?_eq_none hnone]
  · intro root text config hloads
    refine ⟨fun after events reply pass => run_reloading hloads,
      fun hidle => .call hidle (Server.accept_of_loads hloads) (.refl _), fun events m' hstep => ?_⟩
    obtain ⟨hevents, hserver, hwaiting, hqueue⟩ := hstep.loads hloads
    refine ⟨hevents, hwaiting, hserver, fun later m'' hlater => ?_⟩
    exact hlater.revalidates (hstep.sound hsound) hqueue

/-! ## A document closed meanwhile

Two documents are open, and the client has answered nothing for them. The configuration file is
deleted, which changes nothing. It comes back, in the second of two changes; while the call waits for
the settings of the first document, the second one is closed. -/

def draftUri : Uri := { scheme := "file", authority := some {}, path := "/w/draft.tacl" }

theorem loads_configFiles {server : Server} (hdiscovers : server.discovers = true)
    (hroot : server.root = some "/w") :
    server.Loads configFiles [loginUri, configUri] "/w" "[diagnostics]\nmax_number_of_problems = 1"
      { maxNumberOfProblems := 1 } where
  discovers := hdiscovers
  rooted := hroot
  concerned := ⟨configUri, by simp, "/w/tacl.toml", by decide +kernel, by decide +kernel⟩
  isFile := by decide +kernel
  read := by
    have hpath : Config.pathIn "/w" = "/w/tacl.toml" := by decide +kernel
    simp [configFiles, hpath]
  parse := by decide +kernel

theorem not_loads_empty (server : Server) (changed : List Uri) :
    ¬∃ root text config, server.Loads .empty changed root text config := by
  rintro ⟨root, text, config, h⟩
  cases h.isFile

theorem closing_run : ∃ earlier m m' later m'',
    Run (Machine.start Engine.builtin {} true) earlier m ∧ m.queue = [] ∧
    m.server.discovers = true ∧ m.server.root = some "/w" ∧
    m.server.store.uris = [loginUri, draftUri] ∧
    Step m (.call configFiles (.didChangeWatchedFiles [loginUri, configUri])) [] m' ∧
    Run m' later m'' ∧ m''.queue = [] ∧ m''.waiting = [] ∧
    m'.callState.turns later = [.validated loginUri ⟨"AA BB", 1, 1⟩ ⟨1⟩, .skipped draftUri] := by
  have hearlier : Run (Machine.start Engine.builtin {} true) _ _ :=
    .head (.call rfl accept_workspace (.refl _)) <|
    .head (@Step.call _ .empty (.didOpen loginUri "AA BB" 1) _ _ _ _ rfl rfl (.refl _)) <|
    .head (.ask rfl rfl rfl) <|
    .head (@Step.answer _ 0 _ .failure _ _ _ _ rfl (List.mem_cons_self ..) rfl rfl) <|
    .head (@Step.call _ .empty (.didOpen draftUri "CC" 1) _ _ _ _ rfl rfl (.refl _)) <|
    .head (.ask rfl rfl rfl) <|
    .head (@Step.answer _ 1 _ .failure _ _ _ _ rfl (List.mem_cons_self ..) rfl rfl) .refl
  have hrun := hearlier.trans <|
    .head (.call rfl (Server.accept_of_loads (loads_configFiles rfl rfl)) (.refl _)) <|
    .head (.ask rfl rfl rfl) <|
    .head (@Step.call _ .empty (.didClose draftUri) _ _ _ _ rfl rfl (.refl _)) <|
    .head (@Step.answer _ 2 _ .failure _ _ _ _ rfl (List.mem_cons_self ..) rfl rfl) <|
    .head (.skip rfl rfl) .refl
  obtain ⟨-, hreload, hlater⟩ := hrun.entry
  exact ⟨_, _, _, _, _, hearlier, rfl, rfl, rfl, rfl, hreload, hlater, rfl, rfl, rfl⟩

theorem reload_is_all_or_nothing_at_close : ∃ earlier m m' later m'',
    Run (Machine.start Engine.builtin {} true) earlier m ∧
    m.server.store.uris = [loginUri, draftUri] ∧
    Step m (.call .empty (.didChangeWatchedFiles [configUri])) [] m ∧
    Step m (.call configFiles (.didChangeWatchedFiles [loginUri, configUri])) [] m' ∧
    m'.server.defaults = ⟨1⟩ ∧ m'.server.globalSettings = ⟨1⟩ ∧
    Run m' later m'' ∧ m'.callState.after later = .ended ∧
    m'.callState.turns later = [.validated loginUri ⟨"AA BB", 1, 1⟩ ⟨1⟩, .skipped draftUri] ∧
    ∃ close ∈ later, close.move.Closes draftUri := by
  obtain ⟨earlier, m, m', later, m'', hrun, hidle, hdiscovers, hroot, huris, hreload, hlater, hqueue,
    hwaiting, hturns⟩ := closing_run
  obtain ⟨-, hdeleted⟩ := (reload_is_all_or_nothing hrun .empty [configUri]).1 (not_loads_empty _ _)
  have hdeletion := Step.call hidle (Server.accept_of_not_loads (not_loads_empty _ [configUri])) (.refl _)
  rw [(hdeleted _ _ hdeletion).2] at hdeletion
  obtain ⟨-, -, hloaded⟩ := (reload_is_all_or_nothing hrun configFiles [loginUri, configUri]).2 _ _ _
    (loads_configFiles hdiscovers hroot)
  obtain ⟨-, -, hserver, hrevalidates⟩ := hloaded _ _ hreload
  have hdone := hrevalidates later m'' hlater
  have hskipped : .skipped draftUri ∈ m'.callState.turns later := by simp [hturns]
  obtain ⟨e, he, hturn⟩ := List.mem_filterMap.mp hskipped
  obtain ⟨-, before, close, after, ticket, pass, htrace, hcloses, -⟩ := hdone.skipped e he _ hturn
  refine ⟨earlier, m, m', later, m'', hrun, huris, hdeletion, hreload, by rw [hserver], by rw [hserver],
    hlater, hdone.ended hqueue hwaiting, hturns, close, ?_, hcloses⟩
  simp [htrace]

end ScenarioServer
