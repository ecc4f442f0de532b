import Mathlib.Data.List.DropRight
import ScenarioServer.Proofs.Freshness

/-!
# The settings in force

Two cells hold settings for the whole process: the defaults, and the settings that are in force for
documents without their own. Three kinds of call write them. What they hold is a function of two
things in the record of a run:

* the configuration file that was loaded last (`lastLoaded`), when the session was opened or when the
  file changed;
* the last change since then that the client announced and that concerns this program
  (`lastAnnounced`), for a client that cannot be asked.

`Tracks` is the invariant, and `settings_follow_record` the law. Nothing older can show through: a
loaded file discards what was announced before it, and an announcement without a cap falls back to the
file and not to an earlier announcement.
-/

namespace ScenarioServer

/-! ## What a move says about settings -/

/-- The settings of the configuration file of a workspace, if there is one that can be used. -/
def Config.settingsIn? (files : FileSystem) (root : String) : Option Settings :=
  match Config.discover files root with
  | .ok (some config) => some config.settings
  | _ => none

/-- The settings that a move loads from the configuration file of the workspace `root`. -/
def Move.loaded? (discovers : Bool) (root : Option String) : Move → Option Settings
  | .call files (.openSession _) =>
    root.bind fun root => if discovers then Config.settingsIn? files root else none
  | .call files (.didChangeWatchedFiles uris) =>
    root.bind fun root =>
      if discovers && Server.concernsConfig root uris then Config.settingsIn? files root else none
  | _ => none

/-- The configuration that a move announces. -/
def Move.announced? : Move → Option Json.Value
  | .call _ (.didChangeConfiguration value) => some value
  | _ => none

theorem Move.loaded?_of_announced {move : Move} {value : Json.Value}
    (h : move.announced? = some value) (discovers : Bool) (root : Option String) :
    move.loaded? discovers root = none := by
  cases move with
  | call files c =>
      cases c with
      | didChangeConfiguration => rfl
      | _ => cases h
  | answer | work => cases h

section Record

variable (discovers : Bool) (root : Option String)

/-- The settings of the configuration file that was loaded last, or `defaults` if none was. -/
def lastLoaded (defaults : Settings) (trace : List Entry) : Settings :=
  (trace.filterMap fun e => e.move.loaded? discovers root).getLast?.getD defaults

/-- The configurations that were announced since a file was loaded last. -/
def announcedSince (trace : List Entry) : List Json.Value :=
  (trace.rtakeWhile fun e => (e.move.loaded? discovers root).isNone).filterMap fun e =>
    e.move.announced?

/-- The last of these that concerns this program. -/
def lastAnnounced (defaults : Settings) (trace : List Entry) : Option Json.Value :=
  ((announcedSince discovers root trace).filter fun value =>
    (Settings.ofChange? value (lastLoaded discovers root defaults trace)).isSome).getLast?

variable {discovers : Bool} {root : Option String} {defaults : Settings} {trace : List Entry}
  {e : Entry}

theorem lastLoaded_concat_of_some (defaults : Settings) (trace : List Entry) {settings : Settings}
    (h : e.move.loaded? discovers root = some settings) :
    lastLoaded discovers root defaults (trace ++ [e]) = settings := by
  simp [lastLoaded, h]

theorem lastLoaded_concat_of_none (defaults : Settings) (trace : List Entry)
    (h : e.move.loaded? discovers root = none) :
    lastLoaded discovers root defaults (trace ++ [e]) =
      lastLoaded discovers root defaults trace := by
  simp [lastLoaded, h]

theorem announcedSince_concat_of_some {settings : Settings}
    (h : e.move.loaded? discovers root = some settings) :
    announcedSince discovers root (trace ++ [e]) = [] := by
  simp [announcedSince, h]

theorem announcedSince_concat_of_none (h : e.move.loaded? discovers root = none) :
    announcedSince discovers root (trace ++ [e]) =
      announcedSince discovers root trace ++ e.move.announced?.toList := by
  simp only [announcedSince, List.rtakeWhile_concat, h, Option.isNone_none, if_true,
    List.filterMap_append]
  cases hvalue : e.move.announced? <;> simp [hvalue]

theorem lastAnnounced_concat_of_some (defaults : Settings) (trace : List Entry)
    {settings : Settings} (h : e.move.loaded? discovers root = some settings) :
    lastAnnounced discovers root defaults (trace ++ [e]) = none := by
  rw [lastAnnounced, announcedSince_concat_of_some h, List.filter_nil, List.getLast?_nil]

/-- A move that neither loads a file nor announces anything of concern leaves the record as it is. -/
theorem lastAnnounced_concat_of_none (h : e.move.loaded? discovers root = none)
    (hannounced : ∀ value, e.move.announced? = some value →
      Settings.ofChange? value (lastLoaded discovers root defaults trace) = none) :
    lastAnnounced discovers root defaults (trace ++ [e]) =
      lastAnnounced discovers root defaults trace := by
  rw [lastAnnounced, announcedSince_concat_of_none h, lastLoaded_concat_of_none defaults trace h,
    List.filter_append]
  cases hvalue : e.move.announced? with
  | none => simp [lastAnnounced]
  | some value => simp [lastAnnounced, hannounced value hvalue]

theorem lastAnnounced_concat_of_announced {value : Json.Value}
    (h : e.move.loaded? discovers root = none) (hvalue : e.move.announced? = some value)
    (hconcerns : (Settings.ofChange? value (lastLoaded discovers root defaults trace)).isSome) :
    lastAnnounced discovers root defaults (trace ++ [e]) = some value := by
  rw [lastAnnounced, announcedSince_concat_of_none h, lastLoaded_concat_of_none defaults trace h,
    List.filter_append]
  simp [hvalue, hconcerns]

end Record

/-! ## The two cells -/

namespace Server

theorem reload?_eq_map (server : Server) (files : FileSystem) (root : String) :
    server.reload? files root = (Config.settingsIn? files root).map fun settings =>
      { server with defaults := settings, globalSettings := settings } := by
  unfold reload? Config.settingsIn?
  rcases Config.discover files root with _ | _ | _ <;> rfl

/-- The server with the settings of a configuration file in both cells, if one was loaded. -/
def withLoaded (server : Server) : Option Settings → Server
  | some settings => { server with defaults := settings, globalSettings := settings }
  | none => server

theorem openSession_eq (server : Server) (files : FileSystem) (opening : Opening) :
    server.openSession files opening =
      { server with flags := opening.flags, root := opening.root? }.withLoaded
        (Move.loaded? server.discovers opening.root? (.call files (.openSession opening))) := by
  unfold openSession Move.loaded?
  cases opening.root? with
  | none => rfl
  | some root =>
      dsimp only [Option.bind_some]
      split
      · rw [reload?_eq_map]
        cases Config.settingsIn? files root <;> rfl
      · rfl

theorem changeFiles?_eq_map (server : Server) (files : FileSystem) (uris : List Uri) :
    server.changeFiles? files uris =
      (Move.loaded? server.discovers server.root (.call files (.didChangeWatchedFiles uris))).map
        fun settings => server.withLoaded (some settings) := by
  unfold changeFiles? Move.loaded?
  cases server.root with
  | none => rfl
  | some root =>
      dsimp only [Option.bind_some]
      split
      · rw [reload?_eq_map]
        rfl
      · rfl

/-- What the first part of a call does to everything but the documents. -/
theorem accept_eq {server after : Server} {files : FileSystem} {c : Call} {events : List Event}
    {uris : List Uri} (h : server.accept files c = (after, events, uris))
    (hopens : ¬(Move.call files c).OpensSession) :
    ∃ store, after =
      match (Move.call files c).announced? with
      | some value => server.changeConfiguration value
      | none => { server with store }.withLoaded
          ((Move.call files c).loaded? server.discovers server.root) := by
  cases c with
  | openSession opening => exact absurd trivial hopens
  | didOpen | didClose | initialized | shutdown | completion | resolve | hover =>
      obtain ⟨rfl, -, -⟩ := h
      exact ⟨_, rfl⟩
  | didChange uri changes version =>
      simp only [accept] at h
      split at h <;> obtain ⟨rfl, -, -⟩ := h <;> exact ⟨_, rfl⟩
  | didChangeConfiguration value =>
      obtain ⟨rfl, -, -⟩ := h
      exact ⟨server.store, rfl⟩
  | didChangeWatchedFiles changed =>
      simp only [accept, changeFiles?_eq_map] at h
      refine ⟨server.store, ?_⟩
      simp only [Move.announced?]
      cases hloaded : Move.loaded? server.discovers server.root
          (.call files (.didChangeWatchedFiles changed)) with
      | none =>
          rw [hloaded] at h
          obtain ⟨rfl, -, -⟩ := h
          rfl
      | some settings =>
          rw [hloaded] at h
          obtain ⟨rfl, -, -⟩ := h
          rfl

theorem publish_eq {server after : Server} {uri : Uri} {document : Document} {settings : Settings}
    {events : List Event} (h : server.publish uri document settings = (after, events)) :
    ∃ store, after = { server with store } := by
  rcases publish_cases h with ⟨rfl, -, -⟩ | ⟨-, -, rfl, -⟩
  · exact ⟨_, rfl⟩
  · exact ⟨_, rfl⟩

theorem receive_eq {server received : Server} {uri : Uri} {fallback settings : Settings}
    {a : Answer} (h : server.receive uri fallback a = (received, settings)) :
    ∃ store, received = { server with store } := by
  unfold receive at h
  split at h <;> obtain ⟨rfl, -⟩ := Prod.mk.inj h <;> exact ⟨_, rfl⟩

end Server

/-- Only a call writes anything but the store. -/
theorem Step.server_eq {m m' : Machine} {move : Move} {events : List Event}
    (hstep : Step m move events m') (hcall : ¬move.IsCall) :
    ∃ store, m'.server = { m.server with store } := by
  cases hstep with
  | call => exact absurd trivial hcall
  | skip | ask => exact ⟨_, rfl⟩
  | finish _ _ _ hpublish => exact Server.publish_eq hpublish
  | answer _ _ hreceive hpublish =>
      obtain ⟨received, rfl⟩ := Server.receive_eq hreceive
      obtain ⟨published, hserver⟩ := Server.publish_eq hpublish
      exact ⟨published, hserver⟩

/-! ## The invariant -/

/-- What the two cells hold after the steps of `trace`, in a session opened by `opening`. -/
structure Tracks (opening : Opening) (defaults : Settings) (discovers : Bool) (trace : List Entry)
    (server : Server) : Prop where
  flags : server.flags = opening.flags
  search : server.discovers = discovers
  root : server.root = opening.root?
  stored : server.defaults = lastLoaded discovers opening.root? defaults trace
  askable : opening.flags.configuration = true →
    server.globalSettings = lastLoaded discovers opening.root? defaults trace
  unannounced : lastAnnounced discovers opening.root? defaults trace = none →
    server.globalSettings = lastLoaded discovers opening.root? defaults trace
  announced : opening.flags.configuration = false → ∀ value,
    lastAnnounced discovers opening.root? defaults trace = some value →
    Settings.ofChange? value (lastLoaded discovers opening.root? defaults trace) =
      some server.globalSettings

namespace Tracks

variable {opening : Opening} {defaults : Settings} {discovers : Bool} {trace : List Entry}
  {server : Server} {e : Entry}

/-- A step that writes the store only, and says nothing about settings. -/
theorem quiet (h : Tracks opening defaults discovers trace server) (store : Store)
    (hloaded : e.move.loaded? discovers opening.root? = none)
    (hannounced : ∀ value, e.move.announced? = some value →
      Settings.ofChange? value (lastLoaded discovers opening.root? defaults trace) = none) :
    Tracks opening defaults discovers (trace ++ [e]) { server with store } := by
  have hlast := lastLoaded_concat_of_none defaults trace hloaded
  have hsince := lastAnnounced_concat_of_none hloaded hannounced
  refine ⟨h.flags, h.search, h.root, ?_, ?_, ?_, ?_⟩
  · exact h.stored.trans hlast.symm
  · exact fun hflag => (h.askable hflag).trans hlast.symm
  · intro hnone
    rw [hsince] at hnone
    exact (h.unannounced hnone).trans hlast.symm
  · intro hflag value hvalue
    rw [hsince] at hvalue
    rw [hlast]
    exact h.announced hflag value hvalue

/-- A step that loads a configuration file. -/
theorem load (h : Tracks opening defaults discovers trace server) {settings : Settings}
    (hloaded : e.move.loaded? discovers opening.root? = some settings) :
    Tracks opening defaults discovers (trace ++ [e]) (server.withLoaded (some settings)) := by
  have hlast := lastLoaded_concat_of_some defaults trace hloaded
  have hsince := lastAnnounced_concat_of_some defaults trace hloaded
  refine ⟨h.flags, h.search, h.root, hlast.symm, fun _ => hlast.symm, fun _ => hlast.symm, ?_⟩
  intro _ value hvalue
  rw [hsince] at hvalue
  cases hvalue

/-- A step in which the client announces a change. -/
theorem announce (h : Tracks opening defaults discovers trace server) {value : Json.Value}
    (hvalue : e.move.announced? = some value) :
    Tracks opening defaults discovers (trace ++ [e]) (server.changeConfiguration value) := by
  have hloaded := Move.loaded?_of_announced hvalue discovers opening.root?
  have hlast := lastLoaded_concat_of_none defaults trace hloaded
  unfold Server.changeConfiguration
  split
  · next haskable =>
    rw [h.flags] at haskable
    have hglobal := (h.askable haskable).trans hlast.symm
    refine ⟨h.flags, h.search, h.root, h.stored.trans hlast.symm, fun _ => hglobal,
      fun _ => hglobal, fun hflag => ?_⟩
    rw [haskable] at hflag
    cases hflag
  · next hunaskable =>
    rw [h.flags] at hunaskable
    split
    · next settings hsettings =>
      rw [h.stored] at hsettings
      have hsince := lastAnnounced_concat_of_announced hloaded hvalue (by rw [hsettings]; rfl)
      refine ⟨h.flags, h.search, h.root, h.stored.trans hlast.symm, ?_, ?_, ?_⟩
      · exact fun haskable => absurd haskable hunaskable
      · intro hnone
        rw [hsince] at hnone
        cases hnone
      · intro _ other hother
        obtain rfl := Option.some.inj (hsince.symm.trans hother)
        rw [hlast, hsettings]
    · next hunrelated =>
      rw [h.stored] at hunrelated
      refine h.quiet server.store hloaded fun other hother => ?_
      obtain rfl := Option.some.inj (hvalue.symm.trans hother)
      exact hunrelated

/-- The call that opens the session may load a file; nothing has been announced before it. -/
theorem opened {engine : Engine} {m : Machine} {files : FileSystem} {events : List Event}
    (hstep : Step (Machine.start engine defaults discovers) (.call files (.openSession opening))
      events m) :
    Tracks opening defaults discovers
      [⟨Machine.start engine defaults discovers, .call files (.openSession opening), events, m⟩]
      m.server := by
  have hstart : Tracks opening defaults discovers []
      { Server.start engine defaults discovers with
        flags := opening.flags, root := opening.root? } :=
    ⟨rfl, rfl, rfl, rfl, fun _ => rfl, fun _ => rfl, fun _ value hvalue => by cases hvalue⟩
  have hserver : m.server = { Server.start engine defaults discovers with
      flags := opening.flags, root := opening.root? }.withLoaded
        (Move.loaded? discovers opening.root? (.call files (.openSession opening))) := by
    cases hstep with
    | call _ haccept =>
        obtain ⟨rfl, -, -⟩ := haccept
        exact Server.openSession_eq ..
  rw [hserver, ← List.nil_append [_]]
  cases hloaded : Move.loaded? discovers opening.root? (.call files (.openSession opening)) with
  | none => exact hstart.quiet _ hloaded fun value hvalue => by cases hvalue
  | some settings => exact hstart.load hloaded

theorem step {m m' : Machine} {move : Move} {events : List Event}
    (h : Tracks opening defaults discovers trace m.server) (hstep : Step m move events m')
    (hopens : ¬move.OpensSession) :
    Tracks opening defaults discovers (trace ++ [⟨m, move, events, m'⟩]) m'.server := by
  have hstep' := hstep
  cases hstep with
  | @call files c server events uris queue hidle haccept horder =>
      obtain ⟨store, hserver⟩ := Server.accept_eq haccept hopens
      cases hannounced : (Move.call files c).announced? with
      | some value =>
          rw [hannounced] at hserver
          exact hserver ▸ h.announce hannounced
      | none =>
          rw [hannounced] at hserver
          have hstore : Tracks opening defaults discovers trace { m.server with store } :=
            ⟨h.flags, h.search, h.root, h.stored, h.askable, h.unannounced, h.announced⟩
          cases hloaded : (Move.call files c).loaded? m.server.discovers m.server.root with
          | none =>
              rw [hloaded] at hserver
              rw [h.search, h.root] at hloaded
              refine hserver ▸ h.quiet store hloaded fun value hvalue => ?_
              exact absurd (hannounced.symm.trans hvalue) (by simp)
          | some settings =>
              rw [hloaded] at hserver
              rw [h.search, h.root] at hloaded
              exact hserver ▸ hstore.load hloaded
  | skip | ask | finish | answer =>
      obtain ⟨store, hserver⟩ := hstep'.server_eq id
      rw [hserver]
      exact h.quiet store rfl fun value hvalue => by cases hvalue

theorem run {start m : Machine} {later : List Entry} (hrun : Run start later m)
    (h : Tracks opening defaults discovers trace start.server)
    (hopens : ∀ e ∈ later, ¬e.move.OpensSession) :
    Tracks opening defaults discovers (trace ++ later) m.server := by
  induction hrun with
  | refl => rwa [List.append_nil]
  | tail hrun hstep ih =>
      have hbefore := ih fun e he => hopens e (List.mem_append_left _ he)
      rw [← List.append_assoc]
      exact hbefore.step hstep (hopens _ (List.mem_append_right _ (List.mem_singleton.mpr rfl)))

end Tracks

theorem Tracks.of_openedOnce {engine : Engine} {defaults : Settings} {discovers : Bool}
    {trace : List Entry} {m : Machine} {opening : Opening}
    (hrun : Run (Machine.start engine defaults discovers) trace m)
    (hopened : OpenedOnce trace opening) : Tracks opening defaults discovers trace m.server := by
  obtain ⟨first, rest, files, rfl, hmove, hrest⟩ := hopened
  obtain ⟨hstart, hstep, hlater⟩ := hrun.first
  obtain ⟨before, move, events, after⟩ := first
  obtain rfl : before = Machine.start engine defaults discovers := hstart
  obtain rfl : move = .call files (.openSession opening) := hmove
  exact (Tracks.opened hstep).run hlater hrest

/-! ## The law -/

/-- The configuration has no cap for this program: the section is null or of the wrong shape, or the
cap is absent in it or null. -/
def Settings.LacksCap (value : Json.Value) : Prop :=
  (sectionCap? ((value.get? sectionName).getD value)).join = none

theorem Settings.ofChange?_of_lacksCap {value : Json.Value} {fallback settings : Settings}
    (h : LacksCap value) (hsettings : ofChange? value fallback = some settings) :
    settings = fallback := by
  have hreset : (ofSection? ((value.get? sectionName).getD value) fallback).getD fallback =
      fallback := by
    unfold LacksCap at h
    unfold ofSection?
    cases hcap : sectionCap? ((value.get? sectionName).getD value) with
    | none => rfl
    | some cap =>
        rw [hcap, Option.join_some] at h
        rw [h]
        rfl
  unfold ofChange? at hsettings
  split at hsettings
  · next part hpart =>
    rw [hpart, Option.getD_some] at hreset
    exact (Option.some.inj hsettings).symm.trans hreset
  · next hnone =>
    rw [hnone, Option.getD_none] at hreset
    split at hsettings
    · exact (Option.some.inj hsettings).symm.trans hreset
    · cases hsettings

/-- In every state of a session, the defaults are the settings of the configuration file that was
loaded last, or those of the start if none was. These are in force as well if the client can be asked,
or if it has announced nothing of concern since that file was loaded. Otherwise its last such
announcement is in force, read over the defaults: one without a cap gives the defaults back, whatever
was announced earlier. And right after a file is loaded its settings are in force. -/
theorem settings_follow_record {engine : Engine} {defaults : Settings} {discovers : Bool}
    {trace : List Entry} {m : Machine} {opening : Opening}
    (hrun : Run (Machine.start engine defaults discovers) trace m)
    (hopened : OpenedOnce trace opening) :
    m.server.defaults = lastLoaded discovers opening.root? defaults trace ∧
    (opening.flags.configuration = true →
      m.server.globalSettings = lastLoaded discovers opening.root? defaults trace) ∧
    (opening.flags.configuration = false →
      (lastAnnounced discovers opening.root? defaults trace = none →
        m.server.globalSettings = lastLoaded discovers opening.root? defaults trace) ∧
      ∀ value, lastAnnounced discovers opening.root? defaults trace = some value →
        Settings.ofChange? value (lastLoaded discovers opening.root? defaults trace) =
          some m.server.globalSettings ∧
        (Settings.LacksCap value →
          m.server.globalSettings = lastLoaded discovers opening.root? defaults trace)) ∧
    (∀ earlier e settings, trace = earlier ++ [e] →
      e.move.loaded? discovers opening.root? = some settings →
      m.server.defaults = settings ∧ m.server.globalSettings = settings) := by
  have h := Tracks.of_openedOnce hrun hopened
  refine ⟨h.stored, h.askable, fun hflag => ⟨h.unannounced, fun value hvalue => ?_⟩, ?_⟩
  · have hsettings := h.announced hflag value hvalue
    exact ⟨hsettings, fun hlacks => Settings.ofChange?_of_lacksCap hlacks hsettings⟩
  · rintro earlier e settings rfl hloaded
    have hlast := lastLoaded_concat_of_some defaults earlier hloaded
    have hnone := lastAnnounced_concat_of_some defaults earlier hloaded
    exact ⟨h.stored.trans hlast, (h.unannounced hnone).trans hlast⟩

/-! ## A session with both

A client announces a cap of 5; then a configuration file with a cap of 1 is loaded, and the client
announces an empty section. -/

def pushingOpening : Opening := { workspaceOpening with flags := {} }

theorem pushingOpening_root : pushingOpening.root? = some "/w" := by decide +kernel

theorem accept_pushingOpening :
    (Server.start Engine.builtin {} true).accept .empty (.openSession pushingOpening) =
      ({ Server.start Engine.builtin {} true with root := some "/w" }, [], []) := by
  have hempty : Config.settingsIn? .empty "/w" = none := by
    simp [Config.settingsIn?, Config.discover, FileSystem.empty]
  simp only [Server.accept, Server.openSession_eq, Move.loaded?, pushingOpening_root]
  simp [hempty, Server.withLoaded, pushingOpening, Server.start]

theorem loaded?_configFiles : Move.loaded? true (some "/w")
    (.call configFiles (.didChangeWatchedFiles [configUri])) = some ⟨1⟩ := by
  have hreload := @changeFiles?_configFiles
    { Server.start Engine.builtin {} true with root := some "/w" } rfl rfl
  rw [Server.changeFiles?_eq_map] at hreload
  obtain ⟨settings, hloaded, hserver⟩ := Option.map_eq_some_iff.mp hreload
  obtain rfl : settings = ⟨1⟩ := congrArg Server.defaults hserver
  exact hloaded

theorem pushing_run : ∃ opening pushing loading emptying m,
    Run (Machine.start Engine.builtin {} true) [opening, pushing, loading, emptying] m ∧
    opening.move = .call .empty (.openSession pushingOpening) ∧
    pushing.move = .call .empty
      (.didChangeConfiguration (.object [(Settings.capName, .ofNat 5)])) ∧
    loading.move = .call configFiles (.didChangeWatchedFiles [configUri]) ∧
    emptying.move = .call .empty
      (.didChangeConfiguration (.object [(Settings.sectionName, .null)])) ∧
    pushing.after.server.globalSettings = ⟨5⟩ := by
  have hrun : Run (Machine.start Engine.builtin {} true) _ _ :=
    .head (.call rfl accept_pushingOpening (.refl _)) <|
    .head (@Step.call _ .empty (.didChangeConfiguration (.object [(Settings.capName, .ofNat 5)]))
      _ _ _ _ rfl rfl (.refl _)) <|
    .head (.call rfl (accept_configFiles rfl rfl) (.refl _)) <|
    .head (@Step.call _ .empty (.didChangeConfiguration (.object [(Settings.sectionName, .null)]))
      _ _ _ _ rfl rfl (.refl _)) .refl
  exact ⟨_, _, _, _, _, hrun, rfl, rfl, rfl, rfl, rfl⟩

/-- The law at that session: the announced 5 is gone, and the cap is the 1 of the file. -/
theorem settings_after_empty_section : ∃ trace m,
    Run (Machine.start Engine.builtin {} true) trace m ∧ OpenedOnce trace pushingOpening ∧
    (∃ e ∈ trace, e.after.server.globalSettings = ⟨5⟩) ∧
    lastLoaded true pushingOpening.root? {} trace = ⟨1⟩ ∧
    lastAnnounced true pushingOpening.root? {} trace =
      some (.object [(Settings.sectionName, .null)]) ∧
    m.server.defaults = ⟨1⟩ ∧ m.server.globalSettings = ⟨1⟩ := by
  obtain ⟨opening, pushing, loading, emptying, m, hrun, hopening, hpushing, hloading, hemptying, hfive⟩ :=
    pushing_run
  have hopened : OpenedOnce [opening, pushing, loading, emptying] pushingOpening := by
    refine ⟨opening, [pushing, loading, emptying], .empty, rfl, hopening, ?_⟩
    simp [Move.OpensSession, hpushing, hloading, hemptying]
  have hloaded : loading.move.loaded? true pushingOpening.root? = some ⟨1⟩ := by
    rw [pushingOpening_root, hloading, loaded?_configFiles]
  have hquiet : emptying.move.loaded? true pushingOpening.root? = none := by
    rw [hemptying]
    rfl
  have hlast : lastLoaded true pushingOpening.root? {} ([opening, pushing, loading] ++ [emptying]) =
      ⟨1⟩ :=
    (lastLoaded_concat_of_none _ _ hquiet).trans
      (lastLoaded_concat_of_some _ [opening, pushing] hloaded)
  have hlatest : lastAnnounced true pushingOpening.root? {}
      ([opening, pushing, loading] ++ [emptying]) =
      some (.object [(Settings.sectionName, .null)]) :=
    lastAnnounced_concat_of_announced hquiet (by rw [hemptying]; rfl) rfl
  obtain ⟨hdefaults, -, hannounced, -⟩ := settings_follow_record hrun hopened
  obtain ⟨-, hreset⟩ := (hannounced rfl).2 _ hlatest
  exact ⟨_, m, hrun, hopened, ⟨pushing, by simp, hfive⟩, hlast, hlatest, hdefaults.trans hlast,
    (hreset rfl).trans hlast⟩

end ScenarioServer
