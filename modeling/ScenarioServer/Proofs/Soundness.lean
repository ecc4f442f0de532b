import ScenarioServer.Proofs.Machine

/-!
# What holds in every state

`Sound` ties the documents, the ledger, the settings cache and the calls that wait to one
another: everything that is kept about a document is kept about an open one, all generations
come from the one counter, and a pass that still has the generation of its document has its
text and version too. `Run.sound` is the invariant's theorem, from one lemma for each kind of
write (`Sound.put`, `Sound.close`, `Sound.keeps`, `Sound.record`, `Sound.wait`).

What makes the publish guard exact is `Sound.admits`: the ledger never refuses the generation
that a document has now.
-/

namespace ScenarioServer

namespace Server

/-! ## What a step writes -/

/-- The second server has the documents and the ledger of the first. Its settings may differ, but
it caches none for a document that is not open. -/
structure Keeps (a b : Server) : Prop where
  get? : ∀ uri, b.store.get? uri = a.store.get? uri
  latest : ∀ uri, b.store.ledger.latest uri = a.store.ledger.latest uri
  lastGeneration : b.store.lastGeneration = a.store.lastGeneration
  cached : ∀ uri settings, b.store.cachedSettings uri = some settings →
    a.store.cachedSettings uri = some settings ∨ a.store.isOpen uri = true

theorem Keeps.of_store {a b : Server} (h : b.store = a.store) : Keeps a b := by
  constructor <;> simp_all

theorem Keeps.of_clearSettings {a b : Server} (h : b.store = a.store.clearSettings) :
    Keeps a b := by
  constructor <;> simp [h]

theorem receive_keeps {server received : Server} {uri : Uri} {fallback settings : Settings}
    {a : Answer} (h : server.receive uri fallback a = (received, settings)) :
    Keeps server received := by
  unfold receive at h
  split at h
  · obtain ⟨rfl, -⟩ := Prod.mk.inj h
    exact .of_store rfl
  · obtain ⟨rfl, -⟩ := Prod.mk.inj h
    refine ⟨by simp, by simp, by simp, ?_⟩
    intro key settings hcached
    rw [Store.cachedSettings_cacheSettings] at hcached
    split at hcached
    · next hkey => exact Or.inr (hkey.1 ▸ hkey.2)
    · exact Or.inl hcached

/-- A pass ends in one of two ways: nothing happens, or the document it read is still the stored
one, and its diagnostics are recorded and sent. -/
theorem publish_cases {server after : Server} {uri : Uri} {document : Document}
    {settings : Settings} {events : List Event}
    (h : server.publish uri document settings = (after, events)) :
    (after = server ∧ events = [] ∧
      ¬(server.store.isCurrent uri document.generation = true ∧
        server.store.ledger.admits uri document.generation = true)) ∨
    (server.store.isCurrent uri document.generation = true ∧
      server.store.ledger.admits uri document.generation = true ∧
      after = { server with store := server.store.record uri document.generation } ∧
      events = [.publish uri (some document.version)
        (validate uri document.text settings.maxNumberOfProblems
          server.flags.relatedInformation)]) := by
  unfold publish at h
  split at h
  · next hguard =>
    obtain ⟨rfl, rfl⟩ := Prod.mk.inj h
    rw [Bool.and_eq_true] at hguard
    exact Or.inr ⟨hguard.1, hguard.2, rfl, rfl⟩
  · next hguard =>
    obtain ⟨rfl, rfl⟩ := Prod.mk.inj h
    rw [Bool.and_eq_true] at hguard
    exact Or.inl ⟨rfl, rfl, hguard⟩

end Server

/-- The document that a call sets: its URI, text and version. -/
def Call.put? : Call → Option (Uri × String × Int)
  | .didOpen uri text version => some (uri, text, version)
  | .didChange uri changes version => changes.getLast?.map fun text => (uri, text, version)
  | _ => none

namespace Server

/-- A configuration file sets the process-wide settings and nothing else. -/
theorem reload?_eq {server reloaded : Server} {files : FileSystem} {root : String}
    (h : server.reload? files root = some reloaded) :
    ∃ settings, reloaded = { server with defaults := settings, globalSettings := settings } := by
  unfold reload? at h
  split at h
  · exact ⟨_, (Option.some.inj h).symm⟩
  · cases h

theorem changeFiles?_eq {server reloaded : Server} {files : FileSystem} {uris : List Uri}
    (h : server.changeFiles? files uris = some reloaded) :
    ∃ settings, reloaded = { server with defaults := settings, globalSettings := settings } := by
  unfold changeFiles? at h
  obtain ⟨root, -, hroot⟩ := Option.bind_eq_some_iff.mp h
  split at hroot
  · exact reload?_eq hroot
  · cases hroot

theorem changeFiles?_store {server reloaded : Server} {files : FileSystem} {uris : List Uri}
    (h : server.changeFiles? files uris = some reloaded) : reloaded.store = server.store := by
  obtain ⟨settings, rfl⟩ := changeFiles?_eq h
  rfl

theorem openSession_frame (server : Server) (files : FileSystem) (opening : Opening) :
    (server.openSession files opening).store = server.store ∧
      (server.openSession files opening).flags = opening.flags := by
  unfold openSession
  cases opening.root? with
  | none => exact ⟨rfl, rfl⟩
  | some root =>
      dsimp only
      split
      · cases hreload : reload? { server with flags := opening.flags } files root with
        | none => exact ⟨rfl, rfl⟩
        | some reloaded =>
            obtain ⟨settings, rfl⟩ := reload?_eq hreload
            exact ⟨rfl, rfl⟩
      · exact ⟨rfl, rfl⟩

theorem changeConfiguration_keeps (server : Server) (value : Json.Value) :
    Keeps server (server.changeConfiguration value) := by
  unfold changeConfiguration
  split
  · exact .of_clearSettings rfl
  · split <;> exact .of_store rfl

/-- The first part of a call sets a document, closes one, or writes neither documents nor ledger
and publishes nothing. -/
theorem accept_cases {server after : Server} {files : FileSystem} {c : Call} {events : List Event}
    {uris : List Uri} (h : server.accept files c = (after, events, uris)) :
    (∃ uri text version, c.put? = some (uri, text, version) ∧ events = [] ∧ uris = [uri] ∧
      after = { server with store := server.store.put uri text version }) ∨
    (∃ uri, c = .didClose uri ∧ events = [.publish uri none []] ∧ uris = [] ∧
      after = { server with store := server.store.close uri }) ∨
    (c.put? = none ∧ (∀ uri, c ≠ .didClose uri) ∧ Keeps server after ∧
      ∀ uri version diagnostics, .publish uri version diagnostics ∉ events) := by
  cases c with
  | didOpen uri text version =>
      obtain ⟨rfl, rfl, rfl⟩ := h
      exact Or.inl ⟨uri, text, version, rfl, rfl, rfl, rfl⟩
  | didChange uri changes version =>
      simp only [accept] at h
      cases hlast : changes.getLast? with
      | none =>
          rw [hlast] at h
          obtain ⟨rfl, rfl, rfl⟩ := h
          exact Or.inr (Or.inr ⟨by simp [Call.put?, hlast], by simp, .of_store rfl, by simp⟩)
      | some text =>
          rw [hlast] at h
          obtain ⟨rfl, rfl, rfl⟩ := h
          exact Or.inl ⟨uri, text, version, by simp [Call.put?, hlast], rfl, rfl, rfl⟩
  | didClose uri =>
      obtain ⟨rfl, rfl, rfl⟩ := h
      exact Or.inr (Or.inl ⟨uri, rfl, rfl, rfl, rfl⟩)
  | didChangeConfiguration value =>
      obtain ⟨rfl, rfl, rfl⟩ := h
      exact Or.inr (Or.inr ⟨rfl, by simp, server.changeConfiguration_keeps value, by simp⟩)
  | didChangeWatchedFiles changed =>
      simp only [accept] at h
      cases hfiles : server.changeFiles? files changed with
      | none =>
          rw [hfiles] at h
          obtain ⟨rfl, rfl, rfl⟩ := h
          exact Or.inr (Or.inr ⟨rfl, by simp, .of_store rfl, by simp⟩)
      | some reloaded =>
          rw [hfiles] at h
          obtain ⟨rfl, rfl, rfl⟩ := h
          exact Or.inr (Or.inr ⟨rfl, by simp, .of_store (changeFiles?_store hfiles), by simp⟩)
  | initialized =>
      obtain ⟨rfl, rfl, rfl⟩ := h
      refine Or.inr (Or.inr ⟨rfl, by simp, .of_store rfl, ?_⟩)
      intro uri version diagnostics hmem
      split at hmem <;> simp at hmem
  | openSession opening =>
      obtain ⟨rfl, rfl, rfl⟩ := h
      exact Or.inr (Or.inr
        ⟨rfl, by simp, .of_store (server.openSession_frame files opening).1, by simp⟩)
  | shutdown | completion | resolve | hover =>
      obtain ⟨rfl, rfl, rfl⟩ := h
      exact Or.inr (Or.inr ⟨rfl, by simp, .of_store rfl, by simp⟩)

end Server

/-! ## The invariant -/

/-- What holds in every state that a session reaches. -/
structure Sound (m : Machine) : Prop where
  stored : ∀ uri document, m.server.store.get? uri = some document →
    document.generation ≤ m.server.store.lastGeneration
  published : ∀ uri generation, m.server.store.ledger.latest uri = some generation →
    ∃ document, m.server.store.get? uri = some document ∧ generation ≤ document.generation
  cached : ∀ uri settings, m.server.store.cachedSettings uri = some settings →
    m.server.store.isOpen uri = true
  waiting : ∀ ticket pass, (ticket, pass) ∈ m.waiting →
    pass.document.generation ≤ m.server.store.lastGeneration
  snapshot : ∀ ticket pass, (ticket, pass) ∈ m.waiting →
    ∀ document, m.server.store.get? pass.uri = some document →
      document.generation = pass.document.generation → document = pass.document
  tickets : ∀ ticket pass, (ticket, pass) ∈ m.waiting → ticket < m.nextTicket
  distinct : ∀ ticket pass pass', (ticket, pass) ∈ m.waiting → (ticket, pass') ∈ m.waiting →
    pass = pass'

namespace Sound

variable {m : Machine}

theorem start (engine : Engine) (defaults : Settings) (discovers : Bool) :
    Sound (Machine.start engine defaults discovers) := by
  constructor <;> simp [Machine.start, Server.start, Store.cachedSettings]

/-- The ledger admits the generation that a document has now. -/
theorem admits (h : Sound m) {uri : Uri} {document : Document}
    (hopen : m.server.store.get? uri = some document) :
    m.server.store.ledger.admits uri document.generation = true := by
  rw [Ledger.admits_iff]
  intro newest hnewest
  obtain ⟨current, hcurrent, hle⟩ := h.published uri newest hnewest
  rw [hopen] at hcurrent
  obtain rfl := Option.some.inj hcurrent
  exact hle

/-- A new document gets a generation that no document and no pass has yet. -/
theorem put (h : Sound m) (uri : Uri) (text : String) (version : Int) (queue : List Uri) :
    Sound { m with server := { m.server with store := m.server.store.put uri text version }, queue } where
  stored := by
    intro key document hkey
    dsimp only at hkey ⊢
    rw [Store.get?_put] at hkey
    rw [Store.lastGeneration_put]
    split at hkey
    · obtain rfl := Option.some.inj hkey
      exact Nat.le_refl _
    · have := h.stored key document hkey
      omega
  published := by
    intro key generation hkey
    obtain ⟨document, hopen, hle⟩ := h.published key generation hkey
    dsimp only
    rw [Store.get?_put]
    split
    · have := h.stored key document hopen
      exact ⟨_, rfl, by dsimp only; omega⟩
    · exact ⟨document, hopen, hle⟩
  cached := by
    intro key settings hkey
    obtain ⟨document, hopen⟩ := (Store.isOpen_iff ..).mp (h.cached key settings hkey)
    dsimp only
    rw [Store.isOpen_iff, Store.get?_put]
    split
    · exact ⟨_, rfl⟩
    · exact ⟨document, hopen⟩
  waiting := by
    intro ticket pass hwaits
    exact Nat.le_succ_of_le (h.waiting ticket pass hwaits)
  snapshot := by
    intro ticket pass hwaits document hopen hgeneration
    dsimp only at hopen
    rw [Store.get?_put] at hopen
    split at hopen
    · -- the new generation is above every one that waits
      obtain rfl := Option.some.inj hopen
      have := h.waiting ticket pass hwaits
      dsimp only at hgeneration
      omega
    · exact h.snapshot ticket pass hwaits document hopen hgeneration
  tickets := h.tickets
  distinct := h.distinct

theorem close (h : Sound m) (uri : Uri) (queue : List Uri) :
    Sound { m with server := { m.server with store := m.server.store.close uri }, queue } where
  stored := by
    intro key document hkey
    dsimp only at hkey ⊢
    rw [Store.get?_close] at hkey
    split at hkey
    · cases hkey
    · exact h.stored key document hkey
  published := by
    intro key generation hkey
    dsimp only at hkey ⊢
    rw [Store.latest_close] at hkey
    split at hkey
    · cases hkey
    · next hne =>
      obtain ⟨document, hopen, hle⟩ := h.published key generation hkey
      exact ⟨document, by rw [Store.get?_close, if_neg hne, hopen], hle⟩
  cached := by
    intro key settings hkey
    dsimp only at hkey ⊢
    rw [Store.cachedSettings_close] at hkey
    split at hkey
    · cases hkey
    · next hne =>
      obtain ⟨document, hopen⟩ := (Store.isOpen_iff ..).mp (h.cached key settings hkey)
      rw [Store.isOpen_iff, Store.get?_close, if_neg hne]
      exact ⟨document, hopen⟩
  waiting := h.waiting
  snapshot := by
    intro ticket pass hwaits document hopen hgeneration
    dsimp only at hopen
    rw [Store.get?_close] at hopen
    split at hopen
    · cases hopen
    · exact h.snapshot ticket pass hwaits document hopen hgeneration
  tickets := h.tickets
  distinct := h.distinct

theorem keeps (h : Sound m) {server : Server} (hkeeps : m.server.Keeps server) (queue : List Uri) :
    Sound { m with server, queue } where
  stored := by
    intro key document hkey
    dsimp only at hkey ⊢
    rw [hkeeps.get?] at hkey
    rw [hkeeps.lastGeneration]
    exact h.stored key document hkey
  published := by
    intro key generation hkey
    dsimp only at hkey ⊢
    rw [hkeeps.latest] at hkey
    rw [hkeeps.get?]
    exact h.published key generation hkey
  cached := by
    intro key settings hkey
    dsimp only at hkey ⊢
    rw [Store.isOpen_iff, hkeeps.get?, ← Store.isOpen_iff]
    exact (hkeeps.cached key settings hkey).elim (h.cached key settings) id
  waiting := by
    intro ticket pass hwaits
    dsimp only
    rw [hkeeps.lastGeneration]
    exact h.waiting ticket pass hwaits
  snapshot := by
    intro ticket pass hwaits document hopen hgeneration
    dsimp only at hopen
    rw [hkeeps.get?] at hopen
    exact h.snapshot ticket pass hwaits document hopen hgeneration
  tickets := h.tickets
  distinct := h.distinct

theorem record (h : Sound m) {uri : Uri} {generation : Nat}
    (hcurrent : m.server.store.isCurrent uri generation = true) (queue : List Uri) :
    Sound { m with
      server := { m.server with store := m.server.store.record uri generation }, queue } where
  stored := h.stored
  published := by
    intro key newest hkey
    dsimp only at hkey ⊢
    rw [Store.ledger_record, Ledger.latest_record] at hkey
    rw [Store.get?_record]
    split at hkey
    · next hrecorded =>
      obtain rfl := Option.some.inj hkey
      obtain ⟨document, hopen, rfl⟩ := (Store.isCurrent_iff ..).mp hcurrent
      exact ⟨document, by rw [hrecorded.1, hopen], Nat.le_refl _⟩
    · exact h.published key newest hkey
  cached := h.cached
  waiting := h.waiting
  snapshot := h.snapshot
  tickets := h.tickets
  distinct := h.distinct

/-- A pass over an open document begins to wait. -/
theorem wait (h : Sound m) {pass : Pass}
    (hopen : m.server.store.get? pass.uri = some pass.document) : Sound (m.stop (some pass)) where
  stored := h.stored
  published := h.published
  cached := h.cached
  waiting := by
    intro ticket other hwaits
    rcases List.mem_append.mp hwaits with hold | hnew
    · exact h.waiting ticket other hold
    · obtain ⟨-, rfl⟩ := Prod.mk.inj (List.mem_singleton.mp hnew)
      exact h.stored _ _ hopen
  snapshot := by
    intro ticket other hwaits document hdocument hgeneration
    rcases List.mem_append.mp hwaits with hold | hnew
    · exact h.snapshot ticket other hold document hdocument hgeneration
    · obtain ⟨-, rfl⟩ := Prod.mk.inj (List.mem_singleton.mp hnew)
      exact Option.some.inj (hdocument.symm.trans hopen)
  tickets := by
    intro ticket other hwaits
    rcases List.mem_append.mp hwaits with hold | hnew
    · exact Nat.lt_succ_of_lt (h.tickets ticket other hold)
    · obtain ⟨rfl, -⟩ := Prod.mk.inj (List.mem_singleton.mp hnew)
      exact Nat.lt_succ_self _
  distinct := by
    intro ticket first second hfirst hsecond
    rcases List.mem_append.mp hfirst with hfirst | hfirst <;>
      rcases List.mem_append.mp hsecond with hsecond | hsecond
    · exact h.distinct ticket first second hfirst hsecond
    · obtain ⟨rfl, -⟩ := Prod.mk.inj (List.mem_singleton.mp hsecond)
      exact absurd (h.tickets _ _ hfirst) (Nat.lt_irrefl _)
    · obtain ⟨rfl, -⟩ := Prod.mk.inj (List.mem_singleton.mp hfirst)
      exact absurd (h.tickets _ _ hsecond) (Nat.lt_irrefl _)
    · obtain ⟨-, rfl⟩ := Prod.mk.inj (List.mem_singleton.mp hfirst)
      obtain ⟨-, rfl⟩ := Prod.mk.inj (List.mem_singleton.mp hsecond)
      rfl

theorem unwait (h : Sound m) {waiting : List (Nat × Pass)} (hsub : waiting ⊆ m.waiting) :
    Sound { m with waiting } :=
  ⟨h.stored, h.published, h.cached, fun t p hp => h.waiting t p (hsub hp),
    fun t p hp => h.snapshot t p (hsub hp), fun t p hp => h.tickets t p (hsub hp),
    fun t p p' hp hp' => h.distinct t p p' (hsub hp) (hsub hp')⟩

theorem publish (h : Sound m) {server : Server} {uri : Uri} {document : Document}
    {settings : Settings} {events : List Event}
    (hpublish : m.server.publish uri document settings = (server, events)) (queue : List Uri) :
    Sound { m with server, queue } := by
  rcases Server.publish_cases hpublish with ⟨rfl, -, -⟩ | ⟨hcurrent, -, rfl, -⟩
  · exact h.keeps (.of_store rfl) queue
  · exact h.record hcurrent queue

end Sound

theorem Step.sound {m m' : Machine} {move : Move} {events : List Event}
    (hstep : Step m move events m') (h : Sound m) : Sound m' := by
  cases hstep with
  | call hidle haccept =>
      rcases Server.accept_cases haccept with
        ⟨uri, text, version, -, -, -, rfl⟩ | ⟨uri, -, -, -, rfl⟩ | ⟨-, -, hkeeps, -⟩
      · exact h.put uri text version _
      · exact h.close uri _
      · exact h.keeps hkeeps _
  | skip hqueue hclosed => exact h.keeps (.of_store rfl) _
  | ask hqueue hopen hunknown => exact h.wait hopen
  | finish hqueue hopen hknown hpublish => exact h.publish hpublish _
  | @answer ticket pass a received server settings events hidle hwaits hreceive hpublish =>
      have hreceived := h.keeps (Server.receive_keeps hreceive) []
      have hpublished := hreceived.publish hpublish pass.remaining
      exact hpublished.unwait List.filter_sublist.subset

theorem Run.sound {m₁ m₂ : Machine} {trace : List Entry} (hrun : Run m₁ trace m₂)
    (h : Sound m₁) : Sound m₂ := by
  induction hrun with
  | refl => exact h
  | tail _ hstep ih => exact hstep.sound ih

end ScenarioServer
