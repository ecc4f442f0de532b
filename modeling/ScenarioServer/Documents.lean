import ScenarioServer.Settings
import ScenarioServer.Uri.Basic

/-!
# Open documents

Maps keyed by URI, and the two records that are kept by them: what is open, and what has been
published.
-/

namespace ScenarioServer

/-!
## Maps keyed by URI

A finite map from URIs, seen through `get?`; `get?_insert` and `get?_erase` say what the operations
do to that view. No URI has two entries, so the keys list every URI of the map once. The entries are
kept in the order of their last insertion; nothing that the program shows depends on that order.
-/

/-- A finite map from URIs. -/
structure UriMap (α : Type) where
  entries : List (Uri × α) := []
  nodup : (entries.map Prod.fst).Nodup := by simp
deriving Repr, DecidableEq

namespace UriMap

variable {α : Type}

def empty : UriMap α := {}

def get? (map : UriMap α) (uri : Uri) : Option α := map.entries.lookup uri

def erase (map : UriMap α) (uri : Uri) : UriMap α where
  entries := map.entries.filter (·.1 ≠ uri)
  nodup := map.nodup.sublist (List.filter_sublist.map Prod.fst)

def insert (map : UriMap α) (uri : Uri) (value : α) : UriMap α where
  entries := (map.erase uri).entries ++ [(uri, value)]
  nodup := by
    rw [List.map_append, List.nodup_append]
    refine ⟨(map.erase uri).nodup, by simp, ?_⟩
    simp +contextual [erase]

def contains (map : UriMap α) (uri : Uri) : Bool := (map.get? uri).isSome

def keys (map : UriMap α) : List Uri := map.entries.map Prod.fst

def size (map : UriMap α) : Nat := map.entries.length

theorem nodup_keys (map : UriMap α) : map.keys.Nodup := map.nodup

@[simp] theorem get?_empty (uri : Uri) : (empty : UriMap α).get? uri = none := rfl

theorem get?_erase (map : UriMap α) (uri key : Uri) :
    (map.erase uri).get? key = if key = uri then none else map.get? key := by
  obtain ⟨entries, _⟩ := map
  simp only [get?, erase]
  induction entries with
  | nil => simp
  | cons entry rest ih =>
    obtain ⟨k, v⟩ := entry
    have ih := ih (by simp_all)
    by_cases hk : k = uri
    · subst hk
      by_cases hkey : key = k
      · simpa [hkey] using ih
      · simpa [List.lookup_cons, hkey, beq_eq_false_iff_ne.2 hkey] using ih
    · by_cases hkey : key = k
      · simp [hk, hkey]
      · simpa [hk, List.lookup_cons, beq_eq_false_iff_ne.2 hkey] using ih

@[simp] theorem get?_erase_self (map : UriMap α) (uri : Uri) : (map.erase uri).get? uri = none := by
  simp [get?_erase]

theorem get?_insert (map : UriMap α) (uri key : Uri) (value : α) :
    (map.insert uri value).get? key = if key = uri then some value else map.get? key := by
  have h := get?_erase map uri key
  simp only [get?] at h
  simp only [get?, insert, List.lookup_append, h]
  by_cases hkey : key = uri
  · simp [hkey]
  · simp [hkey, List.lookup_cons, beq_eq_false_iff_ne.2 hkey]

@[simp] theorem get?_insert_self (map : UriMap α) (uri : Uri) (value : α) :
    (map.insert uri value).get? uri = some value := by
  simp [get?_insert]

/-- The keys are the URIs that have a value. -/
theorem mem_keys_iff (map : UriMap α) (uri : Uri) : uri ∈ map.keys ↔ (map.get? uri).isSome := by
  simp [keys, get?]

end UriMap

/-!
## The publish ledger

For every document the newest generation whose diagnostics were published. Passes over one document
may end out of order; the ledger refuses one that is older than what has already been published. The
ledger is seen through `latest`: `latest_record` and `latest_forget` say what its operations do.
-/

/-- The newest published generation of each document. -/
structure Ledger where
  published : UriMap Nat := .empty
deriving Repr, DecidableEq

namespace Ledger

def latest (ledger : Ledger) (uri : Uri) : Option Nat := ledger.published.get? uri

/-- Whether a generation may be published: no newer one has been. -/
def admits (ledger : Ledger) (uri : Uri) (generation : Nat) : Bool :=
  match ledger.latest uri with
  | some newest => newest ≤ generation
  | none => true

/-- Records a publication, unless a newer one has been made. -/
def record (ledger : Ledger) (uri : Uri) (generation : Nat) : Ledger :=
  if ledger.admits uri generation then ⟨ledger.published.insert uri generation⟩ else ledger

def forget (ledger : Ledger) (uri : Uri) : Ledger := ⟨ledger.published.erase uri⟩

@[simp] theorem latest_empty (uri : Uri) : ({} : Ledger).latest uri = none := rfl

theorem admits_iff (ledger : Ledger) (uri : Uri) (generation : Nat) :
    ledger.admits uri generation = true ↔
      ∀ newest, ledger.latest uri = some newest → newest ≤ generation := by
  unfold admits
  split <;> simp_all

/-- A publication that the ledger admits becomes the newest of its document, and nothing else
changes. -/
theorem latest_record (ledger : Ledger) (uri key : Uri) (generation : Nat) :
    (ledger.record uri generation).latest key =
      if key = uri ∧ ledger.admits uri generation = true then some generation
      else ledger.latest key := by
  unfold record
  split
  · next h => simp [latest, UriMap.get?_insert, h]
  · next h => simp [h]

/-- Nothing is left of a document that was forgotten, and nothing else changes. -/
theorem latest_forget (ledger : Ledger) (uri key : Uri) :
    (ledger.forget uri).latest key = if key = uri then none else ledger.latest key := by
  simp only [latest, forget, UriMap.get?_erase]

end Ledger

/-!
## Open documents

The store holds the open documents, the settings resolved for each of them, and the publish ledger.
Every open and every change gives the document a generation from one counter for the whole store, so
a generation never comes back, not even when a document is closed and opened again under the same
version.
-/

/-- An open document. Its version is the client's, its generation the store's. -/
structure Document where
  text : String
  version : Int
  generation : Nat
deriving Repr, DecidableEq

/-- The open documents with everything kept about them. -/
structure Store where
  documents : UriMap Document := .empty
  settings : UriMap Settings := .empty
  ledger : Ledger := {}
  lastGeneration : Nat := 0
deriving Repr, DecidableEq

namespace Store

def get? (store : Store) (uri : Uri) : Option Document := store.documents.get? uri

def isOpen (store : Store) (uri : Uri) : Bool := store.documents.contains uri

/-- Sets text and version of a document, under a new generation. -/
def put (store : Store) (uri : Uri) (text : String) (version : Int) : Store :=
  let generation := store.lastGeneration + 1
  { store with
    documents := store.documents.insert uri { text, version, generation }
    lastGeneration := generation }

/-- Closes a document and forgets everything about it. -/
def close (store : Store) (uri : Uri) : Store :=
  { store with
    documents := store.documents.erase uri
    settings := store.settings.erase uri
    ledger := store.ledger.forget uri }

/-- Whether a document is open and still at the given generation. -/
def isCurrent (store : Store) (uri : Uri) (generation : Nat) : Bool :=
  match store.get? uri with
  | some document => document.generation = generation
  | none => false

def uris (store : Store) : List Uri := store.documents.keys

def size (store : Store) : Nat := store.documents.size

/-- The settings resolved for a document. -/
def cachedSettings (store : Store) (uri : Uri) : Option Settings := store.settings.get? uri

/-- Keeps the settings of a document, if it is open. -/
def cacheSettings (store : Store) (uri : Uri) (settings : Settings) : Store :=
  if store.isOpen uri then { store with settings := store.settings.insert uri settings } else store

def clearSettings (store : Store) : Store := { store with settings := {} }

/-- Records a publication in the ledger, unless a newer one has been made. -/
def record (store : Store) (uri : Uri) (generation : Nat) : Store :=
  { store with ledger := store.ledger.record uri generation }

def forget (store : Store) (uri : Uri) : Store :=
  { store with ledger := store.ledger.forget uri }

/-! ### What the operations do -/

@[simp] theorem get?_empty (uri : Uri) : ({} : Store).get? uri = none := rfl

theorem get?_put (store : Store) (uri key : Uri) (text : String) (version : Int) :
    (store.put uri text version).get? key =
      if key = uri then some ⟨text, version, store.lastGeneration + 1⟩ else store.get? key := by
  simp only [get?, put, UriMap.get?_insert]

theorem get?_close (store : Store) (uri key : Uri) :
    (store.close uri).get? key = if key = uri then none else store.get? key := by
  simp only [get?, close, UriMap.get?_erase]

theorem cachedSettings_close (store : Store) (uri key : Uri) :
    (store.close uri).cachedSettings key =
      if key = uri then none else store.cachedSettings key := by
  simp only [cachedSettings, close, UriMap.get?_erase]

/-- Settings are kept for an open document only, and only its own change. -/
theorem cachedSettings_cacheSettings (store : Store) (uri key : Uri) (settings : Settings) :
    (store.cacheSettings uri settings).cachedSettings key =
      if key = uri ∧ store.isOpen uri = true then some settings else store.cachedSettings key := by
  unfold cacheSettings
  split
  · next h => simp [cachedSettings, UriMap.get?_insert, h]
  · next h => simp [h]

@[simp] theorem latest_close (store : Store) (uri key : Uri) :
    (store.close uri).ledger.latest key = if key = uri then none else store.ledger.latest key :=
  store.ledger.latest_forget uri key

@[simp] theorem ledger_record (store : Store) (uri : Uri) (generation : Nat) :
    (store.record uri generation).ledger = store.ledger.record uri generation := rfl

@[simp] theorem lastGeneration_put (store : Store) (uri : Uri) (text : String) (version : Int) :
    (store.put uri text version).lastGeneration = store.lastGeneration + 1 := rfl

@[simp] theorem cachedSettings_clearSettings (store : Store) (uri : Uri) :
    store.clearSettings.cachedSettings uri = none := rfl

/-! An operation leaves alone what it is not about. -/

@[simp] theorem ledger_put (store : Store) (uri : Uri) (text : String) (version : Int) :
    (store.put uri text version).ledger = store.ledger := rfl

@[simp] theorem cachedSettings_put (store : Store) (uri key : Uri) (text : String) (version : Int) :
    (store.put uri text version).cachedSettings key = store.cachedSettings key := rfl

@[simp] theorem lastGeneration_close (store : Store) (uri : Uri) :
    (store.close uri).lastGeneration = store.lastGeneration := rfl

@[simp] theorem get?_record (store : Store) (uri key : Uri) (generation : Nat) :
    (store.record uri generation).get? key = store.get? key := rfl

@[simp] theorem cachedSettings_record (store : Store) (uri key : Uri) (generation : Nat) :
    (store.record uri generation).cachedSettings key = store.cachedSettings key := rfl

@[simp] theorem lastGeneration_record (store : Store) (uri : Uri) (generation : Nat) :
    (store.record uri generation).lastGeneration = store.lastGeneration := rfl

@[simp] theorem get?_clearSettings (store : Store) (key : Uri) :
    store.clearSettings.get? key = store.get? key := rfl

@[simp] theorem ledger_clearSettings (store : Store) : store.clearSettings.ledger = store.ledger :=
  rfl

@[simp] theorem lastGeneration_clearSettings (store : Store) :
    store.clearSettings.lastGeneration = store.lastGeneration := rfl

@[simp] theorem get?_cacheSettings (store : Store) (uri key : Uri) (settings : Settings) :
    (store.cacheSettings uri settings).get? key = store.get? key := by
  unfold cacheSettings
  split <;> rfl

@[simp] theorem ledger_cacheSettings (store : Store) (uri : Uri) (settings : Settings) :
    (store.cacheSettings uri settings).ledger = store.ledger := by
  unfold cacheSettings
  split <;> rfl

@[simp] theorem lastGeneration_cacheSettings (store : Store) (uri : Uri) (settings : Settings) :
    (store.cacheSettings uri settings).lastGeneration = store.lastGeneration := by
  unfold cacheSettings
  split <;> rfl

theorem isOpen_iff (store : Store) (uri : Uri) :
    store.isOpen uri = true ↔ ∃ document, store.get? uri = some document := by
  simp only [isOpen, UriMap.contains, get?, Option.isSome_iff_exists]

theorem nodup_uris (store : Store) : store.uris.Nodup := store.documents.nodup_keys

theorem mem_uris_iff (store : Store) (uri : Uri) :
    uri ∈ store.uris ↔ ∃ document, store.get? uri = some document := by
  simp only [uris, UriMap.mem_keys_iff, get?, Option.isSome_iff_exists]

theorem isCurrent_iff (store : Store) (uri : Uri) (generation : Nat) :
    store.isCurrent uri generation = true ↔
      ∃ document, store.get? uri = some document ∧ document.generation = generation := by
  unfold isCurrent
  split <;> simp_all

end Store

end ScenarioServer
