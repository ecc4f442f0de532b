import Mathlib.Data.List.DropRight
import Mathlib.Data.List.Induction
import ScenarioServer.Documents

/-!
# The ledger against its history

A history is the list of operations that were done on a ledger, which starts empty. What the ledger
answers for a document can be read off the generations that were offered for it since it was last
forgotten (`Ledger.offered`): the newest generation is their maximum (`Ledger.latest_after`). A refused
offer counts among them as well, for it is below one that came before.

A transcript has the answers that a run of operations gets. Until a document is forgotten, what is
accepted for it never goes down (`Ledger.pairwise_accepted`), and its part of a transcript is the
transcript of its own operations (`Ledger.transcript_filter`).

Generations are only compared, never computed with, so none of this depends on how large they are.
-/

namespace ScenarioServer

namespace Ledger

/-! ## Operations and what they answer -/

/-- An operation on the ledger: a generation is offered for publication, a document is forgotten, or
the newest generation of a document is asked for. -/
inductive Operation where
  | offer (uri : Uri) (generation : Nat)
  | forget (uri : Uri)
  | ask (uri : Uri)
deriving DecidableEq

namespace Operation

/-- The document that the operation is about. -/
def uri : Operation → Uri
  | .offer uri _ | .forget uri | .ask uri => uri

/-- The generation that the operation offers for a document. -/
def offer? (uri : Uri) : Operation → Option Nat
  | .offer target generation => if target = uri then some generation else none
  | _ => none

/-- An operation on a document is one of three; any other is on another document. -/
theorem about (op : Operation) (uri : Uri) :
    (∃ generation, op = .offer uri generation) ∨ op = .forget uri ∨ op = .ask uri ∨
      op.uri ≠ uri := by
  by_cases huri : op.uri = uri
  · subst huri
    cases op <;> simp [Operation.uri]
  · exact Or.inr (Or.inr (Or.inr huri))

theorem ne_forget_of_ne {op : Operation} {uri : Uri} (hop : op.uri ≠ uri) : op ≠ .forget uri := by
  rintro rfl
  exact hop rfl

theorem offer?_of_ne {op : Operation} {uri : Uri} (hop : op.uri ≠ uri) : op.offer? uri = none := by
  cases op with
  | offer target generation => exact if_neg hop
  | forget | ask => rfl

end Operation

/-- What an operation answers. -/
inductive Response where
  | admitted (accepted : Bool)
  | forgotten
  | newest (generation? : Option Nat)
deriving DecidableEq

/-- Does an operation: the ledger that it leaves, and its answer. -/
def call (ledger : Ledger) : Operation → Ledger × Response
  | .offer uri generation =>
      (ledger.record uri generation, .admitted (ledger.admits uri generation))
  | .forget uri => (ledger.forget uri, .forgotten)
  | .ask uri => (ledger, .newest (ledger.latest uri))

/-- The ledger that a history leaves. -/
def after (history : List Operation) : Ledger :=
  history.foldl (fun ledger op => (ledger.call op).1) {}

/-- Operations done one after another, each with its answer. -/
def transcript (ledger : Ledger) : List Operation → List (Operation × Response)
  | [] => []
  | op :: rest => (op, (ledger.call op).2) :: (ledger.call op).1.transcript rest

/-- The generations that a history offers for a document since it was last forgotten, accepted or
not. -/
def offered (uri : Uri) (history : List Operation) : List Nat :=
  (history.rtakeWhile (· ≠ .forget uri)).filterMap (·.offer? uri)

/-- The generation that was accepted for a document. -/
def accepted? (uri : Uri) : Operation × Response → Option Nat
  | (op, .admitted true) => op.offer? uri
  | _ => none

/-- The generations that were accepted for a document, in order. -/
def accepted (uri : Uri) (entries : List (Operation × Response)) : List Nat :=
  entries.filterMap (accepted? uri)

variable {ledger : Ledger} {uri : Uri} {op : Operation} {history : List Operation}

@[simp] theorem after_concat (history : List Operation) (op : Operation) :
    after (history ++ [op]) = ((after history).call op).1 := by
  simp [after]

theorem offered_concat_forget (history : List Operation) (uri : Uri) :
    offered uri (history ++ [.forget uri]) = [] := by
  rw [offered, List.rtakeWhile_concat_neg _ _ _ (by simp), List.filterMap_nil]

theorem offered_concat (hop : op ≠ .forget uri) :
    offered uri (history ++ [op]) = offered uri history ++ (op.offer? uri).toList := by
  rw [offered, List.rtakeWhile_concat_pos _ _ _ (by simpa using hop), List.filterMap_append]
  cases hoffer : op.offer? uri <;> simp [offered, hoffer]

/-! ## One operation, seen from one document -/

theorem latest_call_of_ne (ledger : Ledger) (hop : op.uri ≠ uri) :
    (ledger.call op).1.latest uri = ledger.latest uri := by
  cases op with
  | offer target generation =>
      exact (latest_record ..).trans (if_neg fun hboth => hop hboth.1.symm)
  | forget target => exact (latest_forget ..).trans (if_neg (Ne.symm hop))
  | ask => rfl

/-- A refused generation leaves the ledger as it is. -/
theorem record_of_refused {generation : Nat} (hrefused : ledger.admits uri generation = false) :
    ledger.record uri generation = ledger := by
  simp [record, hrefused]

/-- Where the newest generation is the maximum of some offers, a further one is admitted exactly if
it is at least all of them. -/
theorem admits_iff_of_max {offers : List Nat} (h : ledger.latest uri = offers.max?)
    (generation : Nat) :
    ledger.admits uri generation = true ↔ ∀ offer ∈ offers, offer ≤ generation := by
  rw [admits_iff, h]
  constructor
  · intro hnewest offer hoffer
    cases hmax : offers.max? with
    | none => simp [List.max?_eq_none_iff.mp hmax] at hoffer
    | some newest =>
        exact ((List.max?_eq_some_iff.mp hmax).2 offer hoffer).trans (hnewest newest hmax)
  · intro hoffers newest hmax
    exact hoffers newest (List.max?_mem hmax)

/-- The newest generation stays the maximum of the offers, also of one that is refused. -/
theorem latest_record_of_max {offers : List Nat} (h : ledger.latest uri = offers.max?)
    (generation : Nat) :
    (ledger.record uri generation).latest uri = (offers ++ [generation]).max? := by
  by_cases hadmits : ledger.admits uri generation = true
  · rw [latest_record, if_pos ⟨rfl, hadmits⟩, eq_comm, List.max?_eq_some_iff]
    have hoffers := (admits_iff_of_max h generation).mp hadmits
    simpa [or_imp, forall_and] using hoffers
  · -- A refused offer is below the newest generation, which so remains the maximum.
    rw [record_of_refused (Bool.eq_false_iff.mpr hadmits)]
    rw [admits_iff] at hadmits
    push Not at hadmits
    obtain ⟨newest, hnewest, hlt⟩ := hadmits
    obtain ⟨hmem, hoffers⟩ := List.max?_eq_some_iff.mp (h.symm.trans hnewest)
    rw [hnewest, eq_comm, List.max?_eq_some_iff]
    refine ⟨List.mem_append_left _ hmem, fun offer hoffer => ?_⟩
    rcases List.mem_append.mp hoffer with hoffer | hoffer
    · exact hoffers offer hoffer
    · rw [List.mem_singleton.mp hoffer]
      exact hlt.le

/-- One operation keeps the newest generation the maximum of the offers since the document was last
forgotten. -/
theorem latest_call_of_max (h : ledger.latest uri = (offered uri history).max?) (op : Operation) :
    (ledger.call op).1.latest uri = (offered uri (history ++ [op])).max? := by
  rcases op.about uri with ⟨generation, rfl⟩ | rfl | rfl | hop
  · rw [offered_concat (by simp), Operation.offer?, if_pos rfl]
    exact latest_record_of_max h generation
  · rw [offered_concat_forget]
    exact (latest_forget ..).trans (if_pos rfl)
  · rw [offered_concat (by simp)]
    simpa [Operation.offer?, call] using h
  · rw [offered_concat (Operation.ne_forget_of_ne hop), Operation.offer?_of_ne hop,
      Option.toList_none, List.append_nil]
    exact (latest_call_of_ne ledger hop).trans h

/-- The newest generation of a document is the maximum of those offered since it was last
forgotten. -/
theorem latest_after (history : List Operation) (uri : Uri) :
    (after history).latest uri = (offered uri history).max? := by
  induction history using List.reverseRecOn with
  | nil => rfl
  | append_singleton history op ih =>
      rw [after_concat]
      exact latest_call_of_max ih op

/-! ## What is accepted -/

theorem accepted?_call_eq_some_iff {generation : Nat} :
    accepted? uri (op, (ledger.call op).2) = some generation ↔
      op = .offer uri generation ∧ ledger.admits uri generation = true := by
  cases op with
  | offer target offer =>
      constructor
      · intro haccepted
        cases hadmits : ledger.admits target offer with
        | false => simp [call, accepted?, hadmits] at haccepted
        | true =>
            obtain ⟨rfl, rfl⟩ : target = uri ∧ offer = generation := by
              simpa [call, accepted?, Operation.offer?, hadmits] using haccepted
            exact ⟨rfl, hadmits⟩
      · rintro ⟨⟨⟩, hadmits⟩
        simp [call, accepted?, Operation.offer?, hadmits]
  | forget | ask => simp [call, accepted?]

/-- While a document is not forgotten its newest generation does not go down. -/
theorem le_latest_call {newest : Nat} (hlatest : ledger.latest uri = some newest)
    (hop : op ≠ .forget uri) :
    ∃ newest', (ledger.call op).1.latest uri = some newest' ∧ newest ≤ newest' := by
  rcases op.about uri with ⟨generation, rfl⟩ | rfl | rfl | huri
  · by_cases hadmits : ledger.admits uri generation = true
    · refine ⟨generation, ?_, (admits_iff ..).mp hadmits newest hlatest⟩
      exact (latest_record ..).trans (if_pos ⟨rfl, hadmits⟩)
    · refine ⟨newest, ?_, le_rfl⟩
      rw [call, record_of_refused (Bool.eq_false_iff.mpr hadmits), hlatest]
  · exact absurd rfl hop
  · exact ⟨newest, hlatest, le_rfl⟩
  · exact ⟨newest, (latest_call_of_ne ledger huri).trans hlatest, le_rfl⟩

/-- What is accepted is at least the newest generation that the ledger began with. -/
theorem le_of_mem_accepted {ops : List Operation} {newest generation : Nat}
    (hlatest : ledger.latest uri = some newest) (hops : .forget uri ∉ ops)
    (hmem : generation ∈ accepted uri (ledger.transcript ops)) : newest ≤ generation := by
  induction ops generalizing ledger newest with
  | nil => simp [transcript, accepted] at hmem
  | cons op rest ih =>
      obtain ⟨hop, hrest⟩ := List.ne_and_not_mem_of_not_mem_cons hops
      rw [accepted, transcript, List.mem_filterMap] at hmem
      obtain ⟨entry, hentry, haccepted⟩ := hmem
      rcases List.mem_cons.mp hentry with rfl | hentry
      · obtain ⟨-, hadmits⟩ := accepted?_call_eq_some_iff.mp haccepted
        exact (admits_iff ..).mp hadmits newest hlatest
      · -- The bound to go on with is the newest generation after `op`, refused or not.
        obtain ⟨newest', hlatest', hle⟩ := le_latest_call hlatest (Ne.symm hop)
        exact hle.trans (ih hlatest' hrest (List.mem_filterMap.mpr ⟨entry, hentry, haccepted⟩))

/-- As long as a document is not forgotten, the generations accepted for it never go down. -/
theorem pairwise_accepted (ledger : Ledger) {ops : List Operation} (hops : .forget uri ∉ ops) :
    (accepted uri (ledger.transcript ops)).Pairwise (· ≤ ·) := by
  induction ops generalizing ledger with
  | nil => exact List.Pairwise.nil
  | cons op rest ih =>
      obtain ⟨-, hrest⟩ := List.ne_and_not_mem_of_not_mem_cons hops
      rw [accepted, transcript, List.filterMap_cons]
      split
      · exact ih _ hrest
      · next generation haccepted =>
          obtain ⟨rfl, hadmits⟩ := accepted?_call_eq_some_iff.mp haccepted
          have hlatest : (ledger.record uri generation).latest uri = some generation := by
            simp [latest_record, hadmits]
          exact List.pairwise_cons.mpr
            ⟨fun _ => le_of_mem_accepted hlatest hrest, ih _ hrest⟩

/-! ## One document among others -/

/-- Two ledgers with the same newest generation of a document answer alike about it. -/
theorem call_congr {ledger' : Ledger} (h : ledger.latest op.uri = ledger'.latest op.uri) :
    (ledger.call op).2 = (ledger'.call op).2 ∧
      (ledger.call op).1.latest op.uri = (ledger'.call op).1.latest op.uri := by
  cases op with
  | offer target generation =>
      have hadmits : ledger.admits target generation = ledger'.admits target generation := by
        unfold admits
        rw [show ledger.latest target = ledger'.latest target from h]
      refine ⟨congrArg Response.admitted hadmits, ?_⟩
      simp only [call, Operation.uri, latest_record, hadmits] at h ⊢
      rw [h]
  | forget target => exact ⟨rfl, by simp [call, Operation.uri, latest_forget]⟩
  | ask target => exact ⟨congrArg Response.newest h, h⟩

/-- What is seen of a document is the same without the operations on others. -/
theorem transcript_filter {ledger' : Ledger} (h : ledger.latest uri = ledger'.latest uri)
    (ops : List Operation) :
    (ledger.transcript ops).filter (·.1.uri = uri) =
      ledger'.transcript (ops.filter (·.uri = uri)) := by
  induction ops generalizing ledger ledger' with
  | nil => rfl
  | cons op rest ih =>
      by_cases hop : op.uri = uri
      · subst hop
        obtain ⟨hanswer, hlatest⟩ := call_congr h
        simp [transcript, hanswer, ih hlatest]
      · simpa [transcript, hop] using ih ((latest_call_of_ne ledger hop).trans h)

/-- Whatever has been done on a ledger: asked for the newest generation of a document it answers with
the maximum of all that were offered since the document was last forgotten, or with nothing if there
were none; it accepts a generation exactly if it is at least all of these, so also the newest one
again; and it stays as it is when it refuses one. What it goes on to accept until the document is
forgotten never goes down. And every answer about a document is the one that it would give if nothing
had been done for others. -/
theorem latest_is_maximum (history : List Operation) (uri : Uri) :
    ((after history).call (.ask uri)).2 = .newest (offered uri history).max? ∧
    (∀ generation, ((after history).call (.offer uri generation)).2 = .admitted true ↔
      ∀ offer ∈ offered uri history, offer ≤ generation) ∧
    (∀ newest, (after history).latest uri = some newest →
      ((after history).call (.offer uri newest)).2 = .admitted true) ∧
    (∀ generation, ((after history).call (.offer uri generation)).2 = .admitted false →
      ((after history).call (.offer uri generation)).1 = after history) ∧
    (∀ later, .forget uri ∉ later →
      (accepted uri ((after history).transcript later)).Pairwise (· ≤ ·)) ∧
    (transcript {} history).filter (·.1.uri = uri) =
      transcript {} (history.filter (·.uri = uri)) := by
  have hlatest := latest_after history uri
  refine ⟨congrArg Response.newest hlatest, ?_, ?_, ?_, ?_, transcript_filter rfl history⟩
  · intro generation
    rw [← admits_iff_of_max hlatest]
    simp only [call, Response.admitted.injEq]
  · intro newest hnewest
    have hadmits : (after history).admits uri newest = true := by
      rw [admits_iff_of_max hlatest]
      exact (List.max?_eq_some_iff.mp (hlatest.symm.trans hnewest)).2
    exact congrArg Response.admitted hadmits
  · intro generation hrefused
    exact record_of_refused (Response.admitted.inj hrefused)
  · intro later hlater
    exact pairwise_accepted _ hlater

/-- A document that was forgotten is published at 2 and at 5. Passes over it that began at 1 and at 4
end too late, and another document is far ahead of it. -/
def lateOffers (uri other : Uri) : List Operation :=
  [.offer uri 8, .forget uri, .offer uri 2, .offer other 9, .offer uri 1, .offer uri 5, .offer uri 4]

theorem latest_is_maximum_of_lateOffers : ∃ (uri other : Uri) (later : List Operation),
    offered uri (lateOffers uri other) = [2, 1, 5, 4] ∧
    ((after (lateOffers uri other)).call (.ask uri)).2 = .newest (some 5) ∧
    ((after (lateOffers uri other)).call (.offer uri 5)).2 = .admitted true ∧
    ((after (lateOffers uri other)).call (.offer uri 4)).2 = .admitted false ∧
    ((after (lateOffers uri other)).call (.offer uri 4)).1 = after (lateOffers uri other) ∧
    .forget uri ∉ later ∧
    accepted uri ((after (lateOffers uri other)).transcript later) = [5, 7] ∧
    (accepted uri ((after (lateOffers uri other)).transcript later)).Pairwise (· ≤ ·) := by
  let uri : Uri := { scheme := "file", authority := some {}, path := "/w/login.tacl" }
  let other : Uri := { scheme := "file", authority := some {}, path := "/w/logout.tacl" }
  let later : List Operation := [.offer uri 5, .forget other, .offer uri 3, .offer uri 7]
  obtain ⟨hnewest, -, hagain, hrefused, hordered, -⟩ := latest_is_maximum (lateOffers uri other) uri
  have hlater : .forget uri ∉ later := by decide
  exact ⟨uri, other, later, by decide, hnewest, hagain 5 (by decide), by decide,
    hrefused 4 (by decide), hlater, by decide, hordered later hlater⟩

end Ledger

end ScenarioServer
