import Mathlib.Data.List.Induction
import ScenarioServer.Documents

/-!
# The store against its history

A history is the list of operations that were done on a store, which starts empty. What the store
answers can be read off the history (`Store.get?_after_iff`): a document is the one that was set last
under its URI, if it has not been closed since, and its generation is the number of documents that
had been set by then, under whatever URI.

So a generation is never given out twice, and it tells whether a document is still the one that was
read: `Store.answers_follow_history` has both, for every history.
-/

namespace ScenarioServer

namespace Store

/-! ## Histories -/

/-- An operation on the store. Reading leaves the store as it is, so a history need not hold it. -/
inductive Operation where
  | opened (uri : Uri) (text : String) (version : Int)
  | changed (uri : Uri) (text : String) (version : Int)
  | closed (uri : Uri)
  | cached (uri : Uri) (settings : Settings)
  | cleared
  | admitted (uri : Uri) (generation : Nat)
  | forgotten (uri : Uri)

namespace Operation

/-- What the operation sets: a URI with its text and version. -/
def put? : Operation → Option (Uri × String × Int)
  | .opened uri text version | .changed uri text version => some (uri, text, version)
  | _ => none

/-- The operation sets or closes the document. -/
def Touches (uri : Uri) : Operation → Prop
  | .opened target _ _ | .changed target _ _ | .closed target => target = uri
  | _ => False

end Operation

def apply (store : Store) : Operation → Store
  | .opened uri text version | .changed uri text version => store.put uri text version
  | .closed uri => store.close uri
  | .cached uri settings => store.cacheSettings uri settings
  | .cleared => store.clearSettings
  | .admitted uri generation => store.record uri generation
  | .forgotten uri => store.forget uri

/-- The store that a history leaves. -/
def after (history : List Operation) : Store := history.foldl apply {}

/-- The number of documents that a history sets, and so of the generations it gives out. -/
def issued (history : List Operation) : Nat := history.countP (·.put?.isSome)

@[simp] theorem after_concat (history : List Operation) (op : Operation) :
    after (history ++ [op]) = (after history).apply op := by
  simp [after]

theorem issued_append (history later : List Operation) :
    issued (history ++ later) = issued history + issued later :=
  List.countP_append

theorem issued_cons_of_put {op : Operation} {document : Uri × String × Int}
    (hput : op.put? = some document) (later : List Operation) :
    issued (op :: later) = issued later + 1 := by
  simp [issued, hput]

/-! ## One operation, seen from one document -/

theorem get?_apply_cases (op : Operation) (uri : Uri) :
    (∃ text version, op.put? = some (uri, text, version) ∧ op.Touches uri ∧
      ∀ store : Store, (store.apply op).get? uri =
        some ⟨text, version, store.lastGeneration + 1⟩) ∨
    (op.put? = none ∧ op.Touches uri ∧ ∀ store : Store, (store.apply op).get? uri = none) ∨
    (¬op.Touches uri ∧ (∀ text version, op.put? ≠ some (uri, text, version)) ∧
      ∀ store : Store, (store.apply op).get? uri = store.get? uri) := by
  cases op with
  | opened target text version | changed target text version =>
      by_cases huri : target = uri
      · subst huri
        exact Or.inl ⟨text, version, rfl, rfl, fun store => by simp [apply, get?_put]⟩
      · refine Or.inr (Or.inr ⟨huri, fun text' version' hput => ?_, fun store => ?_⟩)
        · exact huri (Prod.mk.inj (Option.some.inj hput)).1
        · simp [apply, get?_put, Ne.symm huri]
  | closed target =>
      by_cases huri : target = uri
      · subst huri
        exact Or.inr (Or.inl ⟨rfl, rfl, fun store => by simp [apply, get?_close]⟩)
      · refine Or.inr (Or.inr ⟨huri, by simp [Operation.put?], fun store => ?_⟩)
        simp [apply, get?_close, Ne.symm huri]
  | cached target settings =>
      refine Or.inr (Or.inr ⟨id, by simp [Operation.put?], fun store => ?_⟩)
      exact store.get?_cacheSettings target uri settings
  | cleared | admitted | forgotten =>
      exact Or.inr (Or.inr ⟨id, by simp [Operation.put?], fun store => rfl⟩)

theorem lastGeneration_apply (store : Store) (op : Operation) :
    (store.apply op).lastGeneration = store.lastGeneration + issued [op] := by
  cases op with
  | opened | changed | closed | cleared | admitted | forgotten => rfl
  | cached => exact lastGeneration_cacheSettings ..

/-- The counter has gone up once for every document that was set. -/
theorem lastGeneration_after (history : List Operation) :
    (after history).lastGeneration = issued history := by
  induction history using List.reverseRecOn with
  | nil => rfl
  | append_singleton history op ih =>
      rw [after_concat, lastGeneration_apply, ih, issued_append]

/-! ## The whole history -/

/-- After the operations `earlier` the document got this text and version, and nothing in the rest of
the history sets or closes it. -/
def SetLast (history : List Operation) (uri : Uri) (earlier : List Operation) (text : String)
    (version : Int) : Prop :=
  ∃ op later, history = earlier ++ op :: later ∧ op.put? = some (uri, text, version) ∧
    ∀ o ∈ later, ¬o.Touches uri

theorem setLast_concat_iff {history earlier : List Operation} {op : Operation} {uri : Uri}
    {text : String} {version : Int} :
    SetLast (history ++ [op]) uri earlier text version ↔
      (earlier = history ∧ op.put? = some (uri, text, version)) ∨
      (¬op.Touches uri ∧ SetLast history uri earlier text version) := by
  constructor
  · rintro ⟨setting, later, hhistory, hput, hlater⟩
    rcases List.eq_nil_or_concat later with rfl | ⟨front, last, rfl⟩
    · obtain ⟨rfl, hop⟩ := List.append_inj' hhistory rfl
      obtain rfl := List.singleton_inj.mp hop
      exact Or.inl ⟨rfl, hput⟩
    · rw [List.concat_eq_append, ← List.cons_append, ← List.append_assoc] at hhistory
      obtain ⟨rfl, hop⟩ := List.append_inj' hhistory rfl
      obtain rfl := List.singleton_inj.mp hop
      refine Or.inr ⟨hlater op (by simp), setting, front, rfl, hput, fun o ho => ?_⟩
      exact hlater o (by simp [ho])
  · rintro (⟨rfl, hput⟩ | ⟨hop, setting, later, rfl, hput, hlater⟩)
    · exact ⟨op, [], rfl, hput, by simp⟩
    · refine ⟨setting, later ++ [op], by simp, hput, fun o ho => ?_⟩
      rcases List.mem_append.mp ho with ho | ho
      · exact hlater o ho
      · obtain rfl := List.mem_singleton.mp ho
        exact hop

theorem SetLast.append {history earlier later : List Operation} {uri : Uri} {text : String}
    {version : Int} (h : SetLast history uri earlier text version)
    (hlater : ∀ o ∈ later, ¬o.Touches uri) :
    SetLast (history ++ later) uri earlier text version := by
  obtain ⟨op, between, rfl, hput, hbetween⟩ := h
  refine ⟨op, between ++ later, by simp, hput, fun o ho => ?_⟩
  exact (List.mem_append.mp ho).elim (hbetween o) (hlater o)

theorem SetLast.issued_lt {history earlier : List Operation} {uri : Uri} {text : String}
    {version : Int} (h : SetLast history uri earlier text version) :
    issued earlier < issued history := by
  obtain ⟨op, later, rfl, hput, -⟩ := h
  rw [issued_append, issued_cons_of_put hput]
  omega

/-- What the store holds for a document, read off the history. -/
theorem get?_after_iff (history : List Operation) (uri : Uri) (document : Document) :
    (after history).get? uri = some document ↔
      ∃ earlier, SetLast history uri earlier document.text document.version ∧
        document.generation = issued earlier + 1 := by
  induction history using List.reverseRecOn with
  | nil => simp [after, SetLast]
  | append_singleton history op ih =>
      simp only [after_concat, setLast_concat_iff]
      rcases get?_apply_cases op uri with
        ⟨text, version, hput, htouches, hget⟩ | ⟨hput, htouches, hget⟩ | ⟨htouches, hput, hget⟩
      · rw [hget, lastGeneration_after]
        constructor
        · intro hdocument
          obtain rfl := Option.some.inj hdocument
          exact ⟨history, Or.inl ⟨rfl, hput⟩, rfl⟩
        · rintro ⟨earlier, ⟨rfl, hput'⟩ | ⟨huntouched, -⟩, hgeneration⟩
          · have hsame : text = document.text ∧ version = document.version := by
              simpa [hput] using hput'
            obtain ⟨rfl, rfl⟩ := hsame
            rw [← hgeneration]
          · exact absurd htouches huntouched
      · simp [hget, hput, htouches]
      · simp [hget, ih, hput, htouches]

/-! ## What a generation tells -/

theorem get?_of_put {op : Operation} {uri : Uri} {text : String} {version : Int}
    (hput : op.put? = some (uri, text, version)) (earlier : List Operation) :
    (after (earlier ++ [op])).get? uri = some ⟨text, version, issued earlier + 1⟩ :=
  (get?_after_iff ..).mpr ⟨earlier, setLast_concat_iff.mpr (Or.inl ⟨rfl, hput⟩), rfl⟩

theorem get?_of_untouched {earlier later : List Operation} {uri : Uri} {document : Document}
    (hread : (after earlier).get? uri = some document)
    (hlater : ∀ o ∈ later, ¬o.Touches uri) :
    (after (earlier ++ later)).get? uri = some document := by
  obtain ⟨start, hset, hgeneration⟩ := (get?_after_iff ..).mp hread
  exact (get?_after_iff ..).mpr ⟨start, hset.append hlater, hgeneration⟩

/-- A document that is found again at the generation it had has not been touched in between: one
that was set since has a generation above all earlier ones. -/
theorem untouched_of_isCurrent {earlier later : List Operation} {uri : Uri} {document : Document}
    (hread : (after earlier).get? uri = some document)
    (hcurrent : (after (earlier ++ later)).isCurrent uri document.generation = true) :
    ∀ o ∈ later, ¬o.Touches uri := by
  obtain ⟨start, hset, hgeneration⟩ := (get?_after_iff ..).mp hread
  obtain ⟨now, hnow, hsame⟩ := (isCurrent_iff ..).mp hcurrent
  obtain ⟨start', ⟨op, rest, hplace, hput, hrest⟩, hgeneration'⟩ := (get?_after_iff ..).mp hnow
  have hissued : issued start' < issued earlier := by
    have hlt := hset.issued_lt
    omega
  rcases List.append_eq_append_iff.mp hplace with ⟨between, rfl, -⟩ | ⟨between, rfl, hbetween⟩
  · rw [issued_append] at hissued
    omega
  · cases between with
    | nil => simp at hissued
    | cons first between =>
        obtain ⟨-, rfl⟩ := List.cons.inj hbetween
        intro o ho
        exact hrest o (List.mem_append_right _ ho)

/-- Whatever the history: a store answers with the text and version that were set last and not
closed since, and with nothing otherwise; a generation that is given out is above all that were given
out before; and a document that was read is found at its generation later exactly if it has been
neither set nor closed in between, and then it is the same. A generation is at most the number of
documents set so far, so it fits into 64 bits for as long as that number does. -/
theorem answers_follow_history (history : List Operation) :
    (∀ uri text version,
      (∃ generation, (after history).get? uri = some ⟨text, version, generation⟩) ↔
        ∃ earlier, SetLast history uri earlier text version) ∧
    (∀ earlier first between second later uri text version uri' text' version',
      history = earlier ++ first :: (between ++ second :: later) →
      first.put? = some (uri, text, version) → second.put? = some (uri', text', version') →
      ∃ old new, (after (earlier ++ [first])).get? uri = some old ∧
        (after (earlier ++ first :: (between ++ [second]))).get? uri' = some new ∧
        old.generation < new.generation) ∧
    (∀ earlier later uri document, history = earlier ++ later →
      (after earlier).get? uri = some document →
      ((after history).isCurrent uri document.generation = true ↔ ∀ o ∈ later, ¬o.Touches uri) ∧
      ((after history).isCurrent uri document.generation = true →
        (after history).get? uri = some document)) ∧
    (∀ uri document, (after history).get? uri = some document →
      document.generation ≤ issued history) := by
  refine ⟨fun uri text version => ?_, ?_, ?_, fun uri document hread => ?_⟩
  · constructor
    · rintro ⟨generation, hread⟩
      obtain ⟨earlier, hset, -⟩ := (get?_after_iff ..).mp hread
      exact ⟨earlier, hset⟩
    · rintro ⟨earlier, hset⟩
      exact ⟨issued earlier + 1, (get?_after_iff ..).mpr ⟨earlier, hset, rfl⟩⟩
  · intro earlier first between second later uri text version uri' text' version' _ hfirst hsecond
    have hnew := get?_of_put hsecond (earlier ++ first :: between)
    rw [List.append_assoc, List.cons_append] at hnew
    refine ⟨_, _, get?_of_put hfirst earlier, hnew, ?_⟩
    show issued earlier + 1 < issued (earlier ++ first :: between) + 1
    rw [issued_append, issued_cons_of_put hfirst]
    omega
  · rintro earlier later uri document rfl hread
    refine ⟨⟨untouched_of_isCurrent hread, fun hlater => ?_⟩, fun hcurrent => ?_⟩
    · exact (isCurrent_iff ..).mpr ⟨document, get?_of_untouched hread hlater, rfl⟩
    · exact get?_of_untouched hread (untouched_of_isCurrent hread hcurrent)
  · obtain ⟨earlier, hset, hgeneration⟩ := (get?_after_iff ..).mp hread
    have hlt := hset.issued_lt
    omega

/-- A document is closed and comes back by a change, with the text and version it had: what was read
before is not current, and the generations are in order. -/
theorem answers_follow_history_reopened : ∃ uri other : Uri,
    (after [.opened uri "AAA" 1]).get? uri = some ⟨"AAA", 1, 1⟩ ∧
    (after [.opened uri "AAA" 1, .opened other "BBB" 1, .closed uri, .changed uri "AAA" 1]).isCurrent
      uri 1 = false ∧
    ∃ old new, (after [.opened uri "AAA" 1, .opened other "BBB" 1]).get? other = some old ∧
      (after [.opened uri "AAA" 1, .opened other "BBB" 1, .closed uri, .changed uri "AAA" 1]).get? uri =
        some new ∧ old.generation < new.generation := by
  let uri : Uri := { scheme := "file", authority := some {}, path := "/w/login.tacl" }
  let other : Uri := { scheme := "file", authority := some {}, path := "/w/logout.tacl" }
  have hcurrent := (answers_follow_history _).2.2.1 [.opened uri "AAA" 1]
    [.opened other "BBB" 1, .closed uri, .changed uri "AAA" 1] uri ⟨"AAA", 1, 1⟩ rfl rfl
  have hordered := (answers_follow_history _).2.1 [.opened uri "AAA" 1] (.opened other "BBB" 1)
    [.closed uri] (.changed uri "AAA" 1) [] other "BBB" 1 uri "AAA" 1 rfl rfl rfl
  refine ⟨uri, other, rfl, ?_, hordered⟩
  rw [Bool.eq_false_iff]
  intro hfound
  exact hcurrent.1.mp hfound (.closed uri) (by simp) rfl

end Store

end ScenarioServer
