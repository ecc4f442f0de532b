import ScenarioServer.Proofs.Overtaking

/-!
# One call among others

A call that validates documents takes a turn for each document of its queue: it validates the
document, or skips it because it has been closed. Between its turns the call may be suspended, and
other calls run meanwhile. Here one call is followed through all of that: `CallState.steps` are the
steps of a run that are the call's own, and `CallState.turns` the turns that end in them.

`Run.left` is the invariant: the turns taken so far, followed by what is left to the call, are the
queue it began with. So no document gets two turns, and a call that has ended (`CallState.ended`) has
given one to every document. `Run.skipped_only_if_closed` says why a turn may be a skip, and
`CallState.Left.exists_ended` that a call can always be brought to its end.
-/

namespace ScenarioServer

/-- Where a call stands after its first step. -/
inductive CallState where
  | running
  | suspended (ticket : Nat)
  | ended
deriving Repr, DecidableEq

/-- Where the call stands that has just taken a step and asked for nothing. -/
def Machine.callState (m : Machine) : CallState := if m.queue = [] then .ended else .running

/-- Where the call stands that has taken this step: it is suspended if the step gave out a ticket. -/
def Entry.callState (e : Entry) : CallState :=
  if e.before.nextTicket < e.after.nextTicket then .suspended e.before.nextTicket
  else e.after.callState

/-- What a call does with a document of its queue. -/
inductive Turn where
  | skipped (uri : Uri)
  | validated (uri : Uri) (document : Document) (settings : Settings)
deriving Repr, DecidableEq

def Turn.uri : Turn → Uri
  | .skipped uri => uri
  | .validated uri _ _ => uri

/-- The turn that ends in a step. None ends where a client makes a call or is asked for settings. -/
def Entry.turn? (e : Entry) : Option Turn :=
  match e.move with
  | .call _ _ => none
  | .work => do
    let uri ← e.before.queue.head?
    match e.before.server.store.get? uri with
    | none => return .skipped uri
    | some document => return .validated uri document (← e.before.server.settings? uri)
  | .answer ticket a => do
    let pass ← e.before.waiting.lookup ticket
    return .validated pass.uri pass.document
      (e.before.server.receive pass.uri pass.fallback a).2

namespace CallState

/-- Whether a step is one of the call: nothing else happens while it runs, and it goes on with the
answer to its own request. -/
def owns : CallState → Entry → Bool
  | .running, _ => true
  | .suspended ticket, e =>
    match e.move with
    | .answer answered _ => answered = ticket
    | _ => false
  | .ended, _ => false

def next (state : CallState) (e : Entry) : CallState := if state.owns e then e.callState else state

/-- Where the call stands after further steps of the machine. -/
def after (state : CallState) (trace : List Entry) : CallState := trace.foldl next state

/-- The steps of the call among further steps of the machine. -/
def steps (state : CallState) : List Entry → List Entry
  | [] => []
  | e :: trace => if state.owns e then e :: (state.next e).steps trace else (state.next e).steps trace

def turns (state : CallState) (trace : List Entry) : List Turn :=
  (state.steps trace).filterMap Entry.turn?

theorem after_append (state : CallState) (trace trace' : List Entry) :
    state.after (trace ++ trace') = (state.after trace).after trace' :=
  List.foldl_append

theorem turns_cons (state : CallState) (e : Entry) (trace : List Entry) :
    state.turns (e :: trace) =
      (if state.owns e then e.turn?.toList else []) ++ (state.next e).turns trace := by
  rw [turns, steps]
  split
  · cases hturn : e.turn? <;> simp [turns, hturn]
  · rfl

theorem after_ended (trace : List Entry) : after .ended trace = .ended := by
  induction trace with
  | nil => rfl
  | cons e trace ih => exact ih

/-- A step of the call comes where the call stands ready for it. -/
theorem owns_of_mem_steps {state : CallState} {trace : List Entry} {e : Entry}
    (h : e ∈ state.steps trace) :
    ∃ before later, trace = before ++ e :: later ∧ (state.after before).owns e = true := by
  induction trace generalizing state with
  | nil => cases h
  | cons first trace ih =>
      have hlater : e ∈ (state.next first).steps trace →
          ∃ before later, first :: trace = before ++ e :: later ∧
            (state.after before).owns e = true := by
        intro hmem
        obtain ⟨before, later, rfl, howns⟩ := ih hmem
        exact ⟨first :: before, later, rfl, howns⟩
      rw [steps] at h
      split at h
      · next howns =>
          rcases List.mem_cons.mp h with rfl | hmem
          · exact ⟨[], trace, rfl, howns⟩
          · exact hlater hmem
      · exact hlater h

/-! ## What is left to a call -/

/-- The documents that are left to the call: the rest of its queue, with the document in front whose
settings it waits for. -/
inductive Left (m : Machine) : CallState → List Uri → Prop
  | running (hbusy : m.queue ≠ []) : Left m .running m.queue
  | suspended {ticket : Nat} {pass : Pass} (hwaits : (ticket, pass) ∈ m.waiting) :
      Left m (.suspended ticket) (pass.uri :: pass.remaining)
  | ended : Left m .ended []

theorem left_callState (m : Machine) : Left m m.callState m.queue := by
  rw [Machine.callState]
  split
  · next hqueue =>
      rw [hqueue]
      exact .ended
  · next hbusy => exact .running hbusy

/-- A call has ended if none runs and none waits. -/
theorem Left.eq_ended {m : Machine} {state : CallState} {left : List Uri} (h : Left m state left)
    (hqueue : m.queue = []) (hwaiting : m.waiting = []) : state = .ended := by
  cases h with
  | running hbusy => exact absurd hqueue hbusy
  | suspended hwaits =>
      rw [hwaiting] at hwaits
      cases hwaits
  | ended => rfl

end CallState

theorem Machine.mem_waiting_of_lookup {m : Machine} {ticket : Nat} {pass : Pass}
    (hfound : m.waiting.lookup ticket = some pass) : (ticket, pass) ∈ m.waiting := by
  obtain ⟨others, later, hwaiting, -⟩ := List.lookup_eq_some_iff.mp hfound
  simp [hwaiting]

theorem Sound.lookup_waiting {m : Machine} (h : Sound m) {ticket : Nat} {pass : Pass}
    (hwaits : (ticket, pass) ∈ m.waiting) : m.waiting.lookup ticket = some pass := by
  cases hfound : m.waiting.lookup ticket with
  | none => simpa using List.lookup_eq_none_iff.mp hfound _ hwaits
  | some found => rw [h.distinct ticket pass found hwaits (Machine.mem_waiting_of_lookup hfound)]

/-- A turn that validates is the end of a pass. -/
theorem Entry.ends_of_validated {e : Entry} {uri : Uri} {document : Document} {settings : Settings}
    (hturn : e.turn? = some (.validated uri document settings)) :
    Ends e.before e.move uri document settings := by
  obtain ⟨m, move, events, m'⟩ := e
  cases move with
  | call => cases hturn
  | work =>
      obtain ⟨next, hnext, hturn⟩ := Option.bind_eq_some_iff.mp hturn
      obtain ⟨rest, hqueue⟩ := List.head?_eq_some_iff.mp hnext
      split at hturn
      · cases hturn
      · next hopen =>
          obtain ⟨known, hknown, hturn⟩ := Option.bind_eq_some_iff.mp hturn
          cases hturn
          exact .work hqueue hopen hknown
  | answer ticket a =>
      obtain ⟨pass, hfound, hturn⟩ := Option.bind_eq_some_iff.mp hturn
      cases hturn
      exact .answer (Machine.mem_waiting_of_lookup hfound)

/-- A turn that skips finds its document closed. -/
theorem Entry.closed_of_skipped {e : Entry} {uri : Uri} (hturn : e.turn? = some (.skipped uri)) :
    e.move = .work ∧ (∃ rest, e.before.queue = uri :: rest) ∧
      e.before.server.store.get? uri = none := by
  obtain ⟨m, move, events, m'⟩ := e
  cases move with
  | call => cases hturn
  | work =>
      obtain ⟨next, hnext, hturn⟩ := Option.bind_eq_some_iff.mp hturn
      split at hturn
      · next hclosed =>
          cases hturn
          exact ⟨rfl, List.head?_eq_some_iff.mp hnext, hclosed⟩
      · obtain ⟨known, -, hturn⟩ := Option.bind_eq_some_iff.mp hturn
        cases hturn
  | answer ticket a =>
      obtain ⟨pass, -, hturn⟩ := Option.bind_eq_some_iff.mp hturn
      cases hturn

open CallState

variable {m m' : Machine} {move : Move} {events : List Event} {trace : List Entry}

/-! ## One step -/

theorem Step.left_of_running (hstep : Step m move events m') (hbusy : m.queue ≠ []) :
    ∃ left, Left m' (Entry.callState ⟨m, move, events, m'⟩) left ∧
      m.queue = (Entry.turn? ⟨m, move, events, m'⟩).toList.map Turn.uri ++ left := by
  cases hstep with
  | call hidle | answer hidle => exact absurd hidle hbusy
  | @skip uri rest hqueue hclosed =>
      refine ⟨rest, ?_, by simp [Entry.turn?, hqueue, hclosed, Turn.uri]⟩
      simpa [Entry.callState] using left_callState { m with queue := rest }
  | @finish uri rest document settings server events hqueue hopen hknown hpublish =>
      refine ⟨rest, ?_, by simp [Entry.turn?, hqueue, hopen, hknown, Turn.uri]⟩
      simpa [Entry.callState] using left_callState { m with server, queue := rest }
  | @ask uri rest document hqueue hopen hunknown =>
      refine ⟨uri :: rest, ?_, by simp [Entry.turn?, hqueue, hopen, hunknown]⟩
      have hstate : Entry.callState ⟨m, .work, [.requestConfiguration uri],
          m.stop (some ⟨uri, document, m.server.globalSettings, rest⟩)⟩ = .suspended m.nextTicket := by
        simp [Entry.callState, Machine.stop]
      rw [hstate]
      exact @Left.suspended _ _ ⟨uri, document, m.server.globalSettings, rest⟩
        (List.mem_append_right _ (List.mem_singleton.mpr rfl))

/-- A suspended call waits on, or it gets its answer and ends the turn of the document it waited
for. -/
theorem Step.left_of_suspended (hstep : Step m move events m') (h : Sound m) {ticket : Nat}
    {pass : Pass} (hwaits : (ticket, pass) ∈ m.waiting) :
    (owns (.suspended ticket) ⟨m, move, events, m'⟩ = false ∧ (ticket, pass) ∈ m'.waiting) ∨
    (owns (.suspended ticket) ⟨m, move, events, m'⟩ = true ∧
      Left m' (Entry.callState ⟨m, move, events, m'⟩) pass.remaining ∧
      ∃ settings, Entry.turn? ⟨m, move, events, m'⟩ =
        some (.validated pass.uri pass.document settings)) := by
  cases hstep with
  | call | skip | finish => exact Or.inl ⟨rfl, hwaits⟩
  | ask => exact Or.inl ⟨rfl, List.mem_append_left _ hwaits⟩
  | @answer answered other a received server settings events hidle hwaits' hreceive hpublish =>
      by_cases hticket : answered = ticket
      · subst hticket
        obtain rfl := h.distinct answered pass other hwaits hwaits'
        refine Or.inr ⟨by simp [owns], ?_, settings, ?_⟩
        · simpa [Entry.callState] using left_callState { m with
            server, queue := pass.remaining, waiting := m.waiting.filter (·.1 ≠ answered) }
        · simp [Entry.turn?, h.lookup_waiting hwaits, hreceive]
      · refine Or.inl ⟨by simp [owns, hticket], List.mem_filter.mpr ⟨hwaits, ?_⟩⟩
        simpa using Ne.symm hticket

/-- What is left to a call before a step is the document whose turn ends in it, if any, and what is
left afterwards. -/
theorem Step.left (hstep : Step m move events m') (h : Sound m) {state : CallState}
    {left : List Uri} (hleft : Left m state left) :
    ∃ left', Left m' (state.next ⟨m, move, events, m'⟩) left' ∧
      left = (if state.owns ⟨m, move, events, m'⟩ then
        (Entry.turn? ⟨m, move, events, m'⟩).toList else []).map Turn.uri ++ left' := by
  cases hleft with
  | running hbusy => exact hstep.left_of_running hbusy
  | @suspended ticket pass hwaits =>
      rcases hstep.left_of_suspended h hwaits with ⟨howns, hwaits'⟩ | ⟨howns, hleft, settings, hturn⟩
      · refine ⟨pass.uri :: pass.remaining, ?_, by simp [howns]⟩
        rw [next, howns]
        exact .suspended hwaits'
      · refine ⟨pass.remaining, ?_, by simp [howns, hturn, Turn.uri]⟩
        rwa [next, if_pos howns]
  | ended => exact ⟨[], .ended, rfl⟩

/-! ## Whole runs -/

/-- The turns of a call, followed by what is left to it, are what was left at first. -/
theorem Run.left (hrun : Run m trace m') (h : Sound m) {state : CallState} {left : List Uri}
    (hleft : Left m state left) :
    ∃ left', Left m' (state.after trace) left' ∧ left = (state.turns trace).map Turn.uri ++ left' := by
  induction trace generalizing m state left with
  | nil =>
      obtain rfl := hrun.eq_of_nil
      exact ⟨left, hleft, rfl⟩
  | cons e trace ih =>
      obtain ⟨rfl, hstep, hlater⟩ := hrun.first
      obtain ⟨middle, hmiddle, hfirst⟩ := hstep.left h hleft
      obtain ⟨left', hleft', hrest⟩ := ih hlater (hstep.sound h) hmiddle
      refine ⟨left', hleft', ?_⟩
      rw [hfirst, hrest, turns_cons, List.map_append, List.append_assoc]

theorem Run.left_eq_of_running (hrun : Run m trace m') (h : Sound m) {state : CallState}
    {left : List Uri} (hleft : Left m state left) (hrunning : state.after trace = .running) :
    left = (state.turns trace).map Turn.uri ++ m'.queue := by
  obtain ⟨left', hleft', heq⟩ := hrun.left h hleft
  rw [hrunning] at hleft'
  cases hleft'
  exact heq

/-- A suspended call that has gone on has first ended the turn of the document it waited for. -/
theorem Run.turns_of_suspended (hrun : Run m trace m') (h : Sound m) {ticket : Nat} {pass : Pass}
    (hwaits : (ticket, pass) ∈ m.waiting)
    (hgone : after (.suspended ticket) trace ≠ .suspended ticket) :
    ∃ later, (turns (.suspended ticket) trace).map Turn.uri = pass.uri :: later := by
  induction trace generalizing m with
  | nil => exact absurd rfl hgone
  | cons e trace ih =>
      obtain ⟨rfl, hstep, hlater⟩ := hrun.first
      rw [turns_cons]
      rcases hstep.left_of_suspended h hwaits with ⟨howns, hwaits'⟩ | ⟨howns, -, settings, hturn⟩
      · have hnext : next (.suspended ticket) e = .suspended ticket := if_neg (by simp [howns])
        rw [hnext, howns]
        refine ih hlater (hstep.sound h) hwaits' ?_
        rwa [after, List.foldl_cons, hnext] at hgone
      · rw [if_pos howns, hturn]
        exact ⟨_, rfl⟩

/-! ## Skipped documents -/

/-- A document that is no longer open has been closed. -/
theorem Run.closes_of_closed (hrun : Run m trace m') {uri : Uri} {document : Document}
    (hopen : m.server.store.get? uri = some document) (hclosed : m'.server.store.get? uri = none) :
    ∃ before close later, trace = before ++ close :: later ∧ close.move.Closes uri := by
  induction hrun with
  | refl =>
      rw [hopen] at hclosed
      cases hclosed
  | @tail trace m₁ m₂ move events hrun hstep ih =>
      rcases hstep.document_cases uri with ⟨-, -, -, text, version, hput⟩ | ⟨hcloses, -⟩ | ⟨-, -, hsame⟩
      · rw [hput] at hclosed
        cases hclosed
      · exact ⟨trace, _, [], rfl, hcloses⟩
      · obtain ⟨before, close, later, rfl, hcloses⟩ := ih (hsame.symm.trans hclosed)
        exact ⟨before, close, later ++ [⟨m₁, move, events, m₂⟩], by simp, hcloses⟩

theorem Step.queue_eq_nil_of_closes (hstep : Step m move events m') {uri : Uri}
    (hcloses : move.Closes uri) : m.queue = [] := by
  cases hstep with
  | call hidle => exact hidle
  | skip | ask | finish | answer => cases hcloses

/-- A document is closed before the call takes its last turns only while the call is suspended. What
is left to the call later on is then behind the document that it waits for. -/
theorem Run.suspended_of_closes {before between : List Entry} {close : Entry}
    (hrun : Run m (before ++ close :: between) m') (h : Sound m) {state : CallState}
    {left : List Uri} (hleft : Left m state left) {uri : Uri} (hcloses : close.move.Closes uri)
    (hrunning : state.after (before ++ close :: between) = .running) :
    ∃ ticket pass, state.after before = .suspended ticket ∧ (ticket, pass) ∈ close.before.waiting ∧
      pass.uri :: pass.remaining <:+ left ∧ m'.queue <:+ pass.remaining := by
  obtain ⟨hbefore, hclose, hbetween⟩ := hrun.entry
  have hgoing : Run close.before (close :: between) m' := .head hclose hbetween
  obtain ⟨left', hleft', hturned⟩ := hbefore.left h hleft
  rw [after_append] at hrunning
  generalize hstate : state.after before = now at hleft' hrunning
  cases hleft' with
  | running hbusy => exact absurd (hclose.queue_eq_nil_of_closes hcloses) hbusy
  | ended =>
      rw [after_ended] at hrunning
      cases hrunning
  | @suspended ticket pass hwaits =>
      have hsound := hbefore.sound h
      have hrest := hgoing.left_eq_of_running hsound (.suspended hwaits) hrunning
      obtain ⟨later, hlater⟩ := hgoing.turns_of_suspended hsound hwaits (by simp [hrunning])
      rw [hlater, List.cons_append, List.cons.injEq] at hrest
      exact ⟨ticket, pass, rfl, hwaits, ⟨_, hturned.symm⟩, ⟨later, hrest.2.symm⟩⟩

/-- A call skips a document that was open when the call began only if the document has been closed
while the call was suspended, for another document and with this one still to come. -/
theorem Run.skipped_only_if_closed (hrun : Run m trace m') (h : Sound m) (hnodup : m.queue.Nodup)
    (hopen : ∀ uri ∈ m.queue, ∃ document, m.server.store.get? uri = some document) {e : Entry}
    (he : e ∈ m.callState.steps trace) {uri : Uri} (hturn : e.turn? = some (.skipped uri)) :
    ∃ before close later ticket pass, trace = before ++ close :: later ∧ close.move.Closes uri ∧
      m.callState.after before = .suspended ticket ∧ (ticket, pass) ∈ close.before.waiting ∧
      pass.uri ≠ uri ∧ uri ∈ pass.remaining := by
  obtain ⟨early, late, rfl, howns⟩ := owns_of_mem_steps he
  obtain ⟨hearly, -, -⟩ := hrun.entry
  obtain ⟨hmove, ⟨rest, hqueue⟩, hclosed⟩ := Entry.closed_of_skipped hturn
  have hrunning : m.callState.after early = .running := by
    cases hstate : m.callState.after early with
    | running => rfl
    | suspended | ended => simp [hstate, owns, hmove] at howns
  have hall := hearly.left_eq_of_running h (left_callState m) hrunning
  obtain ⟨document, hstored⟩ := hopen uri (by simp [hall, hqueue])
  obtain ⟨before, close, between, rfl, hcloses⟩ := hearly.closes_of_closed hstored hclosed
  obtain ⟨ticket, pass, hstate, hwaits, hsuffix, hbehind⟩ :=
    hearly.suspended_of_closes h (left_callState m) hcloses hrunning
  have hcoming : uri ∈ pass.remaining := hbehind.subset (by simp [hqueue])
  have hdistinct : pass.uri ∉ pass.remaining := (List.nodup_cons.mp (hnodup.sublist hsuffix.sublist)).1
  refine ⟨before, close, between ++ e :: late, ticket, pass, by simp, hcloses, hstate, hwaits, ?_, hcoming⟩
  rintro rfl
  exact hdistinct hcoming

/-! ## The end of a call -/

theorem Machine.queue_stop (m : Machine) (pass : Option Pass) : (m.stop pass).queue = [] := by
  cases pass <;> rfl

/-- A call can always be brought to its end: whatever else runs or waits, it takes only work and the
client's answers, whatever these are. -/
theorem CallState.Left.exists_ended {state : CallState} {left : List Uri} (hleft : Left m state left)
    (h : Sound m) (a : Answer) :
    ∃ trace m', Run m trace m' ∧ state.after trace = .ended ∧
      ∀ e ∈ trace, e.move = .work ∨ ∃ ticket, e.move = .answer ticket a := by
  -- each answer ends a turn, so the call gets shorter
  induction hlength : left.length using Nat.strongRecOn generalizing m state left with
  | ind length ih =>
      obtain ⟨trace, hrun, -, hwork⟩ := run_validateAll m
      obtain ⟨left', hleft', hturned⟩ := hrun.left h hleft
      have hsound := hrun.sound h
      have hidle := Machine.queue_stop { m with server := (m.server.validateAll m.queue).1 }
        (m.server.validateAll m.queue).2.2
      generalize Machine.stop _ _ = idle at hrun hleft' hsound hidle
      generalize hstate : state.after trace = now at hleft'
      cases hleft' with
      | running hbusy => exact absurd hidle hbusy
      | ended => exact ⟨trace, idle, hrun, hstate, fun e he => .inl (hwork e he)⟩
      | @suspended ticket pass hwaits =>
          have hanswer := @Step.answer idle ticket pass a _ _ _ _ hidle hwaits rfl rfl
          rcases hanswer.left_of_suspended hsound hwaits with ⟨howns, -⟩ | ⟨howns, hrest, -⟩
          · simp [owns] at howns
          · have hshorter : pass.remaining.length < length := by
              rw [← hlength, hturned, List.length_append, List.length_cons]
              omega
            obtain ⟨more, m', hmore, hended, hmoves⟩ :=
              ih _ hshorter hrest (hanswer.sound hsound) rfl
            refine ⟨_, m', hrun.trans (.head hanswer hmore), ?_, ?_⟩
            · rw [after_append, hstate, after, List.foldl_cons, next, if_pos howns]
              exact hended
            · simp only [List.mem_append, List.mem_cons]
              rintro e (he | rfl | he)
              · exact .inl (hwork e he)
              · exact .inr ⟨ticket, rfl⟩
              · exact hmoves e he

/-! ## Every open document once -/

/-- At `start` a call has just queued the open documents; the steps `trace` lead to `m`. Every document
that was open gets one turn of the call, whatever happens meanwhile. -/
structure Revalidates (start : Machine) (trace : List Entry) (m : Machine) : Prop where
  nodup : ((start.callState.turns trace).map Turn.uri).Nodup
  opened : ∀ turn ∈ start.callState.turns trace,
    ∃ document, start.server.store.get? turn.uri = some document
  complete : start.callState.after trace = .ended →
    ∀ uri document, start.server.store.get? uri = some document →
      ∃ turn ∈ start.callState.turns trace, turn.uri = uri
  /-- A call that nothing runs or waits for has ended. -/
  ended : m.queue = [] → m.waiting = [] → start.callState.after trace = .ended
  /-- A call that has not ended can still do so, whatever the client answers. -/
  canEnd : ∀ a, ∃ more m', Run m more m' ∧ start.callState.after (trace ++ more) = .ended ∧
    ∀ e ∈ more, e.move = .work ∨ ∃ ticket, e.move = .answer ticket a
  /-- A turn that validates sends its diagnostics, unless the document has changed since it was
  read. -/
  validated : ∀ e ∈ start.callState.steps trace, ∀ uri document settings,
    e.turn? = some (.validated uri document settings) →
      e.events = if e.before.server.store.get? uri = some document then
        [.publish uri (some document.version) (validate uri document.text
          settings.maxNumberOfProblems e.before.server.flags.relatedInformation)]
        else []
  /-- A document is skipped only if it has been closed while the call was suspended, for another
  document and with this one still to come. -/
  skipped : ∀ e ∈ start.callState.steps trace, ∀ uri, e.turn? = some (.skipped uri) →
    e.events = [] ∧ ∃ before close later ticket pass, trace = before ++ close :: later ∧
      close.move.Closes uri ∧ start.callState.after before = .suspended ticket ∧
      (ticket, pass) ∈ close.before.waiting ∧ pass.uri ≠ uri ∧ uri ∈ pass.remaining

theorem Step.events_of_skip (hstep : Step m .work events m') {uri : Uri} {rest : List Uri}
    (hqueue : m.queue = uri :: rest) (hclosed : m.server.store.get? uri = none) : events = [] := by
  cases hstep with
  | skip => rfl
  | ask hqueue' hopen | finish hqueue' hopen =>
      obtain ⟨rfl, -⟩ := List.cons.inj (hqueue.symm.trans hqueue')
      rw [hclosed] at hopen
      cases hopen

theorem Run.step_of_mem_steps (hrun : Run m trace m') (h : Sound m) {state : CallState} {e : Entry}
    (he : e ∈ state.steps trace) : Sound e.before ∧ Step e.before e.move e.events e.after := by
  obtain ⟨before, later, rfl, -⟩ := owns_of_mem_steps he
  obtain ⟨hbefore, hstep, -⟩ := hrun.entry
  exact ⟨hbefore.sound h, hstep⟩

theorem Run.revalidates (hrun : Run m trace m') (h : Sound m)
    (hqueue : m.queue.Perm m.server.store.uris) : Revalidates m trace m' := by
  have hnodup : m.queue.Nodup := hqueue.nodup_iff.mpr (Store.nodup_uris _)
  have hopen : ∀ uri, uri ∈ m.queue ↔ ∃ document, m.server.store.get? uri = some document := by
    intro uri
    rw [hqueue.mem_iff, Store.mem_uris_iff]
  obtain ⟨left, hleft, hall⟩ := hrun.left h (left_callState m)
  refine ⟨?nodup, ?opened, ?complete, hleft.eq_ended, ?canEnd, ?validated, ?skipped⟩
  case nodup =>
    rw [hall] at hnodup
    exact hnodup.sublist (List.sublist_append_left ..)
  case opened =>
    intro turn hturn
    rw [← hopen, hall]
    exact List.mem_append_left _ (List.mem_map_of_mem hturn)
  case complete =>
    intro hended uri document hstored
    have hmem := (hopen uri).mpr ⟨document, hstored⟩
    rw [hended] at hleft
    cases hleft
    rw [hall, List.append_nil] at hmem
    exact List.mem_map.mp hmem
  case canEnd =>
    intro a
    obtain ⟨more, m'', hmore, hended, hmoves⟩ := hleft.exists_ended (hrun.sound h) a
    exact ⟨more, m'', hmore, (after_append ..).trans hended, hmoves⟩
  case validated =>
    intro e he uri document settings hturn
    obtain ⟨hsound, hstep⟩ := hrun.step_of_mem_steps h he
    have hends := Entry.ends_of_validated hturn
    split
    · next hcurrent => exact hstep.events_of_current hsound hends hcurrent
    · next hsuperseded => exact hstep.events_of_superseded hsound hends hsuperseded
  case skipped =>
    intro e he uri hturn
    refine ⟨?_, hrun.skipped_only_if_closed h hnodup (fun uri => (hopen uri).mp) he hturn⟩
    obtain ⟨-, hstep⟩ := hrun.step_of_mem_steps h he
    obtain ⟨hmove, ⟨rest, hqueue⟩, hclosed⟩ := Entry.closed_of_skipped hturn
    rw [hmove] at hstep
    exact hstep.events_of_skip hqueue hclosed

end ScenarioServer
