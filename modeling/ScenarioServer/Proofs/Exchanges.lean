import ScenarioServer.Proofs.Freshness

/-!
# Sessions call by call

A run without stalls falls into exchanges. Each begins and ends at rest: the client makes a call, the
steps that follow work it off, and the answers that they take in are all for this call. What the
client does in an exchange is a `Request`: the call, the files that it finds, and an answer for every
document that the client may be asked about, since no document is asked about twice in one call.

`Run.session` cuts a run into its exchanges. `exists_session` is the other direction: a list of
requests can always be served.
-/

namespace ScenarioServer

/-- No call runs and none waits. -/
structure Machine.AtRest (m : Machine) : Prop where
  idle : m.queue = []
  answered : m.waiting = []

theorem Machine.AtRest.start (engine : Engine) (defaults : Settings) (discovers : Bool) :
    (Machine.start engine defaults discovers).AtRest :=
  ⟨rfl, rfl⟩

/-- What the client does in one exchange. -/
structure Request where
  files : FileSystem
  call : Call
  answer : Uri → Answer

/-- A request with the steps that serve it: the call, and the work that follows. -/
structure Exchange where
  request : Request
  calling : Entry
  during : List Entry
  after : Machine

namespace Exchange

variable (x : Exchange)

def before : Machine := x.calling.before

def steps : List Entry := x.calling :: x.during

def events : List Event := sentEvents x.steps

/-- What the call returns. -/
def reply : Reply := (x.before.server.call x.request.files x.request.call).2.2.1

end Exchange

/-- All answers that the steps take in are the given ones. -/
def Answered (answer : Uri → Answer) (steps : List Entry) : Prop :=
  ∀ uri, ∀ given ∈ answers uri steps, given.2 = answer uri

/-- The steps of an exchange serve its request from rest to rest. -/
structure Exchange.Serves (x : Exchange) : Prop where
  call : x.calling.move = .call x.request.files x.request.call
  step : Step x.calling.before x.calling.move x.calling.events x.calling.after
  run : Run x.calling.after x.during x.after
  work : ∀ e ∈ x.during, ¬e.move.IsCall
  answered : Answered x.request.answer x.during
  begins : x.before.AtRest
  ends : x.after.AtRest

/-- One exchange after another. -/
inductive Session : Machine → List Exchange → Machine → Prop
  | nil (m : Machine) : Session m [] m
  | cons {x : Exchange} {xs : List Exchange} {m : Machine} (hserves : x.Serves)
      (hrest : Session x.after xs m) : Session x.before (x :: xs) m

/-! ## From runs to sessions -/

theorem Server.accept_nodup {server after : Server} {files : FileSystem} {c : Call}
    {events : List Event} {uris : List Uri} (h : server.accept files c = (after, events, uris)) :
    uris.Nodup := by
  by_cases hopens : (Move.call files c).OpensSession
  · cases c with
    | openSession opening =>
        obtain ⟨-, -, rfl⟩ := h
        exact List.nodup_nil
    | _ => exact hopens.elim
  · exact (accept_settings h hopens).2.1

theorem Step.of_isCall {m m' : Machine} {move : Move} {events : List Event}
    (hstep : Step m move events m') (hcall : move.IsCall) :
    (∃ files c, move = .call files c) ∧ m.queue = [] ∧ m'.queue.Nodup ∧ m'.waiting = m.waiting := by
  cases hstep with
  | @call files c server events uris queue hidle haccept horder =>
      exact ⟨⟨files, c, rfl⟩, hidle, horder.nodup_iff.mpr (Server.accept_nodup haccept), rfl⟩
  | skip | ask | finish | answer => exact hcall.elim

theorem Exchange.Serves.queued {x : Exchange} (h : x.Serves) :
    x.calling.after.queue.Nodup ∧ x.calling.after.waiting = [] := by
  have hcall : x.calling.move.IsCall := by
    rw [h.call]
    trivial
  obtain ⟨-, -, hnodup, hwaiting⟩ := h.step.of_isCall hcall
  exact ⟨hnodup, hwaiting.trans h.begins.answered⟩

/-- No document is asked about twice in one round. -/
theorem Run.length_answers_le {start m : Machine} {during : List Entry} (hrun : Run start during m)
    (hsound : Sound start) (hwaiting : start.waiting = []) (hnodup : start.queue.Nodup)
    (hcalls : ∀ e ∈ during, ¬e.move.IsCall) (uri : Uri) : (answers uri during).length ≤ 1 := by
  induction hrun with
  | refl => exact Nat.zero_le 1
  | @tail during m m' move events hrun hstep ih =>
      have hearlier : ∀ e ∈ during, ¬e.move.IsCall := fun e he => hcalls e (List.mem_append_left _ he)
      have hcall := hcalls _ (List.mem_append_right _ (List.mem_singleton_self _))
      have hwithin := hrun.within hsound hwaiting hnodup hearlier
      rw [answers_append, List.length_append]
      rcases hstep.pending_cases hwithin.sound hwithin.steady hcall with
        ⟨-, hquiet⟩ | ⟨next, hhead, hquiet, -⟩
      · rw [(hquiet uri).answers]
        exact ih hearlier
      · by_cases huri : uri = next
        · -- the round has not come to this document before
          subst huri
          obtain ⟨-, hnone, -⟩ := hwithin.untouched uri (hhead ▸ List.mem_cons_self ..)
          rw [hnone, List.length_nil, Nat.zero_add]
          exact List.length_filterMap_le ..
        · rw [(hquiet uri huri).answers]
          exact ih hearlier

theorem exists_answered {during : List Entry} (h : ∀ uri, (answers uri during).length ≤ 1) :
    ∃ answer, Answered answer during := by
  refine ⟨fun uri => ((answers uri during).head?.map Prod.snd).getD .failure, ?_⟩
  intro uri given hgiven
  have hone := h uri
  match hanswers : answers uri during with
  | [] =>
      rw [hanswers] at hgiven
      cases hgiven
  | [only] =>
      rw [hanswers] at hgiven
      obtain rfl := List.mem_singleton.mp hgiven
      simp [hanswers]
  | _ :: _ :: _ =>
      rw [hanswers] at hone
      simp at hone

/-- A list of steps up to the first call in it, and the rest. -/
theorem exists_cut (trace : List Entry) : ∃ during later, trace = during ++ later ∧
    (∀ e ∈ during, ¬e.move.IsCall) ∧ ∀ e rest, later = e :: rest → e.move.IsCall := by
  induction trace with
  | nil => exact ⟨[], [], rfl, by simp, by simp⟩
  | cons e rest ih =>
      by_cases hcall : e.move.IsCall
      · exact ⟨[], e :: rest, rfl, by simp, by simp [hcall]⟩
      · obtain ⟨during, later, rfl, hwork, hcall'⟩ := ih
        exact ⟨e :: during, later, rfl, List.forall_mem_cons.mpr ⟨hcall, hwork⟩, hcall'⟩

/-- Where a call begins, or where a run from rest to rest is over, the machine is at rest. -/
theorem Run.atRest_of_calls {m m' : Machine} {trace : List Entry} (hrun : Run m trace m')
    (hunstalled : Unstalled trace) (hends : m'.AtRest)
    (hcalls : ∀ e rest, trace = e :: rest → e.move.IsCall) : m.AtRest := by
  cases trace with
  | nil =>
      obtain rfl := hrun.eq_of_nil
      exact hends
  | cons e rest =>
      obtain ⟨rfl, hstep, -⟩ := hrun.first
      have hcall := hcalls e rest rfl
      obtain ⟨-, hidle, -⟩ := hstep.of_isCall hcall
      exact ⟨hidle, hunstalled e (List.mem_cons_self ..) hcall⟩

/-- A run from rest to rest without stalls is a session. -/
theorem Run.session {m m' : Machine} {trace : List Entry} (hrun : Run m trace m') (hsound : Sound m)
    (hunstalled : Unstalled trace) (hbegins : m.AtRest) (hends : m'.AtRest) :
    ∃ xs, Session m xs m' ∧ xs.flatMap Exchange.steps = trace := by
  -- the first exchange ends where the next call begins, and the steps from there are fewer
  induction hlength : trace.length using Nat.strongRecOn generalizing m trace with
  | ind length ih =>
      cases trace with
      | nil =>
          obtain rfl := hrun.eq_of_nil
          exact ⟨[], .nil _, rfl⟩
      | cons calling rest =>
          obtain ⟨rfl, hstep, hrest⟩ := hrun.first
          obtain ⟨⟨files, c, hmove⟩, -, hnodup, hwaiting⟩ :=
            hstep.of_isCall (hstep.isCall_of_idle hbegins.idle hbegins.answered)
          obtain ⟨during, later, rfl, hwork, hnext⟩ := exists_cut rest
          have hunstalled' : Unstalled later := fun e he => hunstalled e (by simp [he])
          obtain ⟨middle, hduring, hlater⟩ := hrest.split
          have hmiddle := hlater.atRest_of_calls hunstalled' hends hnext
          have hcalled := hstep.sound hsound
          obtain ⟨answer, hanswered⟩ := exists_answered fun uri =>
            hduring.length_answers_le hcalled (hwaiting.trans hbegins.answered) hnodup hwork uri
          have hserves : Exchange.Serves ⟨⟨files, c, answer⟩, calling, during, middle⟩ :=
            ⟨hmove, hstep, hduring, hwork, hanswered, hbegins, hmiddle⟩
          obtain ⟨xs, hsession, hsteps⟩ := ih later.length (by simp at hlength; omega) hlater
            (hduring.sound hcalled) hunstalled' hmiddle rfl
          refine ⟨_ :: xs, .cons hserves hsession, ?_⟩
          simp [Exchange.steps, hsteps]

theorem Exchange.Serves.run_steps {x : Exchange} (h : x.Serves) : Run x.before x.steps x.after :=
  .head h.step h.run

theorem Exchange.Serves.unstalled {x : Exchange} (h : x.Serves) : Unstalled x.steps := by
  refine List.forall_mem_cons.mpr ⟨fun _ => h.begins.answered, fun e he hcall => ?_⟩
  exact absurd hcall (h.work e he)

/-- A session is a run without stalls from rest to rest. -/
theorem Session.run {m m' : Machine} {xs : List Exchange} (h : Session m xs m') (hbegins : m.AtRest) :
    Run m (xs.flatMap Exchange.steps) m' ∧ Unstalled (xs.flatMap Exchange.steps) ∧ m'.AtRest := by
  induction h with
  | nil m => exact ⟨.refl, by simp [Unstalled], hbegins⟩
  | cons hserves _ ih =>
      obtain ⟨hrun, hunstalled, hends⟩ := ih hserves.ends
      refine ⟨hserves.run_steps.trans hrun, ?_, hends⟩
      exact List.forall_mem_append.mpr ⟨hserves.unstalled, hunstalled⟩

/-! ## From requests to sessions -/

theorem answered_append_iff {answer : Uri → Answer} {steps later : List Entry} :
    Answered answer (steps ++ later) ↔ Answered answer steps ∧ Answered answer later := by
  simp only [Answered, answers_append, List.mem_append, or_imp, forall_and]

theorem answered_cons_iff {answer : Uri → Answer} {e : Entry} {later : List Entry} :
    Answered answer (e :: later) ↔ Answered answer [e] ∧ Answered answer later := by
  rw [← List.singleton_append, answered_append_iff]

theorem Answered.of_no_answer {answer : Uri → Answer} {e : Entry}
    (h : ∀ ticket a, e.move ≠ .answer ticket a) : Answered answer [e] := by
  intro uri given hgiven
  rw [answers_eq_nil h uri] at hgiven
  cases hgiven

theorem Answered.of_answer {answer : Uri → Answer} {e : Entry} {ticket : Nat} {pass : Pass}
    {a : Answer} (hmove : e.move = .answer ticket a) (hwaiting : e.before.waiting = [(ticket, pass)])
    (ha : a = answer pass.uri) : Answered answer [e] := by
  intro uri given hgiven
  rw [answers_of_answer hmove hwaiting] at hgiven
  split at hgiven
  · next huri =>
    obtain rfl := List.mem_singleton.mp hgiven
    rw [ha, huri]
  · cases hgiven

/-- The running call can be worked off with any answers. -/
theorem exists_round (answer : Uri → Answer) {m : Machine} (hwaiting : m.waiting = []) :
    ∃ during m', Run m during m' ∧ (∀ e ∈ during, ¬e.move.IsCall) ∧ Answered answer during ∧
      m'.AtRest := by
  induction hqueue : m.queue generalizing m with
  | nil => exact ⟨[], m, .refl, by simp, by simp [Answered, answers], hqueue, hwaiting⟩
  | cons uri rest ih =>
      cases hopen : m.server.store.get? uri with
      | none =>
          obtain ⟨during, m', hrun, hwork, hanswered, hends⟩ :=
            @ih { m with queue := rest } hwaiting rfl
          refine ⟨_, m', .head (.skip hqueue hopen) hrun, ?_, ?_, hends⟩
          · simpa [Move.IsCall] using hwork
          · exact answered_cons_iff.mpr ⟨.of_no_answer (by simp), hanswered⟩
      | some document =>
          cases hsettings : m.server.settings? uri with
          | some settings =>
              obtain ⟨during, m', hrun, hwork, hanswered, hends⟩ := @ih
                { m with server := (m.server.publish uri document settings).1, queue := rest }
                hwaiting rfl
              refine ⟨_, m', .head (.finish hqueue hopen hsettings rfl) hrun, ?_, ?_, hends⟩
              · simpa [Move.IsCall] using hwork
              · exact answered_cons_iff.mpr ⟨.of_no_answer (by simp), hanswered⟩
          | none =>
              let pass : Pass := ⟨uri, document, m.server.globalSettings, rest⟩
              have hasked := Machine.waiting_stop hwaiting pass
              obtain ⟨m₁, events, hanswer, hrest, hdone⟩ : ∃ m₁ events,
                  Step (m.stop (some pass)) (.answer m.nextTicket (answer uri)) events m₁ ∧
                    m₁.queue = rest ∧ m₁.waiting = [] := by
                refine ⟨_, _, .answer rfl (hasked ▸ List.mem_singleton_self _) rfl rfl, rfl, ?_⟩
                simp [hasked]
              obtain ⟨during, m', hrun, hwork, hanswered, hends⟩ := ih hdone hrest
              refine ⟨_, m', .head (.ask hqueue hopen hsettings) (.head hanswer hrun), ?_, ?_, hends⟩
              · simpa [Move.IsCall] using hwork
              · refine answered_cons_iff.mpr ⟨.of_no_answer (by simp), ?_⟩
                exact answered_cons_iff.mpr ⟨.of_answer rfl hasked rfl, hanswered⟩

theorem exists_serves {m : Machine} (hbegins : m.AtRest) (request : Request) :
    ∃ x : Exchange, x.Serves ∧ x.before = m ∧ x.request = request := by
  obtain ⟨hidle, hwaiting⟩ := hbegins
  obtain ⟨m₁, events, hstep, hstill⟩ : ∃ m₁ events,
      Step m (.call request.files request.call) events m₁ ∧ m₁.waiting = [] :=
    ⟨_, _, .call hidle rfl (.refl _), hwaiting⟩
  obtain ⟨during, m', hrun, hwork, hanswered, hends⟩ := exists_round request.answer hstill
  exact ⟨⟨request, ⟨m, _, events, m₁⟩, during, m'⟩,
    ⟨rfl, hstep, hrun, hwork, hanswered, ⟨hidle, hwaiting⟩, hends⟩, rfl, rfl⟩

/-- Every list of requests can be served. -/
theorem exists_session {m : Machine} (hbegins : m.AtRest) (requests : List Request) :
    ∃ xs m', Session m xs m' ∧ xs.map Exchange.request = requests := by
  induction requests generalizing m with
  | nil => exact ⟨[], m, .nil m, rfl⟩
  | cons request rest ih =>
      obtain ⟨x, hserves, rfl, rfl⟩ := exists_serves hbegins request
      obtain ⟨xs, m', hsession, rfl⟩ := ih hserves.ends
      exact ⟨x :: xs, m', .cons hserves hsession, rfl⟩

end ScenarioServer
