import Mathlib.Data.List.Forall2
import ScenarioServer.Proofs.PublishGuard

/-!
# Documents are independent

Documents share the generation counter, the process-wide settings and the configuration calls, and a
call may validate them all. Still, where the client answers every request at once, nothing that is done
to one document shows in another: take the calls on other documents out of a session, and a document
gets the same events, replies, text, version and settings as before.

The proof is an unwinding on the plain server, which has no generations to renumber. Two servers that
are the same as far as a document can tell stay so when both serve a call that is not on another
document (`AgreeOn.serve`), and when only one of them serves a call that is (`agreeOn_serve`).
-/

namespace ScenarioServer

/-! ## Calls on other documents -/

/-- The document that a call is made on. -/
def Call.target? : Call → Option Uri
  | .didOpen uri _ _ | .didChange uri _ _ | .didClose uri | .hover uri _ => some uri
  | _ => none

/-- The call is made on another document. A completion does not say on which one it is made, for its
result is always the same: it counts as one that may be. -/
def Call.MayBeElsewhere (uri : Uri) (c : Call) : Prop :=
  c = .completion ∨ ∃ target, c.target? = some target ∧ target ≠ uri

/-- The call may be made on the document, or concerns them all. -/
def Call.MayBeHere (uri : Uri) (c : Call) : Prop := ∀ target, c.target? = some target → target = uri

theorem Call.mayBeElsewhere_of_not_mayBeHere {uri : Uri} {c : Call} (h : ¬c.MayBeHere uri) :
    c.MayBeElsewhere uri := by
  rw [MayBeHere, Classical.not_forall] at h
  obtain ⟨target, h⟩ := h
  exact Or.inr ⟨target, Classical.not_imp.mp h⟩

theorem Call.exists_mayBeHere (c : Call) (uri : Uri) : ∃ key, c.MayBeHere key :=
  ⟨c.target?.getD uri, fun target htarget => by rw [htarget, Option.getD_some]⟩

/-- Some requests without those on other documents than `uri`. -/
inductive Shortened (uri : Uri) : List Request → List Request → Prop
  | nil : Shortened uri [] []
  | keep {r : Request} {rs short : List Request} (hhere : r.call.MayBeHere uri)
      (hrest : Shortened uri rs short) : Shortened uri (r :: rs) (r :: short)
  | drop {r : Request} {rs short : List Request} (helsewhere : r.call.MayBeElsewhere uri)
      (hrest : Shortened uri rs short) : Shortened uri (r :: rs) short

namespace PlainServer

variable {s s' : PlainServer} {uri : Uri} {c : Call}

theorem AgreeOn.mem_keys (h : AgreeOn uri s s') :
    uri ∈ s.documents.keys ↔ uri ∈ s'.documents.keys := by
  rw [UriMap.mem_keys_iff, UriMap.mem_keys_iff, h.document]

theorem AgreeOn.put (h : AgreeOn uri s s') (text : String) (version : Int) :
    AgreeOn uri (s.put uri text version) (s'.put uri text version) :=
  ⟨h.process, by simp [PlainServer.put], h.settings⟩

theorem agreeOn_put {target : Uri} (h : target ≠ uri) (s : PlainServer) (text : String)
    (version : Int) : AgreeOn uri (s.put target text version) s :=
  ⟨rfl, by simp [put, UriMap.get?_insert, Ne.symm h], rfl⟩

/-- A call that is not on another document does the same on two servers that agree. -/
theorem AgreeOn.accept (h : AgreeOn uri s s') (files : FileSystem) (hc : c.MayBeHere uri) :
    (s.accept files c).2.1 = (s'.accept files c).2.1 ∧
      AgreeOn uri (s.accept files c).1 (s'.accept files c).1 ∧
      (uri ∈ (s.accept files c).2.2 ↔ uri ∈ (s'.accept files c).2.2) := by
  cases c with
  | openSession opening =>
      exact ⟨rfl, ⟨congrArg (·.openSession files opening) h.process, h.document, h.settings⟩, Iff.rfl⟩
  | initialized => exact ⟨by simp only [PlainServer.accept, h.process], h, Iff.rfl⟩
  | didOpen target text version =>
      obtain rfl := hc target rfl
      exact ⟨rfl, h.put text version, Iff.rfl⟩
  | didChange target changes version =>
      obtain rfl := hc target rfl
      simp only [PlainServer.accept]
      cases changes.getLast? with
      | none => exact ⟨rfl, h, Iff.rfl⟩
      | some text => exact ⟨rfl, h.put text version, Iff.rfl⟩
  | didClose target =>
      obtain rfl := hc target rfl
      exact ⟨rfl, ⟨h.process, by simp [PlainServer.accept], by simp [PlainServer.accept]⟩, Iff.rfl⟩
  | didChangeConfiguration value =>
      refine ⟨rfl, ⟨congrArg (·.changeConfiguration value) h.process, h.document, ?_⟩, h.mem_keys⟩
      simp only [PlainServer.accept, h.process]
      split
      · rfl
      · exact h.settings
  | didChangeWatchedFiles uris =>
      simp only [PlainServer.accept, h.process]
      cases s'.reloaded? files uris with
      | none => exact ⟨rfl, h, Iff.rfl⟩
      | some settings => exact ⟨rfl, ⟨rfl, h.document, h.settings⟩, h.mem_keys⟩
  | shutdown | completion | resolve | hover => exact ⟨rfl, h, Iff.rfl⟩

/-- A call on another document is not seen. -/
theorem agreeOn_accept (s : PlainServer) (files : FileSystem) (hc : c.MayBeElsewhere uri) :
    eventsFor uri (s.accept files c).2.1 = [] ∧ AgreeOn uri (s.accept files c).1 s ∧
      uri ∉ (s.accept files c).2.2 := by
  rcases hc with rfl | ⟨target, htarget, hne⟩
  · exact ⟨rfl, .refl s uri, List.not_mem_nil⟩
  · cases c with
    | didOpen =>
        obtain rfl := Option.some.inj htarget
        exact ⟨rfl, agreeOn_put hne s _ _, by simp [accept, Ne.symm hne]⟩
    | didChange _ changes _ =>
        obtain rfl := Option.some.inj htarget
        simp only [accept]
        cases changes.getLast? with
        | none => exact ⟨rfl, .refl s uri, List.not_mem_nil⟩
        | some text => exact ⟨rfl, agreeOn_put hne s _ _, by simp [Ne.symm hne]⟩
    | didClose =>
        obtain rfl := Option.some.inj htarget
        refine ⟨by simp [accept, eventsFor, Event.uri?, hne], ⟨rfl, ?_, ?_⟩, List.not_mem_nil⟩
        · simp [accept, UriMap.get?_erase, Ne.symm hne]
        · simp [accept, UriMap.get?_erase, Ne.symm hne]
    | hover => exact ⟨rfl, .refl s uri, List.not_mem_nil⟩
    | _ => cases htarget

theorem AgreeOn.reply (h : AgreeOn uri s s') (hc : c.MayBeHere uri) : s.reply c = s'.reply c := by
  cases c with
  | hover target position =>
      obtain rfl := hc target rfl
      simp only [PlainServer.reply, h.document, h.process]
  | resolve item => simp only [PlainServer.reply, h.process]
  | _ => rfl

/-- Whole calls: the order of the documents does not matter either. -/
theorem AgreeOn.serve (h : AgreeOn uri s s') {request : Request} (hc : request.call.MayBeHere uri)
    {order order' : List Uri} (hnodup : order.Nodup) (hnodup' : order'.Nodup)
    (horder : order.Perm (s.accept request.files request.call).2.2)
    (horder' : order'.Perm (s'.accept request.files request.call).2.2) :
    eventsFor uri (s.serve request order).2 = eventsFor uri (s'.serve request order').2 ∧
      AgreeOn uri (s.serve request order).1 (s'.serve request order').1 := by
  obtain ⟨hevents, hagree, hmem⟩ := h.accept request.files hc
  rw [← horder.mem_iff, ← horder'.mem_iff] at hmem
  simp only [PlainServer.serve, eventsFor_append, hevents]
  -- both servers visit the document, or neither does
  by_cases huri : uri ∈ order
  · obtain ⟨hvisit, hafter⟩ := visitAll_of_mem hnodup huri
      (s.accept request.files request.call).1 request.answer
    obtain ⟨hvisit', hafter'⟩ := visitAll_of_mem hnodup' (hmem.mp huri)
      (s'.accept request.files request.call).1 request.answer
    obtain ⟨hsame, hvisited⟩ := hagree.visit request.answer
    rw [hvisit, hvisit', hsame]
    exact ⟨rfl, hafter.trans (hvisited.trans hafter'.symm)⟩
  · obtain ⟨hnone, hafter⟩ := visitAll_of_not_mem huri
      (s.accept request.files request.call).1 request.answer
    obtain ⟨hnone', hafter'⟩ := visitAll_of_not_mem (hmem.not.mp huri)
      (s'.accept request.files request.call).1 request.answer
    rw [hnone, hnone']
    exact ⟨rfl, hafter.trans (hagree.trans hafter'.symm)⟩

theorem agreeOn_serve (s : PlainServer) {request : Request} (hc : request.call.MayBeElsewhere uri)
    {order : List Uri} (horder : order.Perm (s.accept request.files request.call).2.2) :
    eventsFor uri (s.serve request order).2 = [] ∧ AgreeOn uri (s.serve request order).1 s := by
  obtain ⟨hnone, hagree, hmem⟩ := s.agreeOn_accept request.files hc
  rw [← horder.mem_iff] at hmem
  obtain ⟨hnone', hafter⟩ := visitAll_of_not_mem hmem
    (s.accept request.files request.call).1 request.answer
  simp only [serve, eventsFor_append, hnone, hnone']
  exact ⟨rfl, hafter.trans hagree⟩

end PlainServer

/-! ## Two sessions -/

/-- Two exchanges are the same for a document: what is sent about it, what the call returns, and what
is stored of the document afterwards. -/
structure SameFor (uri : Uri) (x y : Exchange) : Prop where
  request : x.request = y.request
  events : eventsFor uri x.events = eventsFor uri y.events
  reply : x.reply = y.reply
  document : (x.after.server.store.get? uri).map Document.draft =
    (y.after.server.store.get? uri).map Document.draft
  settings : x.after.server.store.cachedSettings uri = y.after.server.store.cachedSettings uri

/-- The second session is the first one without some exchanges on other documents; those that remain
are the same for the document, and those that are gone sent nothing about it. -/
inductive SameWithout (uri : Uri) : List Exchange → List Exchange → Prop
  | nil : SameWithout uri [] []
  | keep {x y : Exchange} {xs ys : List Exchange} (hsame : SameFor uri x y)
      (hrest : SameWithout uri xs ys) : SameWithout uri (x :: xs) (y :: ys)
  | drop {x : Exchange} {xs ys : List Exchange} (helsewhere : x.request.call.MayBeElsewhere uri)
      (hnone : eventsFor uri x.events = []) (hrest : SameWithout uri xs ys) :
      SameWithout uri (x :: xs) ys

theorem SameWithout.eventsFor_eq {uri : Uri} {full kept : List Exchange}
    (h : SameWithout uri full kept) :
    eventsFor uri (full.flatMap Exchange.events) = eventsFor uri (kept.flatMap Exchange.events) := by
  induction h with
  | nil => rfl
  | keep hsame _ ih =>
      simp only [List.flatMap_cons, eventsFor_append, hsame.events, ih]
  | drop _ hnone _ ih =>
      simp only [List.flatMap_cons, eventsFor_append, hnone, ih, List.nil_append]

namespace Exchange

variable {uri : Uri} {x y : Exchange}

theorem sameFor (hrequest : x.request = y.request)
    (hevents : eventsFor uri x.events = eventsFor uri y.events) (hreply : x.reply = y.reply)
    (h : PlainServer.AgreeOn uri x.after.server.plain y.after.server.plain) : SameFor uri x y := by
  refine ⟨hrequest, hevents, hreply, ?_, h.settings⟩
  rw [← Server.plain_get?, ← Server.plain_get?, h.document]

theorem reply_of_agreeOn (hrequest : x.request = y.request) (hhere : x.request.call.MayBeHere uri)
    (h : PlainServer.AgreeOn uri x.before.server.plain y.before.server.plain) :
    x.reply = y.reply := by
  rw [x.reply_eq, y.reply_eq, ← hrequest]
  exact h.reply hhere

/-- Two exchanges with the same request, from servers that agree. -/
theorem Serves.agreeOn_kept (hx : x.Serves) (hy : y.Serves) (hsound : Sound x.before)
    (hsound' : Sound y.before) (hrequest : x.request = y.request)
    (hhere : x.request.call.MayBeHere uri)
    (h : PlainServer.AgreeOn uri x.before.server.plain y.before.server.plain) :
    eventsFor uri x.events = eventsFor uri y.events ∧
      PlainServer.AgreeOn uri x.after.server.plain y.after.server.plain := by
  obtain ⟨order, hnodup, horder, hserve⟩ := hx.replay hsound
  obtain ⟨order', hnodup', horder', hserve'⟩ := hy.replay hsound'
  rw [← hrequest] at horder' hserve'
  have hserved := h.serve hhere hnodup hnodup' horder horder'
  rwa [hserve, hserve'] at hserved

/-- An exchange on another document. -/
theorem Serves.agreeOn_dropped (hx : x.Serves) (hsound : Sound x.before)
    (helsewhere : x.request.call.MayBeElsewhere uri) :
    eventsFor uri x.events = [] ∧
      PlainServer.AgreeOn uri x.after.server.plain x.before.server.plain := by
  obtain ⟨order, -, horder, hserve⟩ := hx.replay hsound
  have hserved := x.before.server.plain.agreeOn_serve helsewhere horder
  rwa [hserve] at hserved

end Exchange

/-- Sessions from servers that agree on a document, where the second has the requests of the first
without those on other documents. -/
theorem Session.sameWithout {uri : Uri} {m m' n n' : Machine} {full kept : List Exchange}
    (hfull : Session m full m') (hkept : Session n kept n')
    (hshort : Shortened uri (full.map Exchange.request) (kept.map Exchange.request))
    (hsound : Sound m) (hsound' : Sound n)
    (h : PlainServer.AgreeOn uri m.server.plain n.server.plain) : SameWithout uri full kept := by
  induction hfull generalizing n kept with
  | nil =>
      cases kept with
      | nil => exact .nil
      | cons => cases hshort
  | @cons x xs m hserves hrest ih =>
      have hafter := hserves.sound hsound
      rw [List.map_cons] at hshort
      generalize hrequests : kept.map Exchange.request = short at hshort
      cases hshort with
      | keep hhere hshort =>
          obtain ⟨y, ys, rfl, hrequest, rfl⟩ := List.map_eq_cons_iff.mp hrequests
          cases hkept with
          | cons hserves' hrest' =>
              obtain ⟨hevents, hagree⟩ :=
                hserves.agreeOn_kept hserves' hsound hsound' hrequest.symm hhere h
              have hreply := Exchange.reply_of_agreeOn hrequest.symm hhere h
              exact .keep (Exchange.sameFor hrequest.symm hevents hreply hagree)
                (ih hrest' hshort hafter (hserves'.sound hsound') hagree)
      | drop helsewhere hshort =>
          subst hrequests
          obtain ⟨hnone, hagree⟩ := hserves.agreeOn_dropped hsound helsewhere
          exact .drop helsewhere hnone (ih hkept hshort hafter hsound' (hagree.trans h))

/-- Sessions with the same requests: the documents may be validated in different orders. -/
theorem Session.sameFor {m m' n n' : Machine} {xs ys : List Exchange} (hxs : Session m xs m')
    (hys : Session n ys n') (hrequests : ys.map Exchange.request = xs.map Exchange.request)
    (hsound : Sound m) (hsound' : Sound n)
    (h : ∀ uri, PlainServer.AgreeOn uri m.server.plain n.server.plain) (uri : Uri) :
    List.Forall₂ (SameFor uri) xs ys := by
  induction hxs generalizing n ys with
  | nil =>
      obtain rfl := List.map_eq_nil_iff.mp hrequests
      exact .nil
  | @cons x xs m hserves hrest ih =>
      obtain ⟨y, ys, rfl, hrequest, hrequests⟩ := List.map_eq_cons_iff.mp hrequests
      cases hys with
      | cons hserves' hrest' =>
          have hafter : ∀ key, eventsFor key x.events = eventsFor key y.events ∧
              PlainServer.AgreeOn key x.after.server.plain y.after.server.plain := by
            intro key
            by_cases hhere : x.request.call.MayBeHere key
            · exact hserves.agreeOn_kept hserves' hsound hsound' hrequest.symm hhere (h key)
            · -- on either side nothing has changed for this document
              have helsewhere := Call.mayBeElsewhere_of_not_mayBeHere hhere
              obtain ⟨hnone, hagree⟩ := hserves.agreeOn_dropped hsound helsewhere
              obtain ⟨hnone', hagree'⟩ := hserves'.agreeOn_dropped hsound' (hrequest ▸ helsewhere)
              exact ⟨hnone.trans hnone'.symm, hagree.trans ((h key).trans hagree'.symm)⟩
          obtain ⟨key, hkey⟩ := x.request.call.exists_mayBeHere uri
          have hreply := Exchange.reply_of_agreeOn hrequest.symm hkey (h key)
          refine .cons (Exchange.sameFor hrequest.symm (hafter uri).1 hreply (hafter uri).2) ?_
          exact ih hrest' hrequests (hserves.sound hsound) (hserves'.sound hsound')
            fun key => (hafter key).2

/-- In runs without stalls documents do not influence each other. Take a run, and delete the calls on
other documents than `uri` from its requests. What remains can be served, and however it is, each
exchange that is left is the same for `uri` as in the run: the events about it, what the call returns,
and the text, version and settings that are stored afterwards. The deleted ones sent nothing about it, so
the events about it are the same all in all. And if nothing is deleted but the documents are validated
in other orders, every exchange is the same for every document. -/
theorem documents_are_independent {engine : Engine} {defaults : Settings} {discovers : Bool}
    {trace : List Entry} {m : Machine}
    (hrun : Run (Machine.start engine defaults discovers) trace m) (hunstalled : Unstalled trace)
    (hends : m.AtRest) :
    (∃ full, Session (Machine.start engine defaults discovers) full m ∧
      full.flatMap Exchange.steps = trace) ∧
    ∀ full, Session (Machine.start engine defaults discovers) full m →
      full.flatMap Exchange.steps = trace →
      (∀ uri short, Shortened uri (full.map Exchange.request) short →
        (∃ kept n, Session (Machine.start engine defaults discovers) kept n ∧
          kept.map Exchange.request = short) ∧
        ∀ kept n, Session (Machine.start engine defaults discovers) kept n →
          kept.map Exchange.request = short →
          SameWithout uri full kept ∧
          eventsFor uri (sentEvents trace) = eventsFor uri (kept.flatMap Exchange.events)) ∧
      ∀ other n, Session (Machine.start engine defaults discovers) other n →
        other.map Exchange.request = full.map Exchange.request →
        ∀ uri, List.Forall₂ (SameFor uri) full other := by
  have hsound := Sound.start engine defaults discovers
  have hagree := PlainServer.AgreeOn.refl (Machine.start engine defaults discovers).server.plain
  refine ⟨hrun.session hsound hunstalled (.start ..) hends, fun full hfull hsteps => ⟨?_, ?_⟩⟩
  · intro uri short hshort
    refine ⟨exists_session (.start ..) short, ?_⟩
    rintro kept n hkept rfl
    have hsame := hfull.sameWithout hkept hshort hsound hsound (hagree uri)
    refine ⟨hsame, ?_⟩
    rw [← hsame.eventsFor_eq, ← hsteps, sentEvents, List.flatMap_assoc]
    rfl
  · intro other n hother hrequests
    exact hfull.sameFor hother hrequests hsound hsound hagree

/-! ## A session with two documents

Each is opened once, and then the client announces a change, so that both are validated again. -/

def logoutUri : Uri := { scheme := "file", authority := some {}, path := "/w/logout.tacl" }

/-- A request of a client that answers with a cap of 1. -/
def cappedRequest (c : Call) : Request := ⟨.empty, c, fun _ => capAnswer 1⟩

def openLogin : List Request :=
  [cappedRequest (.openSession askableOpening), cappedRequest (.didOpen loginUri "AA BB" 1)]

def loginEvents : List Event :=
  [.requestConfiguration loginUri,
    .publish loginUri (some 1) (validate loginUri "AA BB" 1 false)]

theorem Session.head {request : Request} {m m₁ m₂ m' : Machine} {events : List Event}
    {during : List Entry} {xs : List Exchange}
    (hstep : Step m (.call request.files request.call) events m₁) (hrun : Run m₁ during m₂)
    (hwork : ∀ e ∈ during, ¬e.move.IsCall) (hanswered : Answered request.answer during)
    (hbegins : m.AtRest) (hends : m₂.AtRest) (hrest : Session m₂ xs m') :
    Session m (⟨request, ⟨m, .call request.files request.call, events, m₁⟩, during, m₂⟩ :: xs) m' :=
  .cons (x := ⟨request, ⟨m, _, events, m₁⟩, during, m₂⟩)
    ⟨rfl, hstep, hrun, hwork, hanswered, hbegins, hends⟩ hrest

theorem login_session : ∃ xs m, Session (Machine.start Engine.builtin {} false) xs m ∧
    xs.map Exchange.request = openLogin ++ [cappedRequest (.didChangeConfiguration .null)] ∧
    xs.flatMap Exchange.events = loginEvents ++ loginEvents := by
  have hsession : Session (Machine.start Engine.builtin {} false) _ _ :=
    @Session.head (cappedRequest (.openSession askableOpening)) _ _ _ _ _ _ _
      (.call rfl rfl (.refl _)) .refl
      (by simp) (by simp [Answered, answers]) (by exact ⟨rfl, rfl⟩) (by exact ⟨rfl, rfl⟩) <|
    @Session.head (cappedRequest (.didOpen loginUri "AA BB" 1)) _ _ _ _ _ _ _
      (.call rfl rfl (.refl _)) (.head (.ask rfl rfl rfl) <|
        .head (@Step.answer _ 0 _ (capAnswer 1) _ _ _ _ rfl (List.mem_cons_self ..) rfl rfl) .refl)
      (by simp [Move.IsCall])
      (by simp [Answered, answers, Entry.answer?, Machine.start, Machine.stop, cappedRequest])
      (by exact ⟨rfl, rfl⟩) (by exact ⟨rfl, rfl⟩) <|
    @Session.head (cappedRequest (.didChangeConfiguration .null)) _ _ _ _ _ _ _
      (.call rfl rfl (.refl _)) (.head (.ask rfl rfl rfl) <|
        .head (@Step.answer _ 1 _ (capAnswer 1) _ _ _ _ rfl (List.mem_cons_self ..) rfl rfl) .refl)
      (by simp [Move.IsCall])
      (by simp [Answered, answers, Entry.answer?, Machine.start, Machine.stop, cappedRequest])
      (by exact ⟨rfl, rfl⟩) (by exact ⟨rfl, rfl⟩) (.nil _)
  exact ⟨_, _, hsession, rfl, rfl⟩

/-- The law at that session: in whatever order the two are validated, the first one gets what it gets
without the second. -/
theorem login_is_independent : ∃ full m,
    Session (Machine.start Engine.builtin {} false) full m ∧
    full.map Exchange.request = openLogin ++ [cappedRequest (.didOpen logoutUri "CC" 7),
      cappedRequest (.didChangeConfiguration .null)] ∧
    eventsFor loginUri (sentEvents (full.flatMap Exchange.steps)) = loginEvents ++ loginEvents := by
  obtain ⟨full, m, hfull, hrequests⟩ := exists_session
    (Machine.AtRest.start Engine.builtin {} false) (openLogin ++
      [cappedRequest (.didOpen logoutUri "CC" 7), cappedRequest (.didChangeConfiguration .null)])
  obtain ⟨hrun, hunstalled, hends⟩ := hfull.run (.start ..)
  obtain ⟨kept, n, hkept, hkeptRequests, hevents⟩ := login_session
  have hshort : Shortened loginUri (full.map Exchange.request) (kept.map Exchange.request) := by
    have hhere : ∀ target, some loginUri = some target → target = loginUri :=
      fun target htarget => (Option.some.inj htarget).symm
    rw [hrequests, hkeptRequests]
    refine .keep ?_ (.keep hhere (.drop ?_ (.keep ?_ .nil)))
    · simp [Call.MayBeHere, Call.target?, cappedRequest]
    · exact Or.inr ⟨logoutUri, rfl, by decide⟩
    · simp [Call.MayBeHere, Call.target?, cappedRequest]
  obtain ⟨-, hlaw⟩ := documents_are_independent hrun hunstalled hends
  obtain ⟨hdeleted, -⟩ := hlaw full hfull rfl
  obtain ⟨-, hsame⟩ := hdeleted loginUri _ hshort
  obtain ⟨-, htotal⟩ := hsame kept n hkept rfl
  refine ⟨full, m, hfull, hrequests, ?_⟩
  rw [htotal, hevents]
  decide +kernel

end ScenarioServer
