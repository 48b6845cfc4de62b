/-
The shutdown broadcast drains the sessions.

After `stop`, `run` leaves its loop and posts the shutdown notification to all
notifiers it finds in its map, in the order of the map. Every session is there twice,
with its front and its back socket; the first of the two visits closes it, and what
the second one would call has been disabled by then.

`Waiting` says of a session that one of its visits is still to come: the broadcast has
not begun, a dispatch of one of its notifiers is left, or one of its observers is left
in the snapshot. Every step keeps this or closes the session (`drains_step`), and every
step of the reactor shortens what is left (`load_step`), so that the broadcast comes
to an end with all sessions closed (`shutdown_drains`).
-/
import PocoProxy.Closing
import PocoProxy.Observers
import PocoProxy.PollEntries
import PocoProxy.Sessions
import Mathlib.Algebra.GroupWithZero.Nat
import Mathlib.Algebra.Order.BigOperators.Group.List
import Mathlib.Algebra.Order.Group.Nat

set_option autoImplicit false

namespace PocoProxy.Session

open PocoProxy.Program PocoProxy.Socket PocoProxy.Reactor

/-! ## The shutdown handlers -/

/-- The method that is called for the shutdown of a side. -/
def shutdownMethod : Side → Method
  | .front => .onFrontShutdown
  | .back => .onBackShutdown

/-- Without an exception of a log statement, the four handlers that do nothing else but
close return normally. -/
theorem notified_run {w : World} (h : w.Alive) {o : Outcomes}
    (hlog : logThrows o .notified w.session.m_front = false)
    (hclose : w.session.m_closed = false → closeLogThrows o w.session = false) :
    notified o w = (.ok (), if w.session.m_closed then w else w.marked.torn) := by
  have hfirst := log_front_run h o .notified
  rw [hlog] at hfirst
  have hsecond := close_run h o
  rw [notified, Prog.bind_of_ok hfirst, hsecond]
  cases hc : w.session.m_closed with
  | true => rfl
  | false =>
      rw [hclose hc]
      rfl

theorem handler_shutdown {method : Method} (hkind : method.kind = .shutdown) (o : Outcomes) :
    handler method o = notified o := by
  cases method <;> first | rfl | cases hkind

theorem readSide_shutdown {method : Method} (hkind : method.kind = .shutdown) :
    readSide method = none := by
  cases method <;> first | rfl | cases hkind

end PocoProxy.Session

namespace PocoProxy.ReactorLoop

open PocoProxy.Program PocoProxy.Socket PocoProxy.PollSet PocoProxy.Registry PocoProxy.Reactor
open PocoProxy.Session PocoProxy.Runs

/-! ## The steps of the broadcast -/

/-- The reactor's thread takes the step. -/
def isReactorStep : Label → Bool
  | .stop => false
  | .arrive _ _ _ => false
  | .connectDone _ _ => false
  | _ => true

/-- No log statement throws in a handler that the shutdown calls. -/
def LogsQuiet (m : Machine) : Label → Prop
  | .notify o => ∀ x ∈ m.calledSession, logThrows o .notified x.1.session.m_front = false ∧
      (x.1.session.m_closed = false → closeLogThrows o x.1.session = false)
  | _ => True

instance (m : Machine) : (l : Label) → Decidable (LogsQuiet m l)
  | .notify o => inferInstanceAs (Decidable (∀ x ∈ m.calledSession,
      logThrows o .notified x.1.session.m_front = false ∧
        (x.1.session.m_closed = false → closeLogThrows o x.1.session = false)))
  | .stop | .poll _ | .idle | .shutdown | .dispatch | .broadcast _ | .skip | .accept _
  | .arrive .. | .connectDone .. => .isTrue trivial

/-- The steps of a shutdown in which nothing is thrown. -/
def QuietStep (m : Machine) (l : Label) (m' : Machine) : Prop := PocoStep m l m' ∧ LogsQuiet m l

/-- The shutdown broadcast is going on, or has come to its end. -/
structure Draining (m : Machine) : Prop where
  shuttingDown : m.shuttingDown = true
  tasks : m.tasks = [.broadcast .shutdown] ∧ m.observersToNotify = [] ∨
    (∀ t ∈ m.tasks, ∃ p, t = .notifier p .shutdown) ∧
      (m.observersToNotify ≠ [] → m.notification = .shutdown)

/-- A session to which nothing happens that matters here. -/
structure SameCell (c c' : Cell) : Prop where
  face : c'.face = c.face
  m_closed : c'.session.m_closed = c.session.m_closed
  m_service : c'.session.m_service = c.session.m_service

theorem SameCell.refl (c : Cell) : SameCell c c := ⟨rfl, rfl, rfl⟩

theorem SameCell.trans {c₁ c₂ c₃ : Cell} (h : SameCell c₁ c₂) (h' : SameCell c₂ c₃) :
    SameCell c₁ c₃ :=
  ⟨h'.face.trans h.face, h'.m_closed.trans h.m_closed, h'.m_service.trans h.m_service⟩

theorem SameCell.id {c c' : Cell} (h : SameCell c c') (d : Side) :
    (c'.session.socket d).id = (c.session.socket d).id :=
  congrArg (fun f : Face => f.socket d) h.face

/-- The cell after `Close`. -/
def Cell.torn (c : Cell) (r : SocketReactor) : Cell := .ofWorld (c.world r).marked.torn

/-- What a step can be while the broadcast goes on. -/
inductive DrainStep (m : Machine) (l : Label) (m' : Machine) : Prop
  /-- Another thread, a peer or the network. -/
  | outside (hl : isReactorStep l = false) (htasks : m'.tasks = m.tasks)
      (hsnapshot : m'.observersToNotify = m.observersToNotify)
      (hnotification : m'.notification = m.notification)
      (hshutting : m'.shuttingDown = m.shuttingDown) (hserver : m'.server = m.server)
      (hreactor : m'.reactor = m.reactor)
      (hcells : ∀ (i : ℕ) c, m.sessions[i]? = some c →
        ∃ c', m'.sessions[i]? = some c' ∧ SameCell c c')
  /-- The notifiers are listed. -/
  | posted (delegates : List NotifierPtr) (htasks : m.tasks = [.broadcast .shutdown])
      (hsnapshot : m.observersToNotify = [])
      (hperm : delegates.Perm (m.reactor.handlers.entries.map Sigma.snd))
      (heq : m' = { m with tasks := delegates.map (.notifier · .shutdown) })
  /-- The turn of a notifier. -/
  | dispatched (p : NotifierPtr) (rest : List Task)
      (htasks : m.tasks = .notifier p .shutdown :: rest) (hsnapshot : m.observersToNotify = [])
      (heq : m' = { m with tasks := rest }.post p .shutdown)
  /-- The turn of an observer that has been disabled, or waits for something else, or whose
  session has been marked as closed before. -/
  | passed (o : Observer) (rest : List Observer) (hsnapshot : m.observersToNotify = o :: rest)
      (hwhy : o.id ∉ m.reactor.disabled → o.accepts .shutdown = true →
        ∃ (i : ℕ) (c : Cell), o.target.object = .session i ∧ m.sessions[i]? = some c ∧
          c.session.m_closed = true)
      (heq : m' = { m with observersToNotify := rest })
  /-- The turn of an observer whose session is closed by it. -/
  | closed (o : Observer) (rest : List Observer) (i : ℕ) (c : Cell)
      (hsnapshot : m.observersToNotify = o :: rest) (hobject : o.target.object = .session i)
      (hc : m.sessions[i]? = some c) (halive : c.deletions = 0)
      (hopen : c.session.m_closed = false)
      (hall : ∀ d, targets m.reactor (c.session.socket d).id = sideTargets (.session i) d)
      (htasks : m'.tasks = m.tasks) (hrest : m'.observersToNotify = rest)
      (hnotification : m'.notification = m.notification)
      (hshutting : m'.shuttingDown = m.shuttingDown) (hserver : m'.server = m.server)
      (hreactor : m'.reactor = (c.world m.reactor).marked.torn.reactor)
      (hsessions : m'.sessions = m.sessions.set i (c.torn m.reactor))

/-- The steps outside of the reactor. -/
theorem onSession_outside (m : Machine) (l : Label) (hl : isReactorStep l = false) (i : ℕ)
    {f : World → World} (hf : ∀ w, SameFace w (f w))
    (hclosed : ∀ w, (f w).session.m_closed = w.session.m_closed)
    (hservice : ∀ w, (f w).session.m_service = w.session.m_service) :
    DrainStep m l (m.onSession i f) := by
  unfold Machine.onSession
  cases hc : m.sessions[i]? with
  | none => exact .outside hl rfl rfl rfl rfl rfl rfl fun j c hj => ⟨c, hj, .refl c⟩
  | some c =>
      refine .outside hl rfl rfl rfl rfl rfl (hf _).2 fun j c' hj => ?_
      by_cases e : j = i
      · rw [e, hc, Option.some.injEq] at hj
        subst hj
        refine ⟨.ofWorld (f (c.world m.reactor)), ?_, (hf _).1, hclosed _, hservice _⟩
        rw [e]
        exact List.getElem?_set_self (List.getElem?_eq_some_iff.mp hc).1
      · refine ⟨c', ?_, .refl c'⟩
        rw [← hj]
        exact List.getElem?_set_ne (Ne.symm e)

namespace Draining

variable {m : Machine}

/-- The next observer is asked about the shutdown notification. -/
theorem nextCall (h : Draining m) {o : Observer} {rest : List Observer}
    (hsnapshot : m.observersToNotify = o :: rest) :
    m.nextCall = if o.id ∉ m.reactor.disabled ∧ o.accepts .shutdown then some o.target
      else none := by
  have hnotification : m.notification = .shutdown := by
    rcases h.tasks with ⟨-, hnil⟩ | ⟨-, hshutdown⟩
    · rw [hnil] at hsnapshot
      cases hsnapshot
    · exact hshutdown (by rw [hsnapshot]; exact List.cons_ne_nil _ _)
  rw [Machine.nextCall, hsnapshot, hnotification]

/-- The first task is the broadcast, or the turn of a notifier. -/
theorem task_cases (h : Draining m) {t : Task} {rest : List Task} (htasks : m.tasks = t :: rest) :
    t = .broadcast .shutdown ∧ rest = [] ∨ ∃ p, t = .notifier p .shutdown := by
  rcases h.tasks with ⟨hone, -⟩ | ⟨hall, -⟩
  · rw [htasks, List.cons.injEq] at hone
    exact .inl hone
  · exact .inr (hall t (by rw [htasks]; exact List.mem_cons_self))

theorem not_betweenRounds (h : Draining m) : ¬ m.BetweenRounds := by
  rintro ⟨-, -, hnot⟩
  rw [h.shuttingDown] at hnot
  cases hnot

end Draining

/-- A handler that is called for the shutdown closes its session, unless that has been marked as
closed before. -/
theorem notify_drain {m : Machine} (h : m.Safe) (hdrain : Draining m) {o : Outcomes}
    (hadm : Admissible m (.notify o)) (hlogs : LogsQuiet m (.notify o)) :
    DrainStep m (.notify o) (step m (.notify o)) := by
  cases hobs : m.observersToNotify with
  | nil =>
      rw [Admissible, Machine.nextCall, hobs] at hadm
      cases hadm
  | cons ob rest =>
      have hnext := hdrain.nextCall hobs
      by_cases hcond : ob.id ∉ m.reactor.disabled ∧ ob.accepts .shutdown = true
      · rw [if_pos hcond] at hnext
        rcases htarget : ob.target with ⟨_ | i, method⟩
        · -- the acceptor is called by `accept` only
          rw [Admissible, hnext, htarget] at hadm
          cases hadm
        · rw [htarget] at hnext
          obtain ⟨c, hc, halive, -, hall⟩ := h.alive hnext
          obtain ⟨hlog, hclose⟩ := hlogs _ (Machine.calledSession_eq hnext hc)
          have hkind : method.kind = .shutdown := by
            have haccepts := hcond.2
            rw [Observer.accepts, htarget] at haccepts
            exact beq_iff_eq.mp haccepts
          have hrun : handler method o (c.world m.reactor) = (.ok (),
              if c.session.m_closed then c.world m.reactor
                else (c.world m.reactor).marked.torn) := by
            rw [handler_shutdown hkind]
            exact notified_run (w := c.world m.reactor) halive hlog hclose
          have heq : step m (.notify o) = m.onNotify i method o := by
            unfold step
            rw [hnext]
          rw [heq]
          unfold Machine.onNotify
          rw [hc]
          dsimp only
          rw [hrun, hobs]
          cases hopen : c.session.m_closed with
          | true =>
              refine .passed ob rest hobs (fun _ _ => ⟨i, c, ?_, hc, hopen⟩) ?_
              · rw [htarget]
              · rw [if_pos rfl]
                obtain ⟨hlt, hget⟩ := List.getElem?_eq_some_iff.mp hc
                have hsame : m.sessions.set i (.ofWorld (c.world m.reactor)) = m.sessions := by
                  subst hget
                  exact List.set_getElem_self hlt
                rw [hsame]
                rfl
          | false =>
              rw [if_neg Bool.false_ne_true]
              have hobject : ob.target.object = .session i := by rw [htarget]
              -- only the reactor and the cell of the world after `Close` matter
              generalize hw : (c.world m.reactor).marked.torn = w
              refine .closed ob rest i c hobs hobject hc halive hopen hall rfl rfl rfl rfl rfl ?_ ?_
              · rw [hw]
              · rw [Cell.torn, hw]
      · rw [if_neg hcond] at hnext
        rw [Admissible, hnext] at hadm
        cases hadm

/-- **What a step is** while the broadcast goes on. -/
theorem drain_step {m m' : Machine} {l : Label} (h : m.Safe) (hdrain : Draining m)
    (hstep : QuietStep m l m') : DrainStep m l m' := by
  obtain ⟨⟨⟨hadm, rfl⟩, -⟩, hlogs⟩ := hstep
  cases l with
  | stop => exact .outside rfl rfl rfl rfl rfl rfl rfl fun i c hc => ⟨c, hc, .refl c⟩
  | poll result => exact absurd hadm.1 hdrain.not_betweenRounds
  | idle => exact absurd hadm.1 hdrain.not_betweenRounds
  | shutdown => exact absurd hadm.1 hdrain.not_betweenRounds
  | arrive i d bs =>
      refine onSession_outside m _ rfl i (fun w => arrive_sameFace w d bs) ?_ ?_
      · intro w
        cases d <;> rfl
      · intro w
        cases d <;> rfl
  | connectDone i status =>
      exact onSession_outside m _ rfl i (fun w => connectDone_sameFace w status) (fun _ => rfl)
        fun _ => rfl
  | dispatch =>
      obtain ⟨hnil, hhead⟩ := hadm
      cases htasks : m.tasks with
      | nil =>
          rw [htasks] at hhead
          cases hhead
      | cons t rest =>
          rcases hdrain.task_cases htasks with ⟨rfl, -⟩ | ⟨p, rfl⟩
          · rw [htasks] at hhead
            cases hhead
          · refine .dispatched p rest htasks hnil ?_
            unfold step
            rw [htasks]
  | broadcast delegates =>
      obtain ⟨hnil, hhead, hperm⟩ := hadm
      cases htasks : m.tasks with
      | nil =>
          rw [htasks] at hhead
          cases hhead
      | cons t rest =>
          rcases hdrain.task_cases htasks with ⟨rfl, rfl⟩ | ⟨p, rfl⟩
          · refine .posted delegates htasks hnil hperm ?_
            unfold step
            rw [htasks]
            dsimp only
            rw [List.append_nil]
          · rw [htasks] at hhead
            cases hhead
  | skip =>
      obtain ⟨hne, hnone⟩ := hadm
      cases hobs : m.observersToNotify with
      | nil => exact absurd hobs hne
      | cons o rest =>
          have hnext := hdrain.nextCall hobs
          refine .passed o rest hobs (fun henabled haccepts => ?_) ?_
          · rw [hnone, if_pos ⟨henabled, haccepts⟩] at hnext
            cases hnext
          · unfold step
            rw [hobs]
            rfl
  | accept connection =>
      -- the acceptor waits for connections only
      obtain ⟨hnext, -⟩ := hadm
      cases hobs : m.observersToNotify with
      | nil =>
          rw [Machine.nextCall, hobs] at hnext
          cases hnext
      | cons o rest =>
          have hcall := hdrain.nextCall hobs
          rw [hnext] at hcall
          split at hcall
          · rename_i hcond
            have haccepts := hcond.2
            rw [Observer.accepts, ← Option.some.inj hcall] at haccepts
            cases haccepts
          · cases hcall
  | notify o => exact notify_drain h hdrain hadm hlogs

theorem DrainStep.draining {m m' : Machine} {l : Label} (h : Draining m)
    (hstep : DrainStep m l m') : Draining m' := by
  -- with observers in the snapshot, the notifiers have been listed
  have hlisted : ∀ {o rest}, m.observersToNotify = o :: rest →
      (∀ t ∈ m.tasks, ∃ p, t = .notifier p .shutdown) ∧ m.notification = .shutdown := by
    intro o rest hsnapshot
    rcases h.tasks with ⟨-, hnil⟩ | ⟨hall, hnotification⟩
    · rw [hsnapshot] at hnil
      cases hnil
    · exact ⟨hall, hnotification (by rw [hsnapshot]; exact List.cons_ne_nil _ _)⟩
  cases hstep with
  | outside hl htasks hsnapshot hnotification hshutting hserver hreactor hcells =>
      refine ⟨hshutting.trans h.shuttingDown, ?_⟩
      rw [htasks, hsnapshot, hnotification]
      exact h.tasks
  | posted delegates htasks hsnapshot hperm heq =>
      subst heq
      refine ⟨h.shuttingDown, .inr ⟨fun t ht => ?_, fun hne => absurd hsnapshot hne⟩⟩
      obtain ⟨p, -, rfl⟩ := List.mem_map.mp ht
      exact ⟨p, rfl⟩
  | dispatched p rest htasks hsnapshot heq =>
      subst heq
      refine ⟨h.shuttingDown, .inr ⟨fun t ht => ?_, fun _ => rfl⟩⟩
      rcases h.tasks with ⟨hone, -⟩ | ⟨hall, -⟩
      · rw [htasks] at hone
        cases hone
      · exact hall t (htasks ▸ List.mem_cons_of_mem _ ht)
  | passed o rest hsnapshot hwhy heq =>
      subst heq
      exact ⟨h.shuttingDown, .inr ⟨(hlisted hsnapshot).1, fun _ => (hlisted hsnapshot).2⟩⟩
  | closed o rest i c hsnapshot hobject hc halive hopen hall htasks hrest hnotification hshutting
      hserver hreactor hsessions =>
      refine ⟨hshutting.trans h.shuttingDown, ?_⟩
      rw [htasks, hnotification]
      exact .inr ⟨(hlisted hsnapshot).1, fun _ => (hlisted hsnapshot).2⟩

/-! ## A session that waits for its turn -/

/-- One of the two visits is still to come. -/
inductive Pending (m : Machine) (i : ℕ) (c : Cell) : Prop
  | announced (htasks : m.tasks = [.broadcast .shutdown])
  | listed (d : Side) (p : NotifierPtr)
      (hp : m.reactor.getNotifier (c.session.socket d).id = some p)
      (htask : .notifier p .shutdown ∈ m.tasks)
  | snapshot (o : Observer) (ho : o ∈ m.observersToNotify) (henabled : o.id ∉ m.reactor.disabled)
      (haccepts : o.accepts .shutdown = true) (hobject : o.target.object = .session i)

/-- Nothing has happened to the session, and its turn will come. -/
structure Waiting (m : Machine) (i : ℕ) (c₀ c : Cell) : Prop where
  same : SameCell c₀ c
  registered : ∀ d, targets m.reactor (c.session.socket d).id = sideTargets (.session i) d
  pending : Pending m i c

/-- The session has been closed. -/
structure Gone (c₀ c : Cell) : Prop where
  face : c.face = c₀.face.torn
  m_closed : c.session.m_closed = true
  m_service : c.session.m_service = c₀.session.m_service.map fun v =>
    { v with trace := v.trace ++ farewell }

theorem Gone.congr {c₀ c c' : Cell} (h : Gone c₀ c) (hsame : SameCell c c') : Gone c₀ c' :=
  ⟨hsame.face.trans h.face, hsame.m_closed.trans h.m_closed, hsame.m_service.trans h.m_service⟩

theorem Gone.deletions {c₀ c : Cell} (h : Gone c₀ c) : c.deletions ≠ 0 := by
  have hdel : c.deletions = c₀.deletions + 1 := congrArg Face.deletions h.face
  rw [hdel]
  exact Nat.succ_ne_zero _

theorem Gone.socket {c₀ c : Cell} (h : Gone c₀ c) (d : Side) :
    c.face.socket d = c₀.face.socket d := by
  rw [h.face]
  rfl

theorem marked_sameFace (w : World) : SameFace w w.marked := by
  refine ⟨face_ext rfl ?_ ?_ rfl rfl, rfl⟩
  · intro d
    cases d <;> rfl
  · intro d
    cases d <;> rfl

/-- What closing a session leaves of it. -/
theorem gone_torn {c₀ c : Cell} (hsame : SameCell c₀ c) (r : SocketReactor) :
    Gone c₀ (c.torn r) := by
  refine ⟨?_, rfl, ?_⟩
  · rw [Cell.torn, torn_face, (marked_sameFace _).1]
    exact congrArg Face.torn hsame.face
  · rw [← hsame.m_service]
    rfl

/-- A socket with handlers has a notifier. -/
theorem exists_notifier {r : SocketReactor} {s : SocketId} (h : targets r s ≠ []) :
    ∃ p, r.getNotifier s = some p ∧
      targets r s = (r.notifiers p).observers.map Observer.target := by
  cases hs : r.getNotifier s with
  | none => exact absurd (targets_of_none hs) h
  | some p => exact ⟨p, rfl, targets_of_some hs⟩

theorem sideTargets_ne_nil (this : ObjectId) (d : Side) : sideTargets this d ≠ [] := by
  cases d <;> exact List.cons_ne_nil _ _

theorem shutdownMethod_mem (d : Side) : shutdownMethod d ∈ sideMethods d := by
  cases d <;> decide

/-- The notifiers are listed, and those of the session are among them. -/
theorem Waiting.posted {m m' : Machine} {i : ℕ} {c₀ c : Cell} (h : Waiting m i c₀ c)
    {delegates : List NotifierPtr}
    (hperm : delegates.Perm (m.reactor.handlers.entries.map Sigma.snd))
    (heq : m' = { m with tasks := delegates.map (.notifier · .shutdown) }) :
    Waiting m' i c₀ c := by
  subst heq
  refine ⟨h.same, h.registered, ?_⟩
  have hne : targets m.reactor (c.session.socket .front).id ≠ [] := by
    rw [h.registered .front]
    exact sideTargets_ne_nil _ _
  obtain ⟨p, hp, -⟩ := exists_notifier hne
  -- either side will do
  refine .listed .front p hp (List.mem_map_of_mem (hperm.mem_iff.mpr ?_))
  exact List.mem_map.mpr ⟨⟨_, p⟩, AList.mem_lookup_iff.mp hp, rfl⟩

/-- A notifier has its turn. If it is one of the session's, the snapshot has the observer. -/
theorem Waiting.dispatched {m m' : Machine} {i : ℕ} {c₀ c : Cell} (hids : Ids m.reactor)
    (h : Waiting m i c₀ c) {p : NotifierPtr} {rest : List Task}
    (htasks : m.tasks = .notifier p .shutdown :: rest) (hsnapshot : m.observersToNotify = [])
    (heq : m' = { m with tasks := rest }.post p .shutdown) : Waiting m' i c₀ c := by
  subst heq
  refine ⟨h.same, h.registered, ?_⟩
  cases h.pending with
  | announced hone =>
      rw [htasks] at hone
      cases hone
  | snapshot o ho =>
      rw [hsnapshot] at ho
      cases ho
  | listed d q hq htask =>
      rw [htasks] at htask
      rcases List.mem_cons.mp htask with heq | hrest
      · -- all observers of the side are in the list, and enabled
        obtain rfl : q = p := (Task.notifier.inj heq).1
        have hmem : Target.mk (.session i) (shutdownMethod d) ∈
            (m.reactor.notifiers q).observers.map Observer.target := by
          rw [← targets_of_some hq, h.registered d]
          exact List.mem_map_of_mem (shutdownMethod_mem d)
        obtain ⟨o, ho, htarget⟩ := List.mem_map.mp hmem
        refine .snapshot o ho (hids.enabled q o ho) ?_ ?_
        · rw [Observer.accepts, htarget]
          cases d <;> rfl
        · rw [htarget]
      · exact .listed d q hq hrest

/-- An observer has its turn that does nothing. -/
theorem Waiting.passed {m m' : Machine} {i : ℕ} {c₀ c : Cell} (h : Waiting m i c₀ c)
    (hc : m.sessions[i]? = some c) (hopen : c₀.session.m_closed = false) {o : Observer}
    {rest : List Observer} (hsnapshot : m.observersToNotify = o :: rest)
    (hwhy : o.id ∉ m.reactor.disabled → o.accepts .shutdown = true →
      ∃ (j : ℕ) (c' : Cell), o.target.object = .session j ∧ m.sessions[j]? = some c' ∧
        c'.session.m_closed = true)
    (heq : m' = { m with observersToNotify := rest }) : Waiting m' i c₀ c := by
  subst heq
  refine ⟨h.same, h.registered, ?_⟩
  cases h.pending with
  | announced hone => exact .announced hone
  | listed d p hp htask => exact .listed d p hp htask
  | snapshot o' ho henabled haccepts hobject =>
      rw [hsnapshot] at ho
      rcases List.mem_cons.mp ho with rfl | hrest
      · -- the session's own observer would have closed it
        obtain ⟨j, c', hobject', hc', hclosed⟩ := hwhy henabled haccepts
        obtain rfl : i = j := ObjectId.session.inj (hobject.symm.trans hobject')
        obtain rfl := Option.some.inj (hc.symm.trans hc')
        rw [h.same.m_closed, hopen] at hclosed
        cases hclosed
      · exact .snapshot o' hrest henabled haccepts hobject

/-- What closing a session does to the registry. -/
structure Unregistered (r r' : SocketReactor) (j : ℕ) (c : Cell) : Prop where
  view : targets r' = Function.update (Function.update (targets r) c.session.m_front.id [])
    c.session.m_back.id []
  removes : Removes r r' (.session j)
  getNotifier : ∀ s, (∀ d, s ≠ (c.session.socket d).id) → r'.getNotifier s = r.getNotifier s

theorem unregistered_torn {m : Machine} (hsafe : m.Safe) (hids : Ids m.reactor) {j : ℕ} {c : Cell}
    (hc : m.sessions[j]? = some c)
    (hall : ∀ d, targets m.reactor (c.session.socket d).id = sideTargets (.session j) d) :
    Unregistered m.reactor (c.world m.reactor).marked.torn.reactor j c := by
  have hface : (Cell.ofWorld (c.world m.reactor).marked).face = c.face :=
    (marked_sameFace (c.world m.reactor)).1
  have hid : ∀ d, ((c.world m.reactor).marked.session.socket d).id = (c.session.socket d).id :=
    fun d => congrArg (fun f : Face => f.socket d) hface
  have hcell : m.faces[j]? = some (Cell.ofWorld (c.world m.reactor).marked).face := by
    rw [hface]
    exact Machine.faces_of_some hc
  have hthis : c.session.this = .session j := hsafe.this j _ (Machine.faces_of_some hc)
  refine ⟨(hsafe.torn_becomes hcell rfl fun d => ?_).view, ?_, fun s hs => ?_⟩
  · rw [hid]
    exact hall d
  · rw [← hthis]
    exact torn_removes (w := (c.world m.reactor).marked) hids
  · apply torn_getNotifier
    intro d
    rw [hid]
    exact hs d

namespace Unregistered

variable {r r' : SocketReactor} {j : ℕ} {c : Cell}

theorem targets_eq (h : Unregistered r r' j c) {s : SocketId}
    (hs : ∀ d, s ≠ (c.session.socket d).id) : targets r' s = targets r s := by
  have hfront : s ≠ c.session.m_front.id := hs .front
  have hback : s ≠ c.session.m_back.id := hs .back
  rw [h.view, Function.update_of_ne hback, Function.update_of_ne hfront]

theorem targets_nil (h : Unregistered r r' j c) (d : Side) :
    targets r' (c.session.socket d).id = [] := by
  rw [h.view]
  cases d with
  | back => exact Function.update_self _ _ _
  | front =>
      change Function.update (Function.update (targets r) c.session.m_front.id [])
        c.session.m_back.id [] c.session.m_front.id = []
      by_cases heq : c.session.m_front.id = c.session.m_back.id
      · rw [heq, Function.update_self]
      · rw [Function.update_of_ne heq, Function.update_self]

end Unregistered

/-- Another session is closed. Its observers are others than those of this one. -/
theorem Waiting.closed {m m' : Machine} {i j : ℕ} {c₀ c cj : Cell} (hsafe : m.Safe)
    (hids : Ids m.reactor) (h : Waiting m i c₀ c) (hc : m.sessions[i]? = some c) (hne : i ≠ j)
    {o : Observer} {rest : List Observer} (hsnapshot : m.observersToNotify = o :: rest)
    (hobject : o.target.object = .session j) (hcj : m.sessions[j]? = some cj)
    (htasks : m'.tasks = m.tasks) (hrest : m'.observersToNotify = rest)
    (hun : Unregistered m.reactor m'.reactor j cj) : Waiting m' i c₀ c := by
  -- the sockets are different ones
  have hother : ∀ d d', (c.session.socket d).id ≠ (cj.session.socket d').id := by
    intro d d' heq
    exact hne (hsafe.socket_inj i j _ _ d d' (Machine.faces_of_some hc)
      (Machine.faces_of_some hcj) heq).1
  refine ⟨h.same, fun d => (hun.targets_eq (hother d)).trans (h.registered d), ?_⟩
  cases h.pending with
  | announced hone => exact .announced (htasks.trans hone)
  | listed d p hp htask =>
      exact .listed d p ((hun.getNotifier _ (hother d)).trans hp) (htasks ▸ htask)
  | snapshot o' ho henabled haccepts hobject' =>
      rw [hsnapshot] at ho
      rcases List.mem_cons.mp ho with rfl | hmem
      · exact absurd (ObjectId.session.inj (hobject'.symm.trans hobject)) hne
      refine .snapshot o' (hrest ▸ hmem) (fun hdisabled => ?_) haccepts hobject'
      rcases hun.removes.disabled _ hdisabled with hbefore | ⟨p, x, hx, hid, hxobject⟩
      · exact henabled hbefore
      · -- an observer of the other session with the same `id` would be the same observer
        obtain ⟨q, hq⟩ := hsafe.snapshot o' (hsnapshot ▸ ho) henabled
        obtain rfl := hids.eq_of_id hx hq hid
        rw [hobject'] at hxobject
        exact hne (ObjectId.session.inj hxobject)

/-! ## The invariant of the broadcast -/

/-- What holds between the shutdown in `m₀` and the end. -/
structure Drains (m₀ m : Machine) : Prop where
  safe : m.Safe
  ids : Ids m.reactor
  draining : Draining m
  server : m.server = m₀.server
  targets : ∀ s, targets m.reactor s = targets m₀.reactor s ∨ targets m.reactor s = []
  sessions : ∀ (i : ℕ) c₀, m₀.sessions[i]? = some c₀ → m₀.Live c₀ → c₀.session.m_closed = false →
    ∃ c, m.sessions[i]? = some c ∧ (Waiting m i c₀ c ∨ Gone c₀ c)

/-- The start. -/
theorem drains_start {m₀ : Machine} (h : m₀.Safe) (hids : Ids m₀.reactor)
    (hadm : Admissible m₀ .shutdown) : Drains m₀ (step m₀ .shutdown) where
  safe := safe_step h ⟨hadm, rfl⟩
  ids := hids
  draining := ⟨rfl, .inl ⟨rfl, hadm.1.2.1⟩⟩
  server := rfl
  targets s := .inl rfl
  sessions i c hc hlive hopen := by
    refine ⟨c, hc, .inl ⟨.refl c, fun d => ?_, .announced rfl⟩⟩
    rcases h.whole i _ (Machine.faces_of_some hc) with hall | hnone
    · exact hall d
    · exact absurd (hnone .front) hlive.2

/-- A step that touches neither the registry nor a session: only what a session waits for may
have changed. -/
theorem Drains.of_same {m₀ m m' : Machine} (h : Drains m₀ m) (hsafe : m'.Safe)
    (hids : Ids m'.reactor) (hdraining : Draining m') (hserver : m'.server = m.server)
    (hreactor : m'.reactor = m.reactor) (hsessions : m'.sessions = m.sessions)
    (hwaiting : ∀ (i : ℕ) c₀ c, m.sessions[i]? = some c → c₀.session.m_closed = false →
      Waiting m i c₀ c → Waiting m' i c₀ c) : Drains m₀ m' := by
  refine ⟨hsafe, hids, hdraining, hserver.trans h.server, hreactor ▸ h.targets, ?_⟩
  intro i c₀ hc₀ hlive hopen
  obtain ⟨c, hc, hcase⟩ := h.sessions i c₀ hc₀ hlive hopen
  refine ⟨c, ?_, hcase.imp_left (hwaiting i c₀ c hc hopen)⟩
  rw [hsessions]
  exact hc

/-- **The step**: each session goes on waiting for its turn, or it is closed. -/
theorem drains_step {m₀ m m' : Machine} {l : Label} (h : Drains m₀ m) (hstep : QuietStep m l m') :
    Drains m₀ m' := by
  have hsafe' := safe_step h.safe hstep.1.1
  have hids' := (ids_step ⟨h.safe, h.ids⟩ hstep.1.1).2
  have hdrain := drain_step h.safe h.draining hstep
  have hdraining' := hdrain.draining h.draining
  cases hdrain with
  | outside hl htasks hsnapshot hnotification hshutting hserver hreactor hcells =>
      refine ⟨hsafe', hids', hdraining', hserver.trans h.server, hreactor ▸ h.targets, ?_⟩
      intro i c₀ hc₀ hlive hopen
      obtain ⟨c, hc, hcase⟩ := h.sessions i c₀ hc₀ hlive hopen
      obtain ⟨c', hc', hsame⟩ := hcells i c hc
      refine ⟨c', hc', hcase.imp (fun hwait => ?_) fun hgone => hgone.congr hsame⟩
      refine ⟨hwait.same.trans hsame, fun d => ?_, ?_⟩
      · rw [hreactor, hsame.id]
        exact hwait.registered d
      · -- nothing of what the notification is waiting in has changed
        cases hwait.pending with
        | announced hone => exact .announced (htasks.trans hone)
        | listed d p hp htask =>
            refine .listed d p ?_ (htasks ▸ htask)
            rw [hreactor, hsame.id]
            exact hp
        | snapshot o ho henabled haccepts hobject =>
            exact .snapshot o (hsnapshot ▸ ho) (hreactor ▸ henabled) haccepts hobject
  | posted delegates htasks hsnapshot hperm heq =>
      exact h.of_same hsafe' hids' hdraining' (by rw [heq]) (by rw [heq]) (by rw [heq])
        fun _ _ _ _ _ hwait => hwait.posted hperm heq
  | dispatched p rest htasks hsnapshot heq =>
      exact h.of_same hsafe' hids' hdraining' (by rw [heq]; rfl) (by rw [heq]; rfl)
        (by rw [heq]; rfl) fun _ _ _ _ _ hwait => hwait.dispatched h.ids htasks hsnapshot heq
  | passed o rest hsnapshot hwhy heq =>
      exact h.of_same hsafe' hids' hdraining' (by rw [heq]) (by rw [heq]) (by rw [heq])
        fun _ _ _ hc hopen hwait => hwait.passed hc hopen hsnapshot hwhy heq
  | closed o rest j cj hsnapshot hobject hcj halive hopenj hall htasks hrest hnotification hshutting
      hserver hreactor hsessions =>
      -- one session is closed, and takes its own observers out of the reactor
      have hun : Unregistered m.reactor m'.reactor j cj :=
        hreactor ▸ unregistered_torn h.safe h.ids hcj hall
      refine ⟨hsafe', hids', hdraining', hserver.trans h.server, fun s => ?_, ?_⟩
      · by_cases hs : ∃ d, s = (cj.session.socket d).id
        · obtain ⟨d, rfl⟩ := hs
          exact .inr (hun.targets_nil d)
        · rw [hun.targets_eq fun d heq => hs ⟨d, heq⟩]
          exact h.targets s
      · intro i c₀ hc₀ hlive hopen
        obtain ⟨c, hc, hcase⟩ := h.sessions i c₀ hc₀ hlive hopen
        rw [hsessions]
        by_cases hij : i = j
        · -- its own turn
          subst hij
          obtain rfl := Option.some.inj (hc.symm.trans hcj)
          refine ⟨c.torn m.reactor, List.getElem?_set_self (List.getElem?_eq_some_iff.mp hc).1,
            .inr ?_⟩
          rcases hcase with hwait | hgone
          · exact gone_torn hwait.same _
          · exact absurd halive hgone.deletions
        · -- another one, which has lost nothing
          refine ⟨c, (List.getElem?_set_ne (Ne.symm hij)).trans hc, hcase.imp_left fun hwait => ?_⟩
          exact hwait.closed h.safe h.ids hc hij hsnapshot hobject hcj htasks hrest hun

/-! ## The end of the broadcast -/

/-- There is nothing left to dispatch. -/
def Finished (m : Machine) : Prop := m.tasks = [] ∧ m.observersToNotify = []

/-- Nobody waits at the end. -/
theorem not_pending {m : Machine} (h : Finished m) {i : ℕ} {c : Cell} : ¬ Pending m i c := by
  obtain ⟨htasks, hsnapshot⟩ := h
  intro hpending
  cases hpending with
  | announced hone =>
      rw [htasks] at hone
      cases hone
  | listed d p hp htask =>
      rw [htasks] at htask
      cases htask
  | snapshot o ho =>
      rw [hsnapshot] at ho
      cases ho

/-- How many steps a task takes at most. -/
def Task.load (r : SocketReactor) : Task → ℕ
  | .socket _ _ => 0
  | .notifier p _ => (r.notifiers p).observers.length + 1
  | .broadcast _ =>
    ((r.handlers.entries.map Sigma.snd).map fun p =>
      (r.notifiers p).observers.length + 1).sum + 1

/-- How many steps are left at most. -/
def load (m : Machine) : ℕ :=
  (m.tasks.map (Task.load m.reactor)).sum + m.observersToNotify.length

/-- **Every step of the reactor shortens what is left.** -/
theorem load_step {m m' : Machine} {l : Label} (hsafe : m.Safe) (hids : Ids m.reactor)
    (h : Draining m) (hstep : QuietStep m l m') : load m' + (isReactorStep l).toNat ≤ load m := by
  have hone : (isReactorStep l).toNat ≤ 1 := Bool.toNat_le _
  unfold load
  cases drain_step hsafe h hstep with
  | outside hl htasks hsnapshot hnotification hshutting hserver hreactor hcells =>
      rw [hl, htasks, hsnapshot, hreactor]
      exact le_rfl
  | posted delegates htasks hsnapshot hperm heq =>
      -- the broadcast becomes the notifiers, in whatever order they come
      have hsum := (hperm.map fun p => (m.reactor.notifiers p).observers.length + 1).sum_nat
      subst heq
      have hmap : (delegates.map (Task.notifier · .shutdown)).map (Task.load m.reactor)
          = delegates.map fun p => (m.reactor.notifiers p).observers.length + 1 := by
        rw [List.map_map]
        rfl
      dsimp only
      rw [hmap, hsum, htasks, hsnapshot, List.map_singleton, List.sum_singleton, Task.load]
      simp only [List.length_nil]
      omega
  | dispatched p rest htasks hsnapshot heq =>
      -- a notifier becomes its observers
      subst heq
      rw [htasks, hsnapshot, List.map_cons, List.sum_cons, Task.load]
      change (rest.map (Task.load m.reactor)).sum + (m.reactor.notifiers p).observers.length + _ ≤ _
      simp only [List.length_nil]
      omega
  | passed o rest hsnapshot hwhy heq =>
      subst heq
      rw [hsnapshot, List.length_cons]
      dsimp only
      omega
  | closed o rest j cj hsnapshot hobject hcj halive hopenj hall htasks hrest hnotification hshutting
      hserver hreactor hsessions =>
      -- the lists of the notifiers do not get longer
      have hun : Unregistered m.reactor m'.reactor j cj :=
        hreactor ▸ unregistered_torn hsafe hids hcj hall
      have htask : ∀ t ∈ m.tasks, Task.load m'.reactor t ≤ Task.load m.reactor t := by
        intro t ht
        rcases h.tasks with ⟨-, hnil⟩ | ⟨hnotifiers, -⟩
        · rw [hsnapshot] at hnil
          cases hnil
        · obtain ⟨p, rfl⟩ := hnotifiers t ht
          exact Nat.succ_le_succ (hun.removes.observers p).length_le
      have hsum := List.sum_le_sum htask
      rw [htasks, hrest, hsnapshot, List.length_cons]
      omega

/-- The reactor is never stuck before the end. -/
theorem reactor_goes_on {m : Machine} (hsafe : m.Safe) (h : Draining m) (hnot : ¬ Finished m) :
    ∃ l m', isReactorStep l = true ∧ QuietStep m l m' := by
  cases hobs : m.observersToNotify with
  | cons o rest =>
      have hne : m.observersToNotify ≠ [] := by
        rw [hobs]
        exact List.cons_ne_nil _ _
      have hnext := h.nextCall hobs
      by_cases hcond : o.id ∉ m.reactor.disabled ∧ o.accepts .shutdown = true
      · -- a session's handler, in which no log statement throws without a logger
        rw [if_pos hcond] at hnext
        obtain ⟨i, method, htarget⟩ : ∃ i method, o.target = ⟨.session i, method⟩ := by
          rcases hsafe.called (hobs ▸ List.mem_cons_self) hcond.1 with
            haccept | ⟨i, -, -, -, ⟨d, ht⟩, -⟩
          · have haccepts := hcond.2
            rw [Observer.accepts, haccept] at haccepts
            cases haccepts
          · obtain ⟨method, -, heq⟩ := List.mem_map.mp ht
            exact ⟨i, method, heq.symm⟩
        rw [htarget] at hnext
        obtain ⟨c, hc, -⟩ := hsafe.alive hnext
        have hcalled := Machine.calledSession_eq hnext hc
        refine ⟨.notify {}, _, rfl, ⟨⟨?_, rfl⟩, fun x hx d hd => ?_⟩,
          fun x hx => ⟨rfl, fun _ => rfl⟩⟩
        · rw [Admissible, hnext]
          rfl
        · -- the shutdown handlers read nothing
          obtain rfl := Option.some.inj (hcalled.symm.trans hx)
          have haccepts := hcond.2
          rw [Observer.accepts, htarget] at haccepts
          change d ∈ readSide method at hd
          rw [readSide_shutdown (beq_iff_eq.mp haccepts)] at hd
          cases hd
      · rw [if_neg hcond] at hnext
        exact ⟨.skip, _, rfl, ⟨⟨⟨hne, hnext⟩, rfl⟩, trivial⟩, trivial⟩
  | nil =>
      cases htasks : m.tasks with
      | nil => exact absurd ⟨htasks, hobs⟩ hnot
      | cons t rest =>
          -- the snapshot is used up, and the next task has its turn
          rcases h.task_cases htasks with ⟨rfl, -⟩ | ⟨p, rfl⟩
          · refine ⟨.broadcast _, _, rfl, ⟨⟨⟨hobs, ?_, .refl _⟩, rfl⟩, trivial⟩, trivial⟩
            rw [htasks]
            rfl
          · refine ⟨.dispatch, _, rfl, ⟨⟨⟨hobs, ?_⟩, rfl⟩, trivial⟩, trivial⟩
            rw [htasks]
            rfl

/-! ## The result -/

/-- The acceptor stays registered. -/
theorem acceptor_step {m m' : Machine} {l : Label}
    (h : m.Safe ∧ targets m.reactor m.server.id = [Machine.acceptTarget]) (hstep : Step m l m') :
    m'.Safe ∧ targets m'.reactor m'.server.id = [Machine.acceptTarget] := by
  obtain ⟨hsafe, haccept⟩ := h
  have hserver : m'.server = m.server := by
    cases step_effect hsafe hstep <;> assumption
  refine ⟨safe_step hsafe hstep, ?_⟩
  rw [hserver]
  rcases targets_step hsafe hstep hsafe.server_lt with heq | ⟨-, hne⟩
  · rw [heq, haccept]
  · exact absurd rfl hne

theorem acceptor_listening (sockfd : Fd) :
    targets (Machine.listening sockfd).reactor (Machine.listening sockfd).server.id
      = [Machine.acceptTarget] := by
  rw [targets_listening]
  exact Function.update_self _ _ _

/-- The service of a session that is registered has been called in order. -/
theorem live_inOrder (sockfd : Fd) {ts : List (Transition Machine Label)}
    (hrun : IsRun PocoStep (Machine.listening sockfd) ts) :
    ∀ m ∈ states (Machine.listening sockfd) ts, ∀ (i : ℕ) c, m.sessions[i]? = some c →
      m.Live c → InOrder (c.world m.reactor) := by
  intro m hm i c hc hlive
  obtain ⟨u, o, front, backId, r, w, us, -, hcreate, hus, hlast, hnot⟩ :=
    sessions_simulated sockfd hrun m hm i c hc
  rcases createServiceHandler_cases hcreate with ⟨status, service, -, -, rfl⟩ | ⟨hreg, -⟩
  · rw [← hlast]
    exact invariant_states (I := InOrder) (fun _ _ _ h hstep => inOrder_invariant.step h hstep)
      (started_inOrder _ _ _ _ _ _ _) hus _ (last_mem_states _ _)
  · exact absurd (hnot hreg).1 hlive.2

/-- What the broadcast that has begun in `m` leaves. -/
structure Drained (m m' : Machine) : Prop where
  /-- Every live session has been closed, once and completely. -/
  sessions : ∀ (i : ℕ) c, m.sessions[i]? = some c → m.Live c → c.session.m_closed = false →
    ∃ c', m'.sessions[i]? = some c' ∧ TornDown (c'.world m'.reactor) ∧
      c'.session.m_service = c.session.m_service.map fun v =>
        { v with trace := v.trace ++ farewell }
  /-- The acceptor is still registered. -/
  acceptor : targets m'.reactor m'.server.id = [Machine.acceptTarget]
  /-- If there was no session that had been marked as closed before, nobody else is, -/
  others : (∀ c ∈ m.sessions, m.Live c → c.session.m_closed = false) →
    ∀ s, s ≠ m'.server.id → targets m'.reactor s = []
  /-- no session is live, -/
  live : (∀ c ∈ m.sessions, m.Live c → c.session.m_closed = false) →
    ∀ c ∈ m'.sessions, ¬ m'.Live c
  /-- and after `m_acceptor.reset()` the reactor has no handlers at all. -/
  reset : (∀ c ∈ m.sessions, m.Live c → c.session.m_closed = false) →
    ∀ s, targets (m'.reactor.removeEventHandler m'.server Machine.acceptTarget) s = []

/-- The session that is gone has been torn down. -/
theorem Gone.tornDown {c₀ c : Cell} (h : Gone c₀ c) {r r' : SocketReactor}
    (horder : InOrder (c₀.world r)) (halive : c₀.deletions = 0)
    (hopen : c₀.session.m_closed = false) : TornDown (c.world r') := by
  have htorn : TornDown (c₀.world r).marked.torn := tornDown_torn horder halive hopen
  have hdel : c.deletions = c₀.deletions + 1 := congrArg Face.deletions h.face
  have hfd : ∀ d, (c.session.socket d).sockfd = POCO_INVALID_SOCKET :=
    fun d => congrArg (fun f : Face => f.sockfd d) h.face
  refine ⟨h.m_closed, ?_, hfd .front, hfd .back, fun v hv => htorn.callbacks v ?_⟩
  · change c.deletions = 1
    rw [hdel, halive]
  · change c.session.m_service = some v at hv
    rw [← hv, h.m_service]
    rfl

/-- At the end of the broadcast all sessions are gone. -/
theorem drained_of_finished {m₀ m : Machine} (h : Drains m₀ m) (hsafe₀ : m₀.Safe)
    (haccept : targets m.reactor m.server.id = [Machine.acceptTarget])
    (horder : ∀ (i : ℕ) c, m₀.sessions[i]? = some c → m₀.Live c → InOrder (c.world m₀.reactor))
    (hfinished : Finished m) : Drained m₀ m := by
  have hgone : ∀ (i : ℕ) c₀, m₀.sessions[i]? = some c₀ → m₀.Live c₀ →
      c₀.session.m_closed = false → ∃ c, m.sessions[i]? = some c ∧ Gone c₀ c := by
    intro i c₀ hc₀ hlive hopen
    obtain ⟨c, hc, hwait | hgone⟩ := h.sessions i c₀ hc₀ hlive hopen
    · exact absurd hwait.pending (not_pending hfinished)
    · exact ⟨c, hc, hgone⟩
  have hothers : (∀ c ∈ m₀.sessions, m₀.Live c → c.session.m_closed = false) →
      ∀ s, s ≠ m.server.id → targets m.reactor s = [] := by
    intro hopen s hs
    apply List.eq_nil_iff_forall_not_mem.mpr
    intro t ht
    -- who is left now is a session that exists, and it has been one of the live ones
    rcases h.safe.registered s t ht with ⟨heq, -⟩ | ⟨i, f, d, hf, hd, rfl, -⟩
    · exact hs heq
    have ht₀ : t ∈ targets m₀.reactor (f.socket d) := by
      rcases h.targets (f.socket d) with heq | hnil
      · exact heq ▸ ht
      · rw [hnil] at ht
        cases ht
    rcases hsafe₀.registered _ t ht₀ with ⟨heq, -⟩ | ⟨j, f₀, d₀, hf₀, hd₀, heq, -⟩
    · exact hs (heq.trans (congrArg SocketImpl.id h.server.symm))
    obtain ⟨c₀, hc₀, rfl⟩ := Option.map_eq_some_iff.mp ((List.getElem?_map).symm.trans hf₀)
    have hlive : m₀.Live c₀ := by
      refine ⟨hd₀, fun hnil => ?_⟩
      rcases hsafe₀.whole j _ hf₀ with hall | hnone
      · exact sideTargets_ne_nil _ _ ((hall .front).symm.trans hnil)
      · rw [heq, hnone d₀] at ht₀
        cases ht₀
    obtain ⟨c, hc, hgone⟩ := hgone j c₀ hc₀ hlive (hopen c₀ (List.mem_of_getElem? hc₀) hlive)
    -- it is the same session, and it is gone
    obtain ⟨rfl, -⟩ := h.safe.socket_inj i j f c.face d d₀ hf (Machine.faces_of_some hc)
      (heq.trans (hgone.socket d₀).symm)
    rw [Machine.faces_of_some hc, Option.some.injEq] at hf
    subst hf
    exact hgone.deletions hd
  -- with nobody else registered, a live session would have no handlers
  refine ⟨?_, haccept, hothers, ?_, ?_⟩
  · intro i c₀ hc₀ hlive hopen
    obtain ⟨c, hc, hgone⟩ := hgone i c₀ hc₀ hlive hopen
    exact ⟨c, hc, hgone.tornDown (horder i c₀ hc₀ hlive) hlive.1 hopen, hgone.m_service⟩
  · intro hopen c hc hlive
    obtain ⟨i, hi⟩ := List.getElem?_of_mem hc
    have hne := (h.safe.socket_lt i _ .front (Machine.faces_of_some hi)).1
    exact hlive.2 (hothers hopen _ hne)
  · intro hopen s
    rw [(removeEventHandler_spec h.safe.wf m.server Machine.acceptTarget).view, remove]
    by_cases hs : s = m.server.id
    · rw [hs, Function.update_self, haccept, List.erase_cons_head]
    · rw [Function.update_of_ne hs]
      exact hothers hopen s hs

/-- **The shutdown broadcast drains every session.** In whatever state `run` leaves its loop
because of `stop`, and in whatever order the notifiers come, if no log statement throws
then the broadcast comes to its end, and there every live session has been closed. -/
theorem shutdown_drains (sockfd : Fd) {ts : List (Transition Machine Label)}
    (hrun : IsRun PocoStep (Machine.listening sockfd) ts) {m : Machine}
    (hm : m ∈ states (Machine.listening sockfd) ts) (hstop : Admissible m .shutdown) :
    (∃ bound, ∀ us, IsRun QuietStep (step m .shutdown) us →
      us.countP (fun t => isReactorStep t.label) ≤ bound) ∧
      ∀ us, IsRun QuietStep (step m .shutdown) us →
        (¬ Finished (last (step m .shutdown) us) →
          ∃ l m', isReactorStep l = true ∧ QuietStep (last (step m .shutdown) us) l m') ∧
        (Finished (last (step m .shutdown) us) → Drained m (last (step m .shutdown) us)) := by
  -- what holds in the state in which the broadcast starts
  have hrun' : IsRun Step (Machine.listening sockfd) ts := hrun.imp fun _ _ _ h => h.1
  have hids := invariant_states (I := fun m => m.Safe ∧ Ids m.reactor)
    (fun _ _ _ => ids_step) ⟨listening_safe sockfd, listening_ids sockfd⟩ hrun' m hm
  have haccept := invariant_states
    (I := fun m => m.Safe ∧ targets m.reactor m.server.id = [Machine.acceptTarget])
    (fun _ _ _ => acceptor_step) ⟨listening_safe sockfd, acceptor_listening sockfd⟩ hrun' m hm
  have hstart := drains_start hids.1 hids.2 hstop
  have hstep : ∀ x l x', Drains m x → QuietStep x l x' → Drains m x' :=
    fun _ _ _ => drains_step
  constructor
  · -- each step of the reactor takes from the load
    refine ⟨load (step m .shutdown), fun us hus => ?_⟩
    have hbound := measure_run (R := QuietStep) (I := Drains m) hstep
      (fun _ _ _ h hs => load_step h.safe h.ids h.draining hs) hstart hus
    exact Nat.le_of_add_left_le hbound
  · intro us hus
    have hdrains := invariant_states hstep hstart hus _ (last_mem_states _ _)
    have hlast := invariant_states
      (I := fun m => m.Safe ∧ targets m.reactor m.server.id = [Machine.acceptTarget])
      (fun _ _ _ h hs => acceptor_step h hs.1.1) ⟨hstart.safe, haccept.2⟩ hus _
      (last_mem_states _ _)
    refine ⟨reactor_goes_on hdrains.safe hdrains.draining, fun hfinished => ?_⟩
    exact drained_of_finished hdrains hids.1 hlast.2 (live_inOrder sockfd hrun m hm) hfinished

/-- Two sessions, one with its back connection up and one still connecting, and then `stop`. -/
def liveSessions : List Label :=
  [.poll (some [(0, ⟨true, false, false⟩)]), .dispatch,
   .accept (some ⟨5, sampleSetup .byPass, {}⟩), .connectDone 0 .succeeded,
   .poll (some [(0, ⟨true, false, false⟩)]), .dispatch,
   .accept (some ⟨6, { sampleSetup .custom with backFd := 8 }, {}⟩), .stop]

/-- The broadcast comes to a back socket first, and to the acceptor next. -/
def drainLabels : List Label :=
  [.broadcast [2, 0, 3, 1, 4], .dispatch, .skip, .skip, .notify {}, .skip, .dispatch, .skip,
   .dispatch, .skip, .notify {}, .skip, .dispatch, .dispatch]

theorem isRun_liveSessions :
    IsRun PocoStep (Machine.listening 3) (unroll step (Machine.listening 3) liveSessions) := by
  have hallowed : Allowed (fun m l => Admissible m l ∧ SocketsOk m l) step (Machine.listening 3)
      liveSessions := by decide +kernel
  exact (isRun_unroll hallowed).imp fun _ _ _ h => ⟨⟨h.1.1, h.2⟩, h.1.2⟩

theorem shutdown_drains_liveSessions :
    IsRun QuietStep (step (liveSessions.foldl step (Machine.listening 3)) .shutdown)
        (unroll step (step (liveSessions.foldl step (Machine.listening 3)) .shutdown)
          drainLabels) ∧
      Drained (liveSessions.foldl step (Machine.listening 3))
        (last (step (liveSessions.foldl step (Machine.listening 3)) .shutdown)
          (unroll step (step (liveSessions.foldl step (Machine.listening 3)) .shutdown)
            drainLabels)) := by
  have hallowed : Allowed (fun m l => (Admissible m l ∧ SocketsOk m l) ∧ LogsQuiet m l) step
      (step (liveSessions.foldl step (Machine.listening 3)) .shutdown) drainLabels := by
    decide +kernel
  have hus : IsRun QuietStep _ _ := (isRun_unroll hallowed).imp
    fun _ _ _ h => ⟨⟨⟨h.1.1.1, h.2⟩, h.1.1.2⟩, h.1.2⟩
  have hm : liveSessions.foldl step (Machine.listening 3) ∈
      states (Machine.listening 3) (unroll step (Machine.listening 3) liveSessions) :=
    mem_states.mpr (.inr ⟨_, List.mem_of_getLast? rfl, rfl⟩)
  have hstop : Admissible (liveSessions.foldl step (Machine.listening 3)) .shutdown := by
    decide +kernel
  have hfinished : Finished (last (step (liveSessions.foldl step (Machine.listening 3)) .shutdown)
      (unroll step (step (liveSessions.foldl step (Machine.listening 3)) .shutdown)
        drainLabels)) := ⟨rfl, rfl⟩
  have hend := (shutdown_drains 3 isRun_liveSessions hm hstop).2 _ hus
  exact ⟨hus, hend.2 hfinished⟩

end PocoProxy.ReactorLoop
