/-
Activating and deactivating while the thread starts.

`Activate` returns before the thread has taken a step. Until the thread has set
`m_thread_running`, a second `Activate` is not refused, and neither is one that
was called before the thread cleared it and tests it afterwards; until the thread
has created the reactor, `Deactivate` has nothing to stop and waits for a thread
that will not end. Both results name the windows exactly.
-/
import PocoProxy.Lib.History
import PocoProxy.Server

set_option autoImplicit false

namespace PocoProxy.Server

open PocoProxy.Runs

variable {Creator : Type}

/-! ## What a statement of the thread says about the state -/

namespace Worker

/-- The reactor has not been created yet. -/
def beforeReactor : Worker → Bool
  | .setRunning => true
  | .log => true
  | .makeTimeout => true
  | .makeBackAddress => true
  | .makeReactor => true
  | _ => false

/-- The reactor exists, and `run` has not been left. -/
def holdsReactor : Worker → Bool
  | .makeServerSocket => true
  | .makeAcceptor => true
  | .run => true
  | _ => false

/-- The reactor has been reset. -/
def afterReactor : Worker → Bool
  | .resetServerSocket => true
  | .logEnd => true
  | .clearRunning => true
  | .finished => true
  | _ => false

/-- The thread has set `m_thread_running` and not cleared it. -/
def isMarked : Worker → Bool
  | .setRunning => false
  | .finished => false
  | _ => true

/-- `ThreadLoop` has not returned. -/
def inThreadLoop : Worker → Bool
  | .clearRunning => false
  | .finished => false
  | _ => true

end Worker

/-- `m_reactor` is what the thread has made of it. -/
def ReactorOk (thread : Option Worker) (reactor : Option Reactor) : Prop :=
  match thread with
  | none => reactor = none
  | some w => (w.beforeReactor = true → reactor = none) ∧
      (w.holdsReactor = true → reactor.isSome = true) ∧
      (w.afterReactor = true → reactor = none)

/-- What holds in every state, whatever the two threads do. -/
structure Wf (s : CPOCOProxyServer Creator) : Prop where
  reactor : ReactorOk s.m_thread s.m_reactor
  running : s.m_thread_running = s.m_thread.any Worker.isMarked
  start : ∀ a, s.controller = .activate .startThread a → s.m_thread = none

theorem construct_wf : Wf (CPOCOProxyServer.construct : CPOCOProxyServer Creator) :=
  ⟨rfl, rfl, fun _ h => by cases h⟩

/-! ## What a step of the thread can do -/

namespace Worker

/-- The thread may still enter `run`, or is inside. -/
def entersRun (w : Worker) : Bool := w.beforeReactor || w.holdsReactor

end Worker

/-- The thread exists and is at such a statement. -/
def At (p : Worker → Bool) (s : CPOCOProxyServer Creator) : Prop := s.m_thread.any p = true

/-- The stored arguments of `Activate`. -/
def stored (s : CPOCOProxyServer Creator) : ℤ × String × ℤ × Option Creator :=
  (s.m_front_port, s.m_back_ip, s.m_back_port, s.m_creator)

/-- A step of the thread, seen from outside: it goes forward, does not touch the
controller and the stored arguments, and leaves `m_reactor` alone except where it
creates and resets it. -/
structure ThreadStep (s s' : CPOCOProxyServer Creator) : Prop where
  inThreadLoop : At Worker.inThreadLoop s' → At Worker.inThreadLoop s
  beforeReactor : At Worker.beforeReactor s' → At Worker.beforeReactor s
  entersRun : At Worker.entersRun s' → At Worker.entersRun s
  reactor : At Worker.entersRun s' → ¬ At Worker.beforeReactor s → s'.m_reactor = s.m_reactor
  controller : s'.controller = s.controller
  stored : stored s' = stored s
  undefined : s'.undefined = s.undefined
  exists_ : s.m_thread.isSome = true
  wf : Wf s → Wf s'

/-- What there is to show of one statement: what it does to the position, to
`m_reactor` and to `m_thread_running`. -/
theorem threadStep_of {s s' : CPOCOProxyServer Creator} {w w' : Worker}
    (hw : s.m_thread = some w) (hw' : s'.m_thread = some w')
    (hcontroller : s'.controller = s.controller) (hstored : stored s' = stored s)
    (hundefined : s'.undefined = s.undefined)
    (hloop : w'.inThreadLoop ≤ w.inThreadLoop) (hbefore : w'.beforeReactor ≤ w.beforeReactor)
    (henters : w'.entersRun ≤ w.entersRun)
    (hreactor : w'.entersRun = true → w.beforeReactor = false → s'.m_reactor = s.m_reactor)
    (hok : ReactorOk (some w) s.m_reactor → ReactorOk (some w') s'.m_reactor)
    (hrunning : s.m_thread_running = w.isMarked → s'.m_thread_running = w'.isMarked) :
    ThreadStep s s' where
  inThreadLoop h := by
    rw [At, hw', Option.any_some] at h
    rw [At, hw, Option.any_some]
    exact hloop h
  beforeReactor h := by
    rw [At, hw', Option.any_some] at h
    rw [At, hw, Option.any_some]
    exact hbefore h
  entersRun h := by
    rw [At, hw', Option.any_some] at h
    rw [At, hw, Option.any_some]
    exact henters h
  reactor h hnot := by
    rw [At, hw', Option.any_some] at h
    rw [At, hw, Option.any_some, Bool.not_eq_true] at hnot
    exact hreactor h hnot
  controller := hcontroller
  stored := hstored
  undefined := hundefined
  exists_ := by rw [hw]; rfl
  wf h := by
    refine ⟨?_, ?_, fun a hstart => ?_⟩
    · have hr := h.reactor
      rw [hw] at hr
      rw [hw']
      exact hok hr
    · have hr := h.running
      rw [hw] at hr
      rw [hw']
      exact hrunning hr
    · rw [hcontroller] at hstart
      have hnone := h.start a hstart
      rw [hw] at hnone
      cases hnone

theorem threadStep_of_worker {s s' : CPOCOProxyServer Creator} {w : Worker}
    (hw : s.m_thread = some w) (hstep : s.stepWorker w = some s') : ThreadStep s s' := by
  cases w <;>
    simp only [CPOCOProxyServer.stepWorker, Option.some.injEq, reduceCtorEq] at hstep
  case run =>
    split at hstep
    · subst hstep
      refine threadStep_of hw rfl rfl rfl rfl (by decide) (by decide) (by decide) ?_ ?_ id
      · exact fun h => by cases h
      · simp [ReactorOk, Worker.beforeReactor, Worker.holdsReactor, Worker.afterReactor]
    · subst hstep
      exact threadStep_of hw hw rfl rfl rfl (by decide) (by decide) (by decide) (fun _ _ => rfl)
        id id
  all_goals
    subst hstep
    refine threadStep_of hw rfl rfl rfl rfl (by decide) (by decide) (by decide) ?_ ?_ ?_
  all_goals
    simp [CPOCOProxyServer.at_, ReactorOk, Worker.isMarked, Worker.beforeReactor,
      Worker.holdsReactor, Worker.afterReactor, Worker.entersRun]

/-- Every exception ends in the `catch`, and leaves the members as they are. -/
theorem stepThrows_catch {s s' : CPOCOProxyServer Creator} {w : Worker}
    (hstep : s.stepThrows w = some s') :
    s' = s.at_ .logError ∧ w.inThreadLoop = true ∧ w.isMarked = true := by
  cases w <;>
    simp only [CPOCOProxyServer.stepThrows, Option.some.injEq, reduceCtorEq,
      Option.ite_none_right_eq_some] at hstep
  case run => exact ⟨hstep.2.symm, rfl, rfl⟩
  all_goals exact ⟨hstep.symm, rfl, rfl⟩

theorem threadStep_of_throws {s s' : CPOCOProxyServer Creator} {w : Worker}
    (hw : s.m_thread = some w) (hstep : s.stepThrows w = some s') : ThreadStep s s' := by
  obtain ⟨rfl, hloop, hmarked⟩ := stepThrows_catch hstep
  refine threadStep_of hw rfl rfl rfl rfl (by rw [hloop]; decide) (Bool.false_le _)
    (Bool.false_le _) ?_ ?_ ?_
  · exact fun h => by cases h
  · simp [ReactorOk, Worker.beforeReactor, Worker.holdsReactor, Worker.afterReactor]
  · exact fun h => h.trans hmarked

/-! ## The invariant -/

/-- The flag of a reactor does not matter to `ReactorOk`. -/
theorem ReactorOk.map {t : Option Worker} {r : Option Reactor} (h : ReactorOk t r)
    (f : Reactor → Reactor) : ReactorOk t (r.map f) := by
  cases t with
  | none => rw [show r = none from h]; rfl
  | some w => simpa [ReactorOk] using h

/-- `join` waits for the end of the thread. -/
theorem join_eq_some {s s' : CPOCOProxyServer Creator} {next : Controller Creator}
    (h : s.join next = some s') :
    s.m_thread = some .finished ∧ s' = { s with m_thread := none, controller := next } := by
  unfold CPOCOProxyServer.join at h
  split at h
  · exact ⟨by assumption, (Option.some.inj h).symm⟩
  · cases h

theorem join_wf {s s' : CPOCOProxyServer Creator} {next : Controller Creator} (h : Wf s)
    (hstep : s.join next = some s') : Wf s' := by
  obtain ⟨hw, rfl⟩ := join_eq_some hstep
  refine ⟨?_, ?_, fun _ _ => rfl⟩
  · have hr := h.reactor
    rw [hw] at hr
    exact hr.2.2 rfl
  · have hr := h.running
    rw [hw] at hr
    exact hr

/-- A step of the controller that leaves the thread alone. -/
theorem Wf.congr {s s' : CPOCOProxyServer Creator} (h : Wf s)
    (hthread : s'.m_thread = s.m_thread) (hrunning : s'.m_thread_running = s.m_thread_running)
    (hreactor : s'.m_reactor = s.m_reactor)
    (hstart : ∀ a, s'.controller = .activate .startThread a → s.m_thread = none) : Wf s' := by
  refine ⟨?_, ?_, fun a ha => hthread.trans (hstart a ha)⟩
  · rw [hthread, hreactor]
    exact h.reactor
  · rw [hthread, hrunning]
    exact h.running

theorem stepActivate_wf {s s' : CPOCOProxyServer Creator} {a : Arguments Creator}
    {pc : ActivatePc} (h : Wf s) (hc : s.controller = .activate pc a)
    (hstep : s.stepActivate a pc = some s') : Wf s' := by
  cases pc with
  | join => exact join_wf h hstep
  | startThread =>
      have hnone := h.start a hc
      cases hstep
      refine ⟨?_, ?_, fun _ hstart => by cases hstart⟩
      · have hr := h.reactor
        rw [hnone] at hr
        obtain hr : s.m_reactor = none := hr
        simp [ReactorOk, hr, Worker.holdsReactor]
      · have hr := h.running
        rw [hnone] at hr
        exact hr
  | testRunning =>
      simp only [CPOCOProxyServer.stepActivate] at hstep
      split at hstep <;> cases hstep <;> exact h.congr rfl rfl rfl (fun _ hstart => by cases hstart)
  | testJoinable =>
      simp only [CPOCOProxyServer.stepActivate] at hstep
      split at hstep <;> cases hstep
      · exact h.congr rfl rfl rfl (fun _ hstart => by cases hstart)
      · exact h.congr rfl rfl rfl (fun _ _ => by simp_all)
  | _ =>
      cases hstep
      exact h.congr rfl rfl rfl (fun _ hstart => by cases hstart)

theorem stepDeactivate_wf {s s' : CPOCOProxyServer Creator} {pc : DeactivatePc} (h : Wf s)
    (hstep : s.stepDeactivate pc = some s') : Wf s' := by
  cases pc with
  | join => exact join_wf h hstep
  | stop =>
      cases hstep
      exact ⟨h.reactor.map _, h.running, fun _ hstart => by cases hstart⟩
  | testReactor =>
      simp only [CPOCOProxyServer.stepDeactivate] at hstep
      split at hstep <;> cases hstep <;> exact h.congr rfl rfl rfl (fun _ hstart => by cases hstart)
  | testJoinable =>
      simp only [CPOCOProxyServer.stepDeactivate] at hstep
      split at hstep <;> cases hstep <;> exact h.congr rfl rfl rfl (fun _ hstart => by cases hstart)
  | _ =>
      cases hstep
      exact h.congr rfl rfl rfl (fun _ hstart => by cases hstart)

/-- `Activate` is called when the controller is in no function. -/
theorem callActivate_step {s s' : CPOCOProxyServer Creator} {args : Arguments Creator}
    (h : Step s (.callActivate args) s') :
    s.controller = .idle ∧ s' = { s with controller := .activate .log args } := by
  unfold Step step at h
  dsimp only at h
  split at h
  · rename_i hidle
    exact ⟨hidle, (Option.some.inj h).symm⟩
  · cases h

/-- So is `Deactivate`. -/
theorem callDeactivate_step {s s' : CPOCOProxyServer Creator} (h : Step s .callDeactivate s') :
    s.controller = .idle ∧ s' = { s with controller := .deactivate .log } := by
  unfold Step step at h
  dsimp only at h
  split at h
  · rename_i hidle
    exact ⟨hidle, (Option.some.inj h).symm⟩
  · cases h

/-- What an action is, by the thread that takes it. -/
theorem step_cases {s s' : CPOCOProxyServer Creator} {a : Action Creator} (h : Step s a s') :
    (∃ next, s.controller = .idle ∧ s' = { s with controller := next } ∧
        ((∃ args, next = .activate .log args) ∨ next = .deactivate .log)) ∨
      (a = .controller ∧ ∃ pc args, s.controller = .activate pc args ∧
        s.stepActivate args pc = some s') ∨
      (a = .controller ∧ ∃ pc, s.controller = .deactivate pc ∧ s.stepDeactivate pc = some s') ∨
      (a ≠ .controller ∧ ThreadStep s s') := by
  cases a with
  | callActivate args =>
      obtain ⟨hidle, heq⟩ := callActivate_step h
      exact .inl ⟨_, hidle, heq, .inl ⟨args, rfl⟩⟩
  | callDeactivate =>
      obtain ⟨hidle, heq⟩ := callDeactivate_step h
      exact .inl ⟨_, hidle, heq, .inr rfl⟩
  | controller =>
      unfold Step step CPOCOProxyServer.stepController at h
      dsimp only at h
      split at h
      · cases h
      · rename_i pc args hc
        exact .inr (.inl ⟨rfl, pc, args, hc, h⟩)
      · rename_i pc hc
        exact .inr (.inr (.inl ⟨rfl, pc, hc, h⟩))
  | worker =>
      obtain ⟨w, hw, hstep⟩ := Option.bind_eq_some_iff.mp h
      exact .inr (.inr (.inr ⟨by simp, threadStep_of_worker hw hstep⟩))
  | workerThrows =>
      obtain ⟨w, hw, hstep⟩ := Option.bind_eq_some_iff.mp h
      exact .inr (.inr (.inr ⟨by simp, threadStep_of_throws hw hstep⟩))

/-- **The invariant** of the server is kept by both threads. -/
theorem step_wf {s s' : CPOCOProxyServer Creator} {a : Action Creator} (h : Wf s)
    (hstep : Step s a s') : Wf s' := by
  rcases step_cases hstep with ⟨next, -, rfl, hnext⟩ | ⟨-, pc, args, hc, hs⟩ | ⟨-, pc, -, hs⟩ |
    ⟨-, hs⟩
  · refine h.congr rfl rfl rfl fun a hstart => ?_
    rcases hnext with ⟨args, rfl⟩ | rfl <;> cases hstart
  · exact stepActivate_wf h hc hs
  · exact stepDeactivate_wf h hs
  · exact hs.wf h

/-! ## A second `Activate` -/

/-- An `Activate` has returned true, and its thread has not finished `ThreadLoop`. -/
def Active (s : CPOCOProxyServer Creator) : Prop := At Worker.inThreadLoop s

/-- `Activate` has passed its test of `m_thread_running`. -/
def ActivatePc.pastGuard : ActivatePc → Bool
  | .log => false
  | .testRunning => false
  | .returned _ => false
  | _ => true

/-- Whether the `Activate` that is on its way was called on an active server. -/
def noteCall (called : Bool) (t : Transition (CPOCOProxyServer Creator) (Action Creator)) : Bool :=
  match t.label with
  | .callActivate _ => t.src.m_thread.any Worker.inThreadLoop
  | _ => called

/-- What a step of an `Activate` that was called on an active server should be like: the test
makes it return false, and none of its statements changes the stored arguments. And no
`Activate` comes to wait for a thread whose reactor nobody has stopped. -/
structure Refused (called : Bool) (s : CPOCOProxyServer Creator) (a : Action Creator)
    (s' : CPOCOProxyServer Creator) : Prop where
  returnsFalse : ∀ args, a = .controller → s.controller = .activate .testRunning args →
    called = true → s'.controller = .activate (.returned false) args
  keepsArguments : ∀ pc args, a = .controller → s.controller = .activate pc args →
    called = true → stored s' = stored s
  neverWaits : ∀ args, s'.controller = .activate .join args → Active s' →
    s'.m_reactor = some ⟨true⟩

/-- Between the call on an active server and its test of `m_thread_running` the thread
has neither still to set the flag nor cleared it already. -/
def TestsMarked (called : Bool) (s : CPOCOProxyServer Creator) (a : Action Creator) : Prop :=
  ∀ args, a = .controller → s.controller = .activate .testRunning args → called = true →
    s.m_thread ≠ some .setRunning ∧ s.m_thread ≠ some .finished

/-- The guard has held so far. -/
structure Guarded (s : CPOCOProxyServer Creator) (called : Bool) : Prop where
  wf : Wf s
  /-- An `Activate` that was called on an active server is not past its test. -/
  notCalled : ∀ pc args, s.controller = .activate pc args → pc.pastGuard = true → called = false
  /-- The thread that was active then is still there. -/
  exists_ : ∀ pc args, s.controller = .activate pc args → called = true →
    s.m_thread.isSome = true
  /-- Where there was none, there is none before `Activate` starts one. -/
  notActive : ∀ pc args, s.controller = .activate pc args → called = false →
    (∀ result, pc ≠ .returned result) → ¬ Active s

/-- Between the first statement of the thread and its last one the flag is set. -/
theorem running_iff {s : CPOCOProxyServer Creator} (h : Wf s) (hsome : s.m_thread.isSome = true) :
    s.m_thread_running = true ↔ s.m_thread ≠ some .setRunning ∧ s.m_thread ≠ some .finished := by
  obtain ⟨w, hw⟩ := Option.isSome_iff_exists.mp hsome
  rw [h.running, hw, Option.any_some]
  cases w <;> simp [Worker.isMarked]

theorem stepDeactivate_controller {s s' : CPOCOProxyServer Creator} {pc : DeactivatePc}
    (hstep : s.stepDeactivate pc = some s') :
    s'.controller = .idle ∨ ∃ pc', s'.controller = .deactivate pc' := by
  cases pc with
  | join =>
      obtain ⟨-, rfl⟩ := join_eq_some hstep
      exact .inr ⟨_, rfl⟩
  | testReactor =>
      simp only [CPOCOProxyServer.stepDeactivate] at hstep
      split at hstep <;> cases hstep <;> exact .inr ⟨_, rfl⟩
  | testJoinable =>
      simp only [CPOCOProxyServer.stepDeactivate] at hstep
      split at hstep <;> cases hstep <;> exact .inr ⟨_, rfl⟩
  | returned result => cases hstep; exact .inl rfl
  | _ => cases hstep; exact .inr ⟨_, rfl⟩

theorem step_activate {s : CPOCOProxyServer Creator} {pc : ActivatePc} {args : Arguments Creator}
    (hc : s.controller = .activate pc args) : step s .controller = s.stepActivate args pc := by
  simp only [step, CPOCOProxyServer.stepController, hc]

theorem step_testRunning {s : CPOCOProxyServer Creator} {args : Arguments Creator}
    (hc : s.controller = .activate .testRunning args) :
    step s .controller = some { s with
      controller :=
        .activate (if s.m_thread_running = true then .returned false else .setFrontPort)
          args } := by
  rw [step_activate hc, CPOCOProxyServer.stepActivate]
  split <;> rfl

/-- Before its guard, `Activate` has not changed the arguments. -/
theorem stored_of_not_pastGuard {s s' : CPOCOProxyServer Creator} {pc : ActivatePc}
    {args : Arguments Creator} (hpc : pc.pastGuard = false)
    (hstep : s.stepActivate args pc = some s') : stored s' = stored s := by
  cases pc with
  | testRunning =>
      simp only [CPOCOProxyServer.stepActivate] at hstep
      split at hstep <;> cases hstep <;> rfl
  | log => cases hstep; rfl
  | returned result => cases hstep; rfl
  | _ => cases hpc

/-- A statement of `Activate` goes on to one with the same arguments, or `Activate` is over. -/
theorem stepActivate_controller {s s' : CPOCOProxyServer Creator} {pc : ActivatePc}
    {args : Arguments Creator} (hstep : s.stepActivate args pc = some s') :
    s'.controller = .idle ∨ ∃ pc', s'.controller = .activate pc' args := by
  cases pc with
  | join =>
      obtain ⟨-, rfl⟩ := join_eq_some hstep
      exact .inr ⟨_, rfl⟩
  | testRunning =>
      simp only [CPOCOProxyServer.stepActivate] at hstep
      split at hstep <;> cases hstep <;> exact .inr ⟨_, rfl⟩
  | testJoinable =>
      simp only [CPOCOProxyServer.stepActivate] at hstep
      split at hstep <;> cases hstep <;> exact .inr ⟨_, rfl⟩
  | returned result => cases hstep; exact .inl rfl
  | _ => cases hstep; exact .inr ⟨_, rfl⟩

/-- The statements before `startThread` leave the thread alone, or take it away when it has
ended. -/
theorem stepActivate_thread {s s' : CPOCOProxyServer Creator} {pc : ActivatePc}
    {args : Arguments Creator} (hne : pc ≠ .startThread)
    (hstep : s.stepActivate args pc = some s') :
    s'.m_thread = s.m_thread ∨ pc = .join ∧ s'.m_thread = none := by
  cases pc with
  | join =>
      obtain ⟨-, rfl⟩ := join_eq_some hstep
      exact .inr ⟨rfl, rfl⟩
  | startThread => exact absurd rfl hne
  | testRunning =>
      simp only [CPOCOProxyServer.stepActivate] at hstep
      split at hstep <;> cases hstep <;> exact .inl rfl
  | testJoinable =>
      simp only [CPOCOProxyServer.stepActivate] at hstep
      split at hstep <;> cases hstep <;> exact .inl rfl
  | _ => cases hstep; exact .inl rfl

/-- Past the test is what has been past it before, or what it lets pass. -/
theorem pastGuard_of_stepActivate {s s' : CPOCOProxyServer Creator} {pc pc' : ActivatePc}
    {args args' : Arguments Creator} (hstep : s.stepActivate args pc = some s')
    (hc' : s'.controller = .activate pc' args') (hpast : pc'.pastGuard = true) :
    pc.pastGuard = true ∨ pc = .testRunning ∧ s.m_thread_running ≠ true := by
  cases pc with
  | log => cases hstep; cases hc'; cases hpast
  | returned result => cases hstep; cases hc'
  | testRunning =>
      simp only [CPOCOProxyServer.stepActivate] at hstep
      split at hstep
      · cases hstep
        cases hc'
        cases hpast
      · next hnot => exact .inr ⟨rfl, hnot⟩
  | _ => exact .inl rfl

theorem returned_of_startThread {s s' : CPOCOProxyServer Creator} {args : Arguments Creator}
    (hstep : s.stepActivate args .startThread = some s') :
    s'.controller = .activate (.returned true) args := by
  cases hstep
  rfl

/-- A statement of `Activate` that meets the condition keeps the guard. -/
theorem guarded_stepActivate {s s' : CPOCOProxyServer Creator} {called : Bool} {pc : ActivatePc}
    {args : Arguments Creator} (h : Guarded s called) (hc : s.controller = .activate pc args)
    (htest : TestsMarked called s .controller) (hstep : s.stepActivate args pc = some s') :
    Guarded s' called := by
  have hwf := stepActivate_wf h.wf hc hstep
  refine ⟨hwf, fun pc' args' hc' hpast => ?_, fun pc' args' hc' hcalled => ?_,
    fun pc' args' hc' hnot hreturned hactive => ?_⟩
  · rcases pastGuard_of_stepActivate hstep hc' hpast with hbefore | ⟨rfl, hrunning⟩
    · exact h.notCalled pc args hc hbefore
    · -- the test of an active server finds the flag
      rw [← Bool.not_eq_true]
      intro hcalled
      exact hrunning ((running_iff h.wf (h.exists_ _ args hc hcalled)).mpr
        (htest args rfl hc hcalled))
  · have hnotPast : pc.pastGuard = false := by
      rw [← Bool.not_eq_true]
      intro hpast
      rw [h.notCalled pc args hc hpast] at hcalled
      cases hcalled
    have hne : pc ≠ .startThread := by rintro rfl; cases hnotPast
    rcases stepActivate_thread hne hstep with hsame | ⟨rfl, -⟩
    · rw [hsame]
      exact h.exists_ pc args hc hcalled
    · cases hnotPast
  · by_cases hstart : pc = .startThread
    · subst hstart
      rw [returned_of_startThread hstep] at hc'
      cases hc'
      exact hreturned true rfl
    · have hreturned' : ∀ result, pc ≠ .returned result := by
        rintro result rfl
        cases hstep
        cases hc'
      have hbefore := h.notActive pc args hc hnot hreturned'
      rcases stepActivate_thread hstart hstep with hsame | ⟨-, hnone⟩
      · rw [Active, Server.At, hsame] at hactive
        exact hbefore hactive
      · rw [Active, Server.At, hnone] at hactive
        cases hactive

/-- In `Deactivate` there is nothing to guard, and nothing outside of both functions. -/
theorem guarded_of_not_activate {s : CPOCOProxyServer Creator} {called : Bool} (h : Wf s)
    (hc : ∀ pc args, s.controller ≠ .activate pc args) : Guarded s called where
  wf := h
  notCalled pc args hact := absurd hact (hc pc args)
  exists_ pc args hact := absurd hact (hc pc args)
  notActive pc args hact := absurd hact (hc pc args)

/-- A thread that has taken a step is there. -/
theorem isSome_of_worker {s s' : CPOCOProxyServer Creator} {a : Action Creator}
    (hstep : Step s a s') (ha : a = .worker ∨ a = .workerThrows) :
    s'.m_thread.isSome = true := by
  rcases ha with rfl | rfl
  · obtain ⟨w, hw, hs⟩ := Option.bind_eq_some_iff.mp hstep
    cases w <;>
      simp only [CPOCOProxyServer.stepWorker, Option.some.injEq, reduceCtorEq] at hs
    case run =>
      split at hs <;> subst hs
      · rfl
      · rw [hw]
        rfl
    all_goals
      subst hs
      rfl
  · obtain ⟨w, -, hs⟩ := Option.bind_eq_some_iff.mp hstep
    rw [(stepThrows_catch hs).1]
    rfl

/-- A step of the thread. -/
theorem guarded_threadStep {s s' : CPOCOProxyServer Creator} {called : Bool}
    (h : Guarded s called) (hsome : s'.m_thread.isSome = true) (hstep : ThreadStep s s') :
    Guarded s' called where
  wf := hstep.wf h.wf
  notCalled pc args hc := h.notCalled pc args (hstep.controller ▸ hc)
  exists_ _ _ _ _ := hsome
  notActive pc args hc hcalled hreturned hactive :=
    h.notActive pc args (hstep.controller ▸ hc) hcalled hreturned (hstep.inThreadLoop hactive)

/-- A step that meets the condition keeps the guard. -/
theorem guarded_step {s s' : CPOCOProxyServer Creator} {a : Action Creator} {called : Bool}
    (h : Guarded s called) (hstep : Step s a s') (htest : TestsMarked called s a) :
    Guarded s' (noteCall called ⟨s, a, s'⟩) := by
  have hwf := step_wf h.wf hstep
  cases a with
  | callActivate args =>
      obtain ⟨-, rfl⟩ := callActivate_step hstep
      refine ⟨hwf, ?_, ?_, ?_⟩
      · rintro pc' args' hc' hpast
        cases hc'
        cases hpast
      · intro pc' args' _ hcalled
        cases hw : s.m_thread with
        | none =>
            rw [noteCall, hw] at hcalled
            cases hcalled
        | some w => rfl
      · intro pc' args' _ hcalled _ hactive
        rw [noteCall] at hcalled
        exact absurd hactive (Bool.not_eq_true _ ▸ hcalled)
  | callDeactivate =>
      obtain ⟨-, rfl⟩ := callDeactivate_step hstep
      exact guarded_of_not_activate hwf fun pc args hc => by cases hc
  | controller =>
      cases hc : s.controller with
      | idle =>
          rw [Step, step, CPOCOProxyServer.stepController, hc] at hstep
          cases hstep
      | activate pc args =>
          exact guarded_stepActivate h hc htest ((step_activate hc).symm.trans hstep)
      | deactivate pc =>
          rw [Step, step, CPOCOProxyServer.stepController, hc] at hstep
          refine guarded_of_not_activate hwf fun pc' args hc' => ?_
          rcases stepDeactivate_controller hstep with hidle | ⟨pc'', hdeact⟩
          · rw [hidle] at hc'
            cases hc'
          · rw [hdeact] at hc'
            cases hc'
  | worker =>
      obtain ⟨w, hw, hs⟩ := Option.bind_eq_some_iff.mp hstep
      exact guarded_threadStep h (isSome_of_worker hstep (.inl rfl)) (threadStep_of_worker hw hs)
  | workerThrows =>
      obtain ⟨w, hw, hs⟩ := Option.bind_eq_some_iff.mp hstep
      exact guarded_threadStep h (isSome_of_worker hstep (.inr rfl)) (threadStep_of_throws hw hs)

/-- **The step**: from a guarded state, a step is as it should be exactly if the test comes
neither too early nor too late. -/
theorem step_refused_iff {s s' : CPOCOProxyServer Creator} {a : Action Creator} {called : Bool}
    (h : Guarded s called) (hstep : Step s a s') :
    Refused called s a s' ↔ TestsMarked called s a := by
  constructor
  · -- too early or too late, the flag is not set, and the test lets `Activate` pass
    rintro hrefused args rfl hc hcalled
    have hreturns := hrefused.returnsFalse args rfl hc hcalled
    rw [← running_iff h.wf (h.exists_ _ args hc hcalled)]
    by_contra hnot
    have htest := step_testRunning hc
    rw [if_neg hnot] at htest
    rw [Option.some.inj (hstep.symm.trans htest)] at hreturns
    cases hreturns
  · intro htest
    have hguarded := guarded_step h hstep htest
    refine ⟨?_, ?_, fun args hc hactive => ?_⟩
    · rintro args rfl hc hcalled
      have hrunning := (running_iff h.wf (h.exists_ _ args hc hcalled)).mpr
        (htest args rfl hc hcalled)
      have hstep' := step_testRunning hc
      rw [if_pos hrunning] at hstep'
      rw [Option.some.inj (hstep.symm.trans hstep')]
    · rintro pc args rfl hc hcalled
      refine stored_of_not_pastGuard ?_ ((step_activate hc).symm.trans hstep)
      rw [← Bool.not_eq_true]
      intro hpast
      rw [h.notCalled pc args hc hpast] at hcalled
      cases hcalled
    · exact absurd hactive
        (hguarded.notActive _ args hc (hguarded.notCalled _ args hc rfl) (by simp))

/-- **A further `Activate`**, called on an active server, is refused and harmless in every step
of a run, exactly if in the run none tests `m_thread_running` before the first statement of the
thread or after its last one. -/
theorem activate_refused_iff {ts : List (Transition (CPOCOProxyServer Creator) (Action Creator))}
    (hrun : IsRun Step CPOCOProxyServer.construct ts) :
    Along noteCall (fun called t => Refused called t.src t.label t.dst) false ts ↔
      Along noteCall (fun called t => TestsMarked called t.src t.label) false ts :=
  along_iff (J := Guarded)
    (fun _ _ h hstep hq => guarded_step h hstep ((step_refused_iff h hstep).mp hq))
    (fun _ _ h hstep => step_refused_iff h hstep)
    (guarded_of_not_activate construct_wf fun _ _ hc => by cases hc) hrun

/-- The next state, where there is one. -/
def next (s : CPOCOProxyServer Creator) (a : Action Creator) : CPOCOProxyServer Creator :=
  (step s a).getD s

/-- One `Activate`, from the call to the return. -/
def activateOnce (args : Arguments Creator) : List (Action Creator) :=
  .callActivate args :: List.replicate 9 .controller

/-- A second `Activate` comes before the thread has taken a step, goes past its guard and
waits for the thread. -/
def activateTwice : List (Action Unit) :=
  activateOnce ⟨1, "a", 2, ()⟩ ++ .callActivate ⟨3, "b", 4, ()⟩ :: List.replicate 7 .controller

theorem isRun_activateTwice : IsRun Step CPOCOProxyServer.construct
    (unroll next CPOCOProxyServer.construct activateTwice) :=
  isRun_unroll_some (by decide)

theorem activate_refused_iff_activateTwice :
    Along noteCall (fun called t => Refused called t.src t.label t.dst) false
        (unroll next CPOCOProxyServer.construct activateTwice) ↔
      Along noteCall (fun called t => TestsMarked called t.src t.label) false
        (unroll next CPOCOProxyServer.construct activateTwice) :=
  activate_refused_iff isRun_activateTwice

/-- The second `Activate` waits for a thread that nobody has asked to stop. -/
theorem activate_not_refused :
    ¬ ∀ ts : List (Transition (CPOCOProxyServer Unit) (Action Unit)),
      IsRun Step CPOCOProxyServer.construct ts →
        Along noteCall (fun called t => Refused called t.src t.label t.dst) false ts := by
  intro h
  obtain ⟨us, hus⟩ : ∃ us, unroll next CPOCOProxyServer.construct activateTwice = us ++ [_] :=
    ⟨_, (List.dropLast_append_getLast (by simp [unroll, activateTwice, activateOnce])).symm⟩
  have hrun := isRun_activateTwice
  rw [hus] at hrun
  have hstop := (h _ hrun).of_concat.neverWaits ⟨3, "b", 4, ()⟩ rfl rfl
  revert hstop
  decide

/-! ## A `Deactivate` while the thread starts -/

/-- `Deactivate` waits for the thread, and the thread will enter `run`, or is inside,
and nobody has stopped the reactor. -/
def Lost (s : CPOCOProxyServer Creator) : Prop :=
  s.controller = .deactivate .join ∧ At Worker.entersRun s ∧ s.m_reactor ≠ some ⟨true⟩

instance [DecidableEq Creator] (s : CPOCOProxyServer Creator) : Decidable (Lost s) := by
  unfold Lost At
  infer_instance

/-- Neither here nor after the controller's next statement is the request to stop
lost. -/
def NeverLost (s : CPOCOProxyServer Creator) : Prop :=
  ¬ Lost s ∧ ∀ s', Step s .controller s' → ¬ Lost s'

/-- The test of `m_reactor` does not come between the start of the thread and the
creation of the reactor. -/
def TestsReactor (s : CPOCOProxyServer Creator) (a : Action Creator) : Prop :=
  a = .controller → s.controller = .deactivate .testReactor → ¬ At Worker.beforeReactor s

/-- What has become of the request to stop, at the statements of `Deactivate`. -/
structure Requested (s : CPOCOProxyServer Creator) : Prop where
  wf : Wf s
  stop : s.controller = .deactivate .stop → ¬ At Worker.beforeReactor s
  join : s.controller = .deactivate .testJoinable ∨ s.controller = .deactivate .join →
    At Worker.entersRun s → s.m_reactor = some ⟨true⟩

/-- Where the thread is, and what that says about `m_reactor`. -/
theorem reactor_none_of_before {s : CPOCOProxyServer Creator} (h : Wf s)
    (hw : At Worker.beforeReactor s) : s.m_reactor = none := by
  have hr := h.reactor
  unfold At at hw
  cases ht : s.m_thread with
  | none => simp [ht] at hw
  | some w =>
      rw [ht] at hw hr
      exact hr.1 hw

theorem reactor_some_of_enters {s : CPOCOProxyServer Creator} (h : Wf s)
    (hw : At Worker.entersRun s) (hnot : ¬ At Worker.beforeReactor s) :
    s.m_reactor.isSome = true := by
  have hr := h.reactor
  unfold At at hw hnot
  cases ht : s.m_thread with
  | none => simp [ht] at hw
  | some w =>
      rw [ht, Option.any_some] at hw hnot
      rw [ht] at hr
      rw [Worker.entersRun, Bool.or_eq_true] at hw
      exact hr.2.1 (hw.resolve_left hnot)

/-- In `Activate`, and outside of both functions, there is no request to keep. -/
theorem requested_of_not_deactivate {s : CPOCOProxyServer Creator} (h : Wf s)
    (hc : ∀ pc, s.controller ≠ .deactivate pc) : Requested s where
  wf := h
  stop hstop := absurd hstop (hc _)
  join hjoin := hjoin.elim (fun hj => absurd hj (hc _)) (fun hj => absurd hj (hc _))

theorem requested_stepDeactivate {s s' : CPOCOProxyServer Creator} {pc : DeactivatePc}
    (h : Requested s) (hc : s.controller = .deactivate pc)
    (htest : pc = .testReactor → ¬ At Worker.beforeReactor s)
    (hstep : s.stepDeactivate pc = some s') : Requested s' := by
  have hwf := stepDeactivate_wf h.wf hstep
  cases pc with
  | log =>
      cases hstep
      refine ⟨hwf, fun hs => (by cases hs), ?_⟩
      rintro (hj | hj) <;> cases hj
  | testReactor =>
      simp only [CPOCOProxyServer.stepDeactivate] at hstep
      split at hstep
      · cases hstep
        exact ⟨hwf, fun _ => htest rfl, fun hj => (by rcases hj with hj | hj <;> cases hj)⟩
      · -- without a reactor the thread is past `run`
        rename_i hnone
        cases hstep
        refine ⟨hwf, fun hs => (by cases hs), fun _ henters => ?_⟩
        exact absurd (reactor_some_of_enters h.wf henters (htest rfl)) hnone
  | stop =>
      -- a thread that is going to enter `run` has the reactor that is stopped
      cases hstep
      refine ⟨hwf, fun hs => (by cases hs), fun _ henters => ?_⟩
      obtain ⟨r, hr⟩ :=
        Option.isSome_iff_exists.mp (reactor_some_of_enters h.wf henters (h.stop hc))
      simp only [hr, Option.map_some]
  | testJoinable =>
      simp only [CPOCOProxyServer.stepDeactivate] at hstep
      split at hstep <;> cases hstep
      · exact ⟨hwf, fun hs => (by cases hs), fun _ henters => h.join (.inl hc) henters⟩
      · exact ⟨hwf, fun hs => (by cases hs), fun hj => (by rcases hj with hj | hj <;> cases hj)⟩
  | join =>
      obtain ⟨-, rfl⟩ := join_eq_some hstep
      exact ⟨hwf, fun hs => (by cases hs), fun hj => (by rcases hj with hj | hj <;> cases hj)⟩
  | returned result =>
      cases hstep
      exact requested_of_not_deactivate hwf fun pc hpc => by cases hpc

/-- A step that meets the condition keeps the request. -/
theorem requested_step {s s' : CPOCOProxyServer Creator} {a : Action Creator} (h : Requested s)
    (hstep : Step s a s') (htest : TestsReactor s a) : Requested s' := by
  have hwf := step_wf h.wf hstep
  rcases step_cases hstep with ⟨next, -, rfl, hnext⟩ | ⟨ha, pc, args, hc, hs⟩ |
    ⟨ha, pc, hc, hs⟩ | ⟨-, hs⟩
  · rcases hnext with ⟨args, rfl⟩ | rfl
    · exact requested_of_not_deactivate hwf fun pc hpc => by cases hpc
    · exact ⟨hwf, fun hs => (by cases hs), fun hj => (by rcases hj with hj | hj <;> cases hj)⟩
  · refine requested_of_not_deactivate hwf fun pc' hpc => ?_
    rcases stepActivate_controller hs with hidle | ⟨pc'', hact⟩
    · rw [hidle] at hpc
      cases hpc
    · rw [hact] at hpc
      cases hpc
  · exact requested_stepDeactivate h hc (fun hpc => htest ha (hpc ▸ hc)) hs
  · -- the thread goes forward, and the stopped reactor stays until it is reset
    refine ⟨hwf, fun hstop hbefore => ?_, fun hjoin henters => ?_⟩
    · rw [hs.controller] at hstop
      exact h.stop hstop (hs.beforeReactor hbefore)
    · rw [hs.controller] at hjoin
      have hstopped := h.join hjoin (hs.entersRun henters)
      have hnot : ¬ At Worker.beforeReactor s := by
        intro hbefore
        rw [reactor_none_of_before h.wf hbefore] at hstopped
        cases hstopped
      rw [hs.reactor henters hnot]
      exact hstopped

theorem Requested.not_lost {s : CPOCOProxyServer Creator} (h : Requested s) : ¬ Lost s :=
  fun hl => hl.2.2 (h.join (.inr hl.1) hl.2.1)

/-- The controller's own next statement loses nothing either. -/
theorem Requested.neverLost {s : CPOCOProxyServer Creator} (h : Requested s) : NeverLost s := by
  refine ⟨h.not_lost, fun s' hstep hl => ?_⟩
  by_cases htest : s.controller = .deactivate .testReactor
  · -- after the test of `m_reactor` comes no `join`
    have hs : s.stepDeactivate .testReactor = some s' := by
      rw [← hstep, step, CPOCOProxyServer.stepController, htest]
    simp only [CPOCOProxyServer.stepDeactivate] at hs
    have hjoin := hl.1
    split at hs <;> cases hs <;> cases hjoin
  · exact (requested_step h hstep fun _ hc => absurd hc htest).not_lost hl

/-- **The step**: from a state with the request kept, it stays so exactly if the test of
`m_reactor` does not come too early. -/
theorem step_neverLost_iff {s s' : CPOCOProxyServer Creator} {a : Action Creator}
    (h : Requested s) (hstep : Step s a s') : NeverLost s' ↔ TestsReactor s a := by
  refine ⟨?_, fun htest => (requested_step h hstep htest).neverLost⟩
  -- too early there is no reactor, and the controller goes on to wait for the thread
  rintro hnever rfl hc hbefore
  have hnone := reactor_none_of_before h.wf hbefore
  have hs' : s' = { s with controller := .deactivate .testJoinable } := by
    have hs : step s .controller = s.stepDeactivate .testReactor := by
      rw [step, CPOCOProxyServer.stepController, hc]
    rw [Step, hs, CPOCOProxyServer.stepDeactivate, if_neg (by simp [hnone])] at hstep
    exact (Option.some.inj hstep).symm
  subst hs'
  have hthread : s.m_thread.isSome = true := by
    unfold At at hbefore
    cases ht : s.m_thread with
    | none => simp [ht] at hbefore
    | some w => rfl
  have hjoin : Step { s with controller := .deactivate .testJoinable } .controller
      { s with controller := .deactivate .join } := by
    simp [Step, step, CPOCOProxyServer.stepController, CPOCOProxyServer.stepDeactivate, hthread]
  refine hnever.2 _ hjoin ⟨rfl, ?_, ?_⟩
  · unfold At at hbefore ⊢
    cases ht : s.m_thread with
    | none => simp [ht] at hbefore
    | some w =>
        rw [ht, Option.any_some] at hbefore
        simp [Worker.entersRun, hbefore]
  · show s.m_reactor ≠ some ⟨true⟩
    rw [hnone]
    exact fun hfalse => by cases hfalse

/-- **The request to stop** is not lost in any state of a run, nor by the controller's
next statement there, exactly if in the run no `Deactivate` tests `m_reactor` between
the start of a thread and its creation of the reactor; so without such a test there is no
state in which it is lost. -/
theorem stop_kept_iff {ts : List (Transition (CPOCOProxyServer Creator) (Action Creator))}
    (hrun : IsRun Step CPOCOProxyServer.construct ts) :
    ((∀ t ∈ ts, NeverLost t.dst) ↔ ∀ t ∈ ts, TestsReactor t.src t.label) ∧
      ((∀ t ∈ ts, TestsReactor t.src t.label) →
        ∀ x ∈ states CPOCOProxyServer.construct ts, ¬ Lost x) := by
  have hstart : Requested (CPOCOProxyServer.construct : CPOCOProxyServer Creator) :=
    requested_of_not_deactivate construct_wf fun _ hc => by cases hc
  refine ⟨?_, fun htests x hx => ?_⟩
  · exact steps_iff (J := Requested) (Q := fun _ _ s' => NeverLost s') (C := TestsReactor)
      (fun _ _ _ h hstep hq => requested_step h hstep ((step_neverLost_iff h hstep).mp hq))
      (fun _ _ _ h hstep => step_neverLost_iff h hstep) hstart hrun
  · exact (invariant_states_of (I := Requested) (C := TestsReactor)
      (fun _ _ _ h hstep htest => requested_step h hstep htest) hstart hrun htests x hx).not_lost

/-- `Deactivate` comes before the thread has taken a step. Then the thread starts, and
waits for connections. -/
def deactivateEarly : List (Action Unit) :=
  activateOnce ⟨1, "a", 2, ()⟩ ++ .callDeactivate :: List.replicate 3 .controller ++
    List.replicate 7 .worker

theorem isRun_deactivateEarly : IsRun Step CPOCOProxyServer.construct
    (unroll next CPOCOProxyServer.construct deactivateEarly) :=
  isRun_unroll_some (by decide)

theorem stop_kept_iff_deactivateEarly :
    ((∀ t ∈ unroll next CPOCOProxyServer.construct deactivateEarly, NeverLost t.dst) ↔
      ∀ t ∈ unroll next CPOCOProxyServer.construct deactivateEarly,
        TestsReactor t.src t.label) ∧
      ((∀ t ∈ unroll next CPOCOProxyServer.construct deactivateEarly,
        TestsReactor t.src t.label) →
        ∀ x ∈ states CPOCOProxyServer.construct
          (unroll next CPOCOProxyServer.construct deactivateEarly), ¬ Lost x) :=
  stop_kept_iff isRun_deactivateEarly

/-- The thread is inside of `run`, the reactor is not stopped, and `Deactivate` waits. -/
theorem stop_lost : ¬ ∀ ts : List (Transition (CPOCOProxyServer Unit) (Action Unit)),
    IsRun Step CPOCOProxyServer.construct ts →
      ∀ x ∈ states CPOCOProxyServer.construct ts, ¬ Lost x := by
  intro h
  refine h _ isRun_deactivateEarly (deactivateEarly.foldl next CPOCOProxyServer.construct)
    (mem_states.mpr (.inr ⟨_, List.mem_of_getLast? rfl, rfl⟩)) ⟨rfl, rfl, ?_⟩
  decide

end PocoProxy.Server
