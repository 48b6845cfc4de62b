/-
Rounds of activating and deactivating.

When `Deactivate` returns, the thread has been joined, and on every way out of
`ThreadLoop` it has put away what it had made; so the server is as it was before the
first `Activate`, and the next one starts a new round (`deactivate_restartable`).

On the way, `Deactivate` tests `m_reactor` and calls through it in two statements. A
thread that has left `ThreadLoop` through the `catch` waits for nobody, and may
reset the pointer in between (`stop_live_iff`).
-/
import PocoProxy.ServerRuns

set_option autoImplicit false

namespace PocoProxy.Server

open PocoProxy.Runs

variable {Creator : Type}

/-! ## The call through `m_reactor` -/

/-- When the next statement is `m_reactor->stop()`, there is a reactor. -/
def StopLive (s : CPOCOProxyServer Creator) : Prop :=
  s.controller = .deactivate .stop → s.m_reactor.isSome = true

/-- The thread does not reset `m_reactor` between the controller's test of it and its
call. -/
def ResetsApart (s : CPOCOProxyServer Creator) (a : Action Creator) : Prop :=
  a = .worker → s.m_thread = some .resetReactor → s.controller ≠ .deactivate .stop

/-- Only `m_reactor.reset()` takes the reactor away. -/
theorem stepWorker_reactor {s s' : CPOCOProxyServer Creator} {w : Worker}
    (hstep : s.stepWorker w = some s') (h : s.m_reactor.isSome = true) :
    s'.m_reactor.isSome = true ↔ w ≠ .resetReactor := by
  cases w <;>
    simp only [CPOCOProxyServer.stepWorker, Option.some.injEq, reduceCtorEq] at hstep
  case resetReactor =>
    subst hstep
    exact iff_of_false Bool.false_ne_true fun hne => hne rfl
  case makeReactor =>
    subst hstep
    exact iff_of_true rfl (by decide)
  case run =>
    refine iff_of_true ?_ (by decide)
    split at hstep <;> subst hstep <;> exact h
  all_goals
    subst hstep
    exact iff_of_true h (by decide)

theorem stepThrows_reactor {s s' : CPOCOProxyServer Creator} {w : Worker}
    (hstep : s.stepThrows w = some s') : s'.m_reactor = s.m_reactor := by
  obtain ⟨rfl, -, -⟩ := stepThrows_catch hstep
  rfl

/-- Only the test of `m_reactor` leads to the call. -/
theorem stepDeactivate_stop {s s' : CPOCOProxyServer Creator} {pc : DeactivatePc}
    (hstep : s.stepDeactivate pc = some s') (hc : s'.controller = .deactivate .stop) :
    s'.m_reactor.isSome = true := by
  cases pc with
  | testReactor =>
      simp only [CPOCOProxyServer.stepDeactivate] at hstep
      split at hstep
      · rename_i hsome
        cases hstep
        exact hsome
      · cases hstep
        cases hc
  | testJoinable =>
      simp only [CPOCOProxyServer.stepDeactivate] at hstep
      split at hstep <;> cases hstep <;> cases hc
  | join =>
      obtain ⟨-, rfl⟩ := join_eq_some hstep
      cases hc
  | _ =>
      cases hstep
      cases hc

/-- No other step endangers the call. -/
theorem stopLive_of_ne_worker {s s' : CPOCOProxyServer Creator} {a : Action Creator}
    (h : StopLive s) (hstep : Step s a s') (hne : a ≠ .worker) : StopLive s' := by
  intro hstop
  rcases step_cases hstep with ⟨next, -, rfl, hnext⟩ | ⟨-, pc, args, -, hs⟩ | ⟨-, pc, -, hs⟩ |
    ⟨hnot, hs⟩
  · rcases hnext with ⟨args, rfl⟩ | rfl <;> cases hstop
  · rcases stepActivate_controller hs with hidle | ⟨pc', hact⟩
    · rw [hidle] at hstop
      cases hstop
    · rw [hact] at hstop
      cases hstop
  · exact stepDeactivate_stop hs hstop
  · -- an exception leaves the pointer as it is, and who calls a function is in none
    rw [hs.controller] at hstop
    cases a with
    | workerThrows =>
        obtain ⟨w, -, hthrows⟩ := Option.bind_eq_some_iff.mp hstep
        rw [stepThrows_reactor hthrows]
        exact h hstop
    | worker => exact absurd rfl hne
    | controller => exact absurd rfl hnot
    | callActivate args => cases (callActivate_step hstep).1.symm.trans hstop
    | callDeactivate => cases (callDeactivate_step hstep).1.symm.trans hstop

/-- **The step**: the call stays safe exactly if the thread does not reset the pointer under
the controller's hands. -/
theorem step_stopLive_iff {s s' : CPOCOProxyServer Creator} {a : Action Creator}
    (h : StopLive s) (hstep : Step s a s') : StopLive s' ↔ ResetsApart s a := by
  cases a with
  | worker =>
      obtain ⟨w, hw, hs⟩ := Option.bind_eq_some_iff.mp hstep
      have hcontroller : s'.controller = s.controller := (threadStep_of_worker hw hs).controller
      unfold StopLive ResetsApart
      rw [hcontroller, hw]
      constructor
      · rintro hlive - hreset hstop
        obtain rfl := Option.some.inj hreset
        exact (stepWorker_reactor hs (h hstop)).mp (hlive hstop) rfl
      · intro hapart hstop
        exact (stepWorker_reactor hs (h hstop)).mpr fun hreset =>
          hapart rfl (congrArg some hreset) hstop
  | _ =>
      exact iff_of_true (stopLive_of_ne_worker h hstep (by simp)) fun hworker => by cases hworker

/-- **`Deactivate` never uses a reactor that is gone** in any state of a run, exactly if in
the run the thread never resets `m_reactor` between the test and the call. -/
theorem stop_live_iff {ts : List (Transition (CPOCOProxyServer Creator) (Action Creator))}
    (hrun : IsRun Step CPOCOProxyServer.construct ts) :
    (∀ x ∈ states CPOCOProxyServer.construct ts, StopLive x) ↔
      ∀ t ∈ ts, ResetsApart t.src t.label :=
  run_iff (J := fun _ => True) (P := StopLive) (C := ResetsApart) (fun _ _ _ _ _ => trivial)
    (fun _ _ _ _ h hstep => step_stopLive_iff h hstep) trivial (fun hstop => by cases hstop) hrun

/-- The port is in use: the server socket cannot be made, and the `catch` and the resets come
between the test and the call. -/
def portInUse : List (Action Unit) :=
  activateOnce ⟨1, "a", 2, ()⟩ ++ List.replicate 5 .worker ++
    .callDeactivate :: List.replicate 2 .controller ++ .workerThrows :: List.replicate 3 .worker

theorem isRun_portInUse : IsRun Step CPOCOProxyServer.construct
    (unroll next CPOCOProxyServer.construct portInUse) :=
  isRun_unroll_some (by decide)

theorem stop_live_iff_portInUse :
    (∀ x ∈ states CPOCOProxyServer.construct
        (unroll next CPOCOProxyServer.construct portInUse), StopLive x) ↔
      ∀ t ∈ unroll next CPOCOProxyServer.construct portInUse, ResetsApart t.src t.label :=
  stop_live_iff isRun_portInUse

/-- The next statement of `Deactivate` is a call through a null pointer. -/
theorem stop_not_live : ¬ ∀ ts : List (Transition (CPOCOProxyServer Unit) (Action Unit)),
    IsRun Step CPOCOProxyServer.construct ts →
      ∀ x ∈ states CPOCOProxyServer.construct ts, StopLive x := by
  intro h
  have hlive := h _ isRun_portInUse (portInUse.foldl next CPOCOProxyServer.construct)
    (mem_states.mpr (.inr ⟨_, List.mem_of_getLast? rfl, rfl⟩)) rfl
  revert hlive
  decide

/-! ### How the two can meet -/

/-- A reactor that has been stopped has a `Deactivate` that waits for the thread. -/
def StoppedWaits (s : CPOCOProxyServer Creator) : Prop :=
  s.m_reactor = some ⟨true⟩ →
    s.controller = .deactivate .testJoinable ∨ s.controller = .deactivate .join

/-- The thread stops nothing. -/
theorem stepWorker_stopped {s s' : CPOCOProxyServer Creator} {w : Worker}
    (hstep : s.stepWorker w = some s') (h : s'.m_reactor = some ⟨true⟩) :
    s.m_reactor = some ⟨true⟩ := by
  cases w <;>
    simp only [CPOCOProxyServer.stepWorker, Option.some.injEq, reduceCtorEq] at hstep
  case makeReactor =>
    subst hstep
    cases h
  case resetReactor =>
    subst hstep
    cases h
  case run => split at hstep <;> subst hstep <;> exact h
  all_goals
    subst hstep
    exact h

theorem stepActivate_reactor {s s' : CPOCOProxyServer Creator} {pc : ActivatePc}
    {args : Arguments Creator} (hstep : s.stepActivate args pc = some s') :
    s'.m_reactor = s.m_reactor := by
  cases pc with
  | join =>
      obtain ⟨-, rfl⟩ := join_eq_some hstep
      rfl
  | testRunning =>
      simp only [CPOCOProxyServer.stepActivate] at hstep
      split at hstep <;> cases hstep <;> rfl
  | testJoinable =>
      simp only [CPOCOProxyServer.stepActivate] at hstep
      split at hstep <;> cases hstep <;> rfl
  | _ => cases hstep; rfl

theorem stoppedWaits_stepDeactivate {s s' : CPOCOProxyServer Creator} {pc : DeactivatePc}
    (hwf : Wf s) (h : StoppedWaits s) (hc : s.controller = .deactivate pc)
    (hstep : s.stepDeactivate pc = some s') : StoppedWaits s' := by
  intro hstopped
  -- where the reactor was stopped before, the controller was at one of the two statements
  have hbefore : s.m_reactor = some ⟨true⟩ → pc = .testJoinable ∨ pc = .join := by
    intro hs
    rcases h hs with hpc | hpc
    · rw [hc] at hpc
      exact .inl (Controller.deactivate.inj hpc)
    · rw [hc] at hpc
      exact .inr (Controller.deactivate.inj hpc)
  cases pc with
  | stop =>
      cases hstep
      exact .inl rfl
  | join =>
      -- a thread that has ended has reset the pointer before
      obtain ⟨hw, rfl⟩ := join_eq_some hstep
      have hr := hwf.reactor
      rw [hw] at hr
      rw [show s.m_reactor = none from hr.2.2 rfl] at hstopped
      cases hstopped
  | testJoinable =>
      simp only [CPOCOProxyServer.stepDeactivate] at hstep
      split at hstep
      · cases hstep
        exact .inr rfl
      · -- without a thread there is no reactor
        rename_i hnone
        cases hstep
        have hr := hwf.reactor
        rw [Option.not_isSome_iff_eq_none.mp hnone] at hr
        rw [show s.m_reactor = none from hr] at hstopped
        cases hstopped
  | testReactor =>
      simp only [CPOCOProxyServer.stepDeactivate] at hstep
      split at hstep <;> cases hstep <;> rcases hbefore hstopped with hpc | hpc <;> cases hpc
  | _ =>
      cases hstep
      rcases hbefore hstopped with hpc | hpc <;> cases hpc

theorem stoppedWaits_step {s s' : CPOCOProxyServer Creator} {a : Action Creator}
    (h : Wf s ∧ StoppedWaits s) (hstep : Step s a s') : Wf s' ∧ StoppedWaits s' := by
  obtain ⟨hwf, hwaits⟩ := h
  refine ⟨step_wf hwf hstep, ?_⟩
  rcases step_cases hstep with ⟨next, hidle, rfl, -⟩ | ⟨-, pc, args, hc, hs⟩ | ⟨-, pc, hc, hs⟩ |
    ⟨hnot, hs⟩
  · -- the controller was idle, and an idle one waits for nothing
    intro hstopped
    rcases hwaits hstopped with hpc | hpc <;> rw [hidle] at hpc <;> cases hpc
  · intro hstopped
    rw [stepActivate_reactor hs] at hstopped
    rcases hwaits hstopped with hpc | hpc <;> rw [hc] at hpc <;> cases hpc
  · exact stoppedWaits_stepDeactivate hwf hwaits hc hs
  · -- the thread stops no reactor itself
    unfold StoppedWaits
    rw [hs.controller]
    intro hstopped
    apply hwaits
    cases a with
    | worker =>
        obtain ⟨w, -, hworker⟩ := Option.bind_eq_some_iff.mp hstep
        exact stepWorker_stopped hworker hstopped
    | workerThrows =>
        obtain ⟨w, -, hthrows⟩ := Option.bind_eq_some_iff.mp hstep
        rwa [stepThrows_reactor hthrows] at hstopped
    | controller => exact absurd rfl hnot
    | callActivate args =>
        obtain ⟨-, rfl⟩ := callActivate_step hstep
        exact hstopped
    | callDeactivate =>
        obtain ⟨-, rfl⟩ := callDeactivate_step hstep
        exact hstopped

/-- **The pointer is reset under the controller's hands** only by a thread that nobody has
stopped, and which has therefore left `ThreadLoop` through its `catch`. -/
theorem reset_unstopped {ts : List (Transition (CPOCOProxyServer Creator) (Action Creator))}
    (hrun : IsRun Step CPOCOProxyServer.construct ts) :
    ∀ t ∈ ts, ¬ ResetsApart t.src t.label → t.src.m_reactor ≠ some ⟨true⟩ := by
  intro t ht hmeet hstopped
  have hwaits := ((invariant_run (I := fun s => Wf s ∧ StoppedWaits s)
    (fun _ _ _ => stoppedWaits_step) ⟨construct_wf, fun h => by cases h⟩ hrun) t ht).1.2
  -- where the reactor is stopped, the controller has made the call already
  apply hmeet
  rintro - - hstop
  rcases hwaits hstopped with hpc | hpc <;> rw [hstop] at hpc <;> cases hpc

/-! ## What a round leaves -/

namespace Worker

/-- `m_acceptor.reset()` is done. -/
def pastAcceptor : Worker → Bool
  | .resetReactor => true
  | .resetServerSocket => true
  | .logEnd => true
  | .clearRunning => true
  | .finished => true
  | _ => false

/-- `m_server_socket.reset()` is done. -/
def pastServerSocket : Worker → Bool
  | .logEnd => true
  | .clearRunning => true
  | .finished => true
  | _ => false

end Worker

/-- What the thread has put away stays away until the next thread. -/
structure Tidy (s : CPOCOProxyServer Creator) : Prop where
  acceptor : s.m_thread.all Worker.pastAcceptor = true → s.m_acceptor = false
  serverSocket : s.m_thread.all Worker.pastServerSocket = true → s.m_server_socket = false

/-- As after the constructor, but for the arguments of `Activate`. -/
structure Clean (s : CPOCOProxyServer Creator) : Prop where
  m_thread : s.m_thread = none
  m_thread_running : s.m_thread_running = false
  m_acceptor : s.m_acceptor = false
  m_reactor : s.m_reactor = none
  m_server_socket : s.m_server_socket = false

theorem Clean.of_thread {s : CPOCOProxyServer Creator} (hwf : Wf s) (htidy : Tidy s)
    (hthread : s.m_thread = none) : Clean s where
  m_thread := hthread
  m_thread_running := by rw [hwf.running, hthread]; rfl
  m_acceptor := htidy.acceptor (by rw [hthread]; rfl)
  m_reactor := by
    have hr := hwf.reactor
    rwa [hthread] at hr
  m_server_socket := htidy.serverSocket (by rw [hthread]; rfl)

/-- The action starts a thread. -/
def startsWorker (s : CPOCOProxyServer Creator) (a : Action Creator) : Bool :=
  match a, s.controller with
  | .controller, .activate .startThread _ => true
  | _, _ => false

/-- The action is the last statement of a thread. -/
def endsWorker (s : CPOCOProxyServer Creator) (a : Action Creator) : Bool :=
  match a, s.m_thread with
  | .worker, some .clearRunning => true
  | _, _ => false

/-- What the controller does to the thread and the two objects. -/
structure ControllerStep (s : CPOCOProxyServer Creator) (a : Action Creator)
    (s' : CPOCOProxyServer Creator) : Prop where
  m_acceptor : s'.m_acceptor = s.m_acceptor
  m_server_socket : s'.m_server_socket = s.m_server_socket
  m_thread : startsWorker s a = false ∧ s'.m_thread = s.m_thread ∨
    startsWorker s a = false ∧ s.m_thread = some .finished ∧ s'.m_thread = none ∨
      startsWorker s a = true ∧ s.m_thread = none ∧ s'.m_thread = some .setRunning

theorem controllerStep_of_join {s s' : CPOCOProxyServer Creator} {a : Action Creator}
    {next : Controller Creator} (hstarts : startsWorker s a = false)
    (h : s.join next = some s') : ControllerStep s a s' := by
  obtain ⟨hw, rfl⟩ := join_eq_some h
  exact ⟨rfl, rfl, .inr (.inl ⟨hstarts, hw, rfl⟩)⟩

theorem controllerStep_activate {s s' : CPOCOProxyServer Creator} (h : Wf s)
    {pc : ActivatePc} {args : Arguments Creator} (hc : s.controller = .activate pc args)
    (hstep : s.stepActivate args pc = some s') : ControllerStep s .controller s' := by
  have hstarts : pc ≠ .startThread → startsWorker s .controller = false := by
    intro hne
    unfold startsWorker
    rw [hc]
    cases pc <;> first | rfl | exact absurd rfl hne
  cases pc with
  | startThread =>
      have hnone := h.start args hc
      have htrue : startsWorker s .controller = true := by
        unfold startsWorker
        rw [hc]
      cases hstep
      exact ⟨rfl, rfl, .inr (.inr ⟨htrue, hnone, rfl⟩)⟩
  | join => exact controllerStep_of_join (hstarts (by simp)) hstep
  | testRunning =>
      simp only [CPOCOProxyServer.stepActivate] at hstep
      split at hstep <;> cases hstep <;> exact ⟨rfl, rfl, .inl ⟨hstarts (by simp), rfl⟩⟩
  | testJoinable =>
      simp only [CPOCOProxyServer.stepActivate] at hstep
      split at hstep <;> cases hstep <;> exact ⟨rfl, rfl, .inl ⟨hstarts (by simp), rfl⟩⟩
  | _ =>
      cases hstep
      exact ⟨rfl, rfl, .inl ⟨hstarts (by simp), rfl⟩⟩

theorem controllerStep_deactivate {s s' : CPOCOProxyServer Creator} {pc : DeactivatePc}
    (hc : s.controller = .deactivate pc) (hstep : s.stepDeactivate pc = some s') :
    ControllerStep s .controller s' := by
  have hstarts : startsWorker s .controller = false := by
    unfold startsWorker
    rw [hc]
  cases pc with
  | join => exact controllerStep_of_join hstarts hstep
  | testReactor =>
      simp only [CPOCOProxyServer.stepDeactivate] at hstep
      split at hstep <;> cases hstep <;> exact ⟨rfl, rfl, .inl ⟨hstarts, rfl⟩⟩
  | testJoinable =>
      simp only [CPOCOProxyServer.stepDeactivate] at hstep
      split at hstep <;> cases hstep <;> exact ⟨rfl, rfl, .inl ⟨hstarts, rfl⟩⟩
  | _ =>
      cases hstep
      exact ⟨rfl, rfl, .inl ⟨hstarts, rfl⟩⟩

/-- Every step of the controller is such a step. -/
theorem controllerStep {s s' : CPOCOProxyServer Creator} (h : Wf s) {a : Action Creator}
    (hstep : Step s a s') (hworker : a ≠ .worker) (hthrows : a ≠ .workerThrows) :
    ControllerStep s a s' := by
  cases a with
  | worker => exact absurd rfl hworker
  | workerThrows => exact absurd rfl hthrows
  | callActivate args =>
      obtain ⟨-, rfl⟩ := callActivate_step hstep
      exact ⟨rfl, rfl, .inl ⟨rfl, rfl⟩⟩
  | callDeactivate =>
      obtain ⟨-, rfl⟩ := callDeactivate_step hstep
      exact ⟨rfl, rfl, .inl ⟨rfl, rfl⟩⟩
  | controller =>
      rcases step_cases hstep with ⟨next, hidle, rfl, -⟩ | ⟨-, pc, args, hc, hs⟩ |
        ⟨-, pc, hc, hs⟩ | ⟨hne, -⟩
      · unfold Step step CPOCOProxyServer.stepController at hstep
        rw [hidle] at hstep
        cases hstep
      · exact controllerStep_activate h hc hs
      · exact controllerStep_deactivate hc hs
      · exact absurd rfl hne

/-- The two objects, as the thread has left them. -/
theorem tidy_stepWorker {s s' : CPOCOProxyServer Creator} {w : Worker} (h : Tidy s)
    (hw : s.m_thread = some w) (hstep : s.stepWorker w = some s') : Tidy s' := by
  have hacceptor := h.acceptor
  have hsocket := h.serverSocket
  rw [hw] at hacceptor hsocket
  cases w <;>
    simp only [CPOCOProxyServer.stepWorker, Option.some.injEq, reduceCtorEq] at hstep
  -- each reset puts one object away; before that, nothing is said about it
  case run =>
    split at hstep <;> subst hstep
    · exact ⟨fun hp => (by cases hp), fun hp => (by cases hp)⟩
    · exact h
  case resetAcceptor =>
    subst hstep
    exact ⟨fun _ => rfl, fun hp => (by cases hp)⟩
  case resetReactor =>
    subst hstep
    exact ⟨fun _ => hacceptor rfl, fun hp => (by cases hp)⟩
  case resetServerSocket =>
    subst hstep
    exact ⟨fun _ => hacceptor rfl, fun _ => rfl⟩
  case logEnd =>
    subst hstep
    exact ⟨fun _ => hacceptor rfl, fun _ => hsocket rfl⟩
  case clearRunning =>
    subst hstep
    exact ⟨fun _ => hacceptor rfl, fun _ => hsocket rfl⟩
  all_goals
    subst hstep
    exact ⟨fun hp => (by cases hp), fun hp => (by cases hp)⟩

/-- The `catch` comes before all three resets. -/
theorem tidy_stepThrows {s s' : CPOCOProxyServer Creator} {w : Worker}
    (hstep : s.stepThrows w = some s') : Tidy s' := by
  obtain ⟨rfl, -, -⟩ := stepThrows_catch hstep
  refine ⟨fun hp => ?_, fun hp => ?_⟩
  · cases hp
  · cases hp

/-- The controller touches neither of the two: it joins a thread that has put them away, and
starts one that has made neither. -/
theorem tidy_controllerStep {s s' : CPOCOProxyServer Creator} {a : Action Creator} (h : Tidy s)
    (hstep : ControllerStep s a s') : Tidy s' := by
  have hacceptor := hstep.m_acceptor
  have hsocket := hstep.m_server_socket
  rcases hstep.m_thread with ⟨-, hsame⟩ | ⟨-, hfinished, -⟩ | ⟨-, -, hstarted⟩
  · exact ⟨fun hp => hacceptor.trans (h.acceptor (hsame ▸ hp)),
      fun hp => hsocket.trans (h.serverSocket (hsame ▸ hp))⟩
  · have hpastAcceptor : s.m_thread.all Worker.pastAcceptor = true := by
      rw [hfinished]
      rfl
    have hpastSocket : s.m_thread.all Worker.pastServerSocket = true := by
      rw [hfinished]
      rfl
    exact ⟨fun _ => hacceptor.trans (h.acceptor hpastAcceptor),
      fun _ => hsocket.trans (h.serverSocket hpastSocket)⟩
  · refine ⟨fun hp => ?_, fun hp => ?_⟩ <;> rw [hstarted] at hp <;> cases hp

theorem tidy_step {s s' : CPOCOProxyServer Creator} {a : Action Creator}
    (h : Wf s ∧ Tidy s) (hstep : Step s a s') : Wf s' ∧ Tidy s' := by
  obtain ⟨hwf, htidy⟩ := h
  refine ⟨step_wf hwf hstep, ?_⟩
  by_cases hworker : a = .worker
  · subst hworker
    obtain ⟨w, hw, hs⟩ := Option.bind_eq_some_iff.mp hstep
    exact tidy_stepWorker htidy hw hs
  by_cases hthrows : a = .workerThrows
  · subst hthrows
    obtain ⟨w, -, hs⟩ := Option.bind_eq_some_iff.mp hstep
    exact tidy_stepThrows hs
  · exact tidy_controllerStep htidy (controllerStep hwf hstep hworker hthrows)

/-- When `Deactivate` has returned, there is no thread. -/
def Joined (s : CPOCOProxyServer Creator) : Prop :=
  ∀ result, s.controller = .deactivate (.returned result) → s.m_thread = none

theorem joined_step {s s' : CPOCOProxyServer Creator} {a : Action Creator} (h : Joined s)
    (hstep : Step s a s') : Joined s' := by
  intro result hreturned
  rcases step_cases hstep with ⟨next, -, rfl, hnext⟩ | ⟨-, pc, args, -, hs⟩ | ⟨-, pc, hc, hs⟩ |
    ⟨-, hs⟩
  · rcases hnext with ⟨args, rfl⟩ | rfl <;> cases hreturned
  · -- `Activate` leaves the controller idle or in itself
    rcases stepActivate_controller hs with hidle | ⟨pc', hact⟩
    · rw [hidle] at hreturned
      cases hreturned
    · rw [hact] at hreturned
      cases hreturned
  · -- `Deactivate` returns after it has joined the thread, or has found none
    cases pc with
    | join =>
        obtain ⟨-, rfl⟩ := join_eq_some hs
        rfl
    | testJoinable =>
        simp only [CPOCOProxyServer.stepDeactivate] at hs
        split at hs
        · cases hs
          cases hreturned
        · rename_i hnone
          cases hs
          exact Option.not_isSome_iff_eq_none.mp hnone
    | testReactor =>
        simp only [CPOCOProxyServer.stepDeactivate] at hs
        split at hs <;> cases hs <;> cases hreturned
    | _ =>
        cases hs
        cases hreturned
  · -- there is a thread, so that `Deactivate` has not returned
    rw [hs.controller] at hreturned
    have hthread := hs.exists_
    rw [h result hreturned] at hthread
    cases hthread

/-! ## The next round -/

/-- Nothing but the controller can be different. -/
def SameMembers (s s' : CPOCOProxyServer Creator) : Prop :=
  { s' with controller := s.controller } = s

/-- The thread is gone, and the controller is not in `Activate`, nor in the branch of
`Deactivate` that has found something to stop or to wait for. -/
def Resting (s : CPOCOProxyServer Creator) : Prop :=
  Clean s ∧ (s.controller = .idle ∨
    ∃ pc, s.controller = .deactivate pc ∧ pc ≠ .stop ∧ pc ≠ .join)

/-- The controller calls `Activate`. -/
def isCallActivate : Action Creator → Bool
  | .callActivate _ => true
  | _ => false

theorem Clean.setController {s : CPOCOProxyServer Creator} (h : Clean s)
    (c : Controller Creator) : Clean { s with controller := c } :=
  ⟨h.m_thread, h.m_thread_running, h.m_acceptor, h.m_reactor, h.m_server_socket⟩

/-- On a clean server, a further `Deactivate` does nothing. -/
theorem resting_step {s s' : CPOCOProxyServer Creator} {a : Action Creator} (h : Resting s)
    (hstep : Step s a s') (ha : isCallActivate a = false) : Resting s' ∧ SameMembers s s' := by
  obtain ⟨hclean, hcontroller⟩ := h
  cases a with
  | callActivate args => cases ha
  | callDeactivate =>
      obtain ⟨-, rfl⟩ := callDeactivate_step hstep
      exact ⟨⟨hclean.setController _, .inr ⟨.log, rfl, by simp, by simp⟩⟩, rfl⟩
  -- there is no thread to take a step
  | worker =>
      obtain ⟨w, hw, -⟩ := Option.bind_eq_some_iff.mp hstep
      cases hclean.m_thread.symm.trans hw
  | workerThrows =>
      obtain ⟨w, hw, -⟩ := Option.bind_eq_some_iff.mp hstep
      cases hclean.m_thread.symm.trans hw
  | controller =>
      unfold Step step CPOCOProxyServer.stepController at hstep
      rcases hcontroller with hidle | ⟨pc, hpc, hstop, hjoin⟩
      · rw [hidle] at hstep
        cases hstep
      · rw [hpc] at hstep
        cases pc with
        | stop => exact absurd rfl hstop
        | join => exact absurd rfl hjoin
        | log =>
            cases hstep
            exact ⟨⟨hclean.setController _, .inr ⟨.testReactor, rfl, by simp, by simp⟩⟩, rfl⟩
        -- both tests fail, so that nothing is stopped and nothing joined
        | testReactor =>
            have hnone : ¬ s.m_reactor.isSome = true := by simp [hclean.m_reactor]
            simp only [CPOCOProxyServer.stepDeactivate, if_neg hnone] at hstep
            cases hstep
            exact ⟨⟨hclean.setController _, .inr ⟨.testJoinable, rfl, by simp, by simp⟩⟩, rfl⟩
        | testJoinable =>
            have hnone : ¬ s.m_thread.isSome = true := by simp [hclean.m_thread]
            simp only [CPOCOProxyServer.stepDeactivate, if_neg hnone] at hstep
            cases hstep
            exact ⟨⟨hclean.setController _, .inr ⟨.returned true, rfl, by simp, by simp⟩⟩, rfl⟩
        | returned result =>
            cases hstep
            exact ⟨⟨hclean.setController _, .inl rfl⟩, rfl⟩

theorem resting_run {s : CPOCOProxyServer Creator} (h : Resting s)
    {us : List (Transition (CPOCOProxyServer Creator) (Action Creator))}
    (hrun : IsRun Step s us) (hus : ∀ t ∈ us, isCallActivate t.label = false) :
    ∀ x ∈ states s us, Resting x ∧ SameMembers s x := by
  have hstep : ∀ x a x', (Resting x ∧ SameMembers s x) → Step x a x' →
      isCallActivate a = false → Resting x' ∧ SameMembers s x' := by
    rintro x a x' ⟨hx, hsame⟩ hstep ha
    obtain ⟨hx', hsame'⟩ := resting_step hx hstep ha
    refine ⟨hx', ?_⟩
    unfold SameMembers at hsame hsame' ⊢
    rw [← hsame, ← hsame']
  exact invariant_states_of (C := fun _ a => isCallActivate a = false) hstep ⟨h, rfl⟩ hrun hus

/-- Where the controller is after so many statements of an `Activate` on a clean server. -/
def activatePath : List ActivatePc :=
  [.log, .testRunning, .setFrontPort, .setBackIp, .setBackPort, .setCreator, .testJoinable,
   .startThread, .returned true]

/-- A call of `Activate` goes along this path whatever comes in between, and waits for nobody
before it has returned true. -/
def ActivateReturns (s : CPOCOProxyServer Creator) (args : Arguments Creator) : Prop :=
  ∃ called, Step s (.callActivate args) called ∧
    ∀ us, IsRun Step called us → ∀ pc, activatePath[us.length]? = some pc →
      (last called us).controller = .activate pc args ∧
        (pc ≠ .returned true → ∃ x, Step (last called us) .controller x)

/-- After `n` statements. As long as no thread has been started, the server is clean. -/
def OnPath (args : Arguments Creator) (n : ℕ) (s : CPOCOProxyServer Creator) : Prop :=
  ∃ pc, activatePath[n]? = some pc ∧ s.controller = .activate pc args ∧ (n < 8 → Clean s)

/-- Without a thread, only the controller can move. -/
theorem only_controller {s s' : CPOCOProxyServer Creator} (h : Clean s) {pc : ActivatePc}
    {args : Arguments Creator} (hc : s.controller = .activate pc args) {a : Action Creator}
    (hstep : Step s a s') : a = .controller := by
  unfold Step step at hstep
  rw [hc, h.m_thread] at hstep
  cases a with
  | controller => rfl
  | _ => cases hstep

theorem onPath_next {s : CPOCOProxyServer Creator} {args : Arguments Creator} {n : ℕ}
    (h : OnPath args n s) (hn : n < 8) :
    ∃ s', Step s .controller s' ∧ OnPath args (n + 1) s' := by
  obtain ⟨pc, hpath, hc, hclean⟩ := h
  have hidle : s.m_thread_running ≠ true := by rw [(hclean hn).m_thread_running]; decide
  have hnone : ¬ s.m_thread.isSome = true := by rw [(hclean hn).m_thread]; decide
  unfold Step
  rw [step_activate hc]
  obtain ⟨hthread, hrunning, hacceptor, hreactor, hsocket⟩ := hclean hn
  have hclean' : ∀ (port : ℤ) (ip : String) (back : ℤ) (creator : Option Creator)
      (c : Controller Creator), Clean { s with
        m_front_port := port, m_back_ip := ip, m_back_port := back, m_creator := creator,
        controller := c } :=
    fun _ _ _ _ _ => ⟨hthread, hrunning, hacceptor, hreactor, hsocket⟩
  -- one case for each statement of the path; the next one is the next of the list
  match n, hn, hpath with
  | 1, _, rfl =>
      rw [CPOCOProxyServer.stepActivate, if_neg hidle]
      exact ⟨_, rfl, _, rfl, rfl, fun _ => hclean' ..⟩
  | 6, _, rfl =>
      rw [CPOCOProxyServer.stepActivate, if_neg hnone]
      exact ⟨_, rfl, _, rfl, rfl, fun _ => hclean' ..⟩
  | 7, _, rfl => exact ⟨_, rfl, _, rfl, rfl, fun hlt => absurd hlt (by decide)⟩
  | 0, _, rfl | 2, _, rfl | 3, _, rfl | 4, _, rfl | 5, _, rfl =>
      exact ⟨_, rfl, _, rfl, rfl, fun _ => hclean' ..⟩

theorem onPath_run {s : CPOCOProxyServer Creator} {args : Arguments Creator} {n : ℕ}
    (h : OnPath args n s) {us : List (Transition (CPOCOProxyServer Creator) (Action Creator))}
    (hrun : IsRun Step s us) (hn : n + us.length ≤ 8) :
    OnPath args (n + us.length) (last s us) := by
  induction us generalizing s n with
  | nil => exact h
  | cons u us ih =>
      obtain ⟨rfl, hu, hus⟩ := hrun
      rw [List.length_cons] at hn
      have hlt : n < 8 := by omega
      obtain ⟨s', hs', hnext⟩ := onPath_next h hlt
      -- the one step that is possible is the one that was taken
      obtain ⟨pc, -, hc, hclean⟩ := h
      have hlabel := only_controller (hclean hlt) hc hu
      have hdst : u.dst = s' := by
        unfold Step at hu hs'
        rw [hlabel, hs'] at hu
        exact (Option.some.inj hu).symm
      rw [List.length_cons, show n + (us.length + 1) = n + 1 + us.length by omega, last]
      exact ih (hdst ▸ hnext) hus (by omega)

theorem activateReturns_of_clean {s : CPOCOProxyServer Creator} (h : Clean s)
    (hidle : s.controller = .idle) (args : Arguments Creator) : ActivateReturns s args := by
  refine ⟨{ s with controller := .activate .log args }, ?_, fun us hrun pc hpc => ?_⟩
  · simp only [Step, step, hidle]
  · have hlength : us.length < 9 := (List.getElem?_eq_some_iff.mp hpc).1
    have hstart : OnPath args 0 { s with controller := .activate .log args } :=
      ⟨.log, rfl, rfl, fun _ => h.setController _⟩
    -- as many statements have been executed as there are steps in the run
    have hpath := onPath_run hstart hrun (by omega)
    rw [Nat.zero_add] at hpath
    have hnext := fun hlt : us.length < 8 => onPath_next hpath hlt
    obtain ⟨pc', hpc', hc, -⟩ := hpath
    obtain rfl := Option.some.inj (hpc'.symm.trans hpc)
    refine ⟨hc, fun hne => ?_⟩
    have hlt : us.length < 8 := by
      apply Nat.lt_of_le_of_ne (Nat.le_of_lt_succ hlength)
      intro height
      rw [height] at hpc
      exact hne (Option.some.inj hpc).symm
    obtain ⟨x, hx, -⟩ := hnext hlt
    exact ⟨x, hx⟩

/-! ## One thread at a time -/

/-- The function of the thread has not returned. -/
def Worker.isAlive : Worker → Bool
  | .finished => false
  | _ => true

/-- How many threads run in this state, by `m_thread`. -/
def aliveCount (s : CPOCOProxyServer Creator) : ℕ := (s.m_thread.any Worker.isAlive).toNat

/-- How many threads a run has started. -/
def started (ts : List (Transition (CPOCOProxyServer Creator) (Action Creator))) : ℕ :=
  ts.countP fun t => startsWorker t.src t.label

/-- How many threads have come to the end of their function. -/
def ended (ts : List (Transition (CPOCOProxyServer Creator) (Action Creator))) : ℕ :=
  ts.countP fun t => endsWorker t.src t.label

theorem endsWorker_of_ne {s : CPOCOProxyServer Creator} {a : Action Creator}
    (ha : a ≠ .worker) : endsWorker s a = false := by
  cases a <;> first | rfl | exact absurd rfl ha

/-- A thread runs until the last statement of its function. -/
theorem isAlive_stepWorker {s s' : CPOCOProxyServer Creator} {w : Worker}
    (hw : s.m_thread = some w) (hstep : s.stepWorker w = some s') :
    w.isAlive = true ∧ s'.m_thread.any Worker.isAlive = !endsWorker s .worker := by
  unfold endsWorker
  rw [hw]
  cases w <;>
    simp only [CPOCOProxyServer.stepWorker, Option.some.injEq, reduceCtorEq] at hstep
  case run =>
    split at hstep <;> subst hstep
    · exact ⟨rfl, rfl⟩
    · exact ⟨rfl, by rw [hw]; rfl⟩
  all_goals
    subst hstep
    exact ⟨rfl, rfl⟩

theorem isAlive_stepThrows {s s' : CPOCOProxyServer Creator} {w : Worker}
    (hstep : s.stepThrows w = some s') :
    w.isAlive = true ∧ s'.m_thread.any Worker.isAlive = true := by
  obtain ⟨rfl, hloop, -⟩ := stepThrows_catch hstep
  refine ⟨?_, rfl⟩
  cases w with
  | finished => cases hloop
  | _ => rfl

/-- **The balance of a step.** -/
theorem alive_step {s s' : CPOCOProxyServer Creator} {a : Action Creator} (h : Wf s)
    (hstep : Step s a s') :
    aliveCount s' + (endsWorker s a).toNat = aliveCount s + (startsWorker s a).toNat := by
  unfold aliveCount
  by_cases hworker : a = .worker
  · subst hworker
    obtain ⟨w, hw, hs⟩ := Option.bind_eq_some_iff.mp hstep
    obtain ⟨halive, halive'⟩ := isAlive_stepWorker hw hs
    rw [halive', hw, Option.any_some, halive, show startsWorker s .worker = false from rfl]
    cases endsWorker s .worker <;> rfl
  rw [endsWorker_of_ne hworker]
  by_cases hthrows : a = .workerThrows
  · subst hthrows
    obtain ⟨w, hw, hs⟩ := Option.bind_eq_some_iff.mp hstep
    obtain ⟨halive, halive'⟩ := isAlive_stepThrows hs
    rw [halive', hw, Option.any_some, halive, show startsWorker s .workerThrows = false from rfl]
  -- the controller joins a thread that has ended, and starts one where there is none
  · rcases (controllerStep h hstep hworker hthrows).m_thread with ⟨hstarts, hsame⟩ |
      ⟨hstarts, hfinished, hnone⟩ | ⟨hstarts, hnone, hstarted⟩
    · rw [hstarts, hsame]
    · rw [hstarts, hfinished, hnone]
      rfl
    · rw [hstarts, hnone, hstarted]
      rfl

theorem started_le_ended {ts : List (Transition (CPOCOProxyServer Creator) (Action Creator))}
    (hrun : IsRun Step CPOCOProxyServer.construct ts) : started ts ≤ ended ts + 1 := by
  have hbalance := balance_run (R := Step) (I := Wf) (fun _ _ _ => step_wf)
    (fun _ _ _ => alive_step) construct_wf hrun
  have hone : aliveCount (last CPOCOProxyServer.construct ts) ≤ 1 := Bool.toNat_le _
  have hzero : aliveCount (CPOCOProxyServer.construct : CPOCOProxyServer Creator) = 0 := rfl
  -- who has been started and has not ended is alive at the end
  unfold started ended
  omega

/-! ## Restarting -/

/-- **`Deactivate` leaves a clean, restartable server**, however the thread has ended: there
is no thread, the flag is cleared and the three objects are gone; nothing but an
`Activate` changes a member after that, and the next `Activate` returns true. And in no
run do two of the threads run at once. -/
theorem deactivate_restartable
    {ts : List (Transition (CPOCOProxyServer Creator) (Action Creator))}
    (hrun : IsRun Step CPOCOProxyServer.construct ts) :
    (∀ x ∈ states CPOCOProxyServer.construct ts, ∀ result,
      x.controller = .deactivate (.returned result) →
        Clean x ∧ ∀ us, IsRun Step x us → (∀ t ∈ us, isCallActivate t.label = false) →
          ∀ y ∈ states x us, SameMembers x y ∧
            (y.controller = .idle → ∀ args, ActivateReturns y args)) ∧
      started ts ≤ ended ts + 1 := by
  refine ⟨fun x hx result hreturned => ?_, started_le_ended hrun⟩
  have htidy := invariant_states (I := fun s => (Wf s ∧ Tidy s) ∧ Joined s)
    (fun _ _ _ h hstep => ⟨tidy_step h.1 hstep, joined_step h.2 hstep⟩)
    ⟨⟨construct_wf, fun _ => rfl, fun _ => rfl⟩, fun _ _ => rfl⟩ hrun x hx
  have hclean : Clean x := .of_thread htidy.1.1 htidy.1.2 (htidy.2 result hreturned)
  refine ⟨hclean, fun us hus hcalls y hy => ?_⟩
  have hresting : Resting x := ⟨hclean, .inr ⟨_, hreturned, by simp, by simp⟩⟩
  obtain ⟨hy', hsame⟩ := resting_run hresting hus hcalls y hy
  exact ⟨hsame, fun hidle args => activateReturns_of_clean hy'.1 hidle args⟩

/-- The server is activated, the port is in use, and `Deactivate` comes after that. -/
def deactivateLate : List (Action Unit) :=
  activateOnce ⟨1, "a", 2, ()⟩ ++ List.replicate 5 .worker ++
    .workerThrows :: List.replicate 6 .worker ++ .callDeactivate :: List.replicate 4 .controller

theorem isRun_deactivateLate : IsRun Step CPOCOProxyServer.construct
    (unroll next CPOCOProxyServer.construct deactivateLate) :=
  isRun_unroll_some (by decide)

theorem deactivate_restartable_late :
    Clean (deactivateLate.foldl next CPOCOProxyServer.construct) ∧
      started (unroll next CPOCOProxyServer.construct deactivateLate) ≤
        ended (unroll next CPOCOProxyServer.construct deactivateLate) + 1 :=
  have h := deactivate_restartable isRun_deactivateLate
  ⟨(h.1 _ (mem_states.mpr (.inr ⟨_, List.mem_of_getLast? rfl, rfl⟩)) true rfl).1, h.2⟩

end PocoProxy.Server
