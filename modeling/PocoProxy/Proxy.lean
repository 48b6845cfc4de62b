/-
The proxy: the server's two threads, and the reactor that one of them runs.

The statements of the server are those of `CPOCOProxyServer`, and the steps of the reactor are
those of the `Machine`; here the two meet. The machine is there from the constructor of the
acceptor to `m_reactor.reset()`. `m_reactor->stop()` sets its flag from the controller's
thread, its own steps are taken by the thread that is inside of `run`, and `run` returns when the
broadcast of `onShutdown` has come to its end. `dispatch` lets no exception out, so that `run`
throws nothing.

What a session's peers do is a step of the machine as well, at any time.
-/
import PocoProxy.Accounts
import PocoProxy.Lib.Refinement
import PocoProxy.Rounds
import PocoProxy.ServerRounds

set_option autoImplicit false

namespace PocoProxy.Proxy

open PocoProxy.Socket PocoProxy.PollSet PocoProxy.Reactor PocoProxy.Session PocoProxy.Runs
open PocoProxy.Server (CPOCOProxyServer Arguments Worker)
open PocoProxy.ReactorLoop (Machine Label)

variable {Creator : Type}

/-! ## The state -/

structure State (Creator : Type) where
  server : CPOCOProxyServer Creator
  /-- `*m_reactor`, with the acceptor, the sockets and the sessions. -/
  machine : Option Machine

/-- Before the first `Activate`. -/
def State.construct : State Creator := ⟨.construct, none⟩

inductive Action (Creator : Type) where
  /-- A statement of one of the two threads. -/
  | server (a : Server.Action Creator)
  /-- `m_acceptor = std::make_unique<CPOCOProxyAcceptor>(…)`, on this server socket. -/
  | listen (sockfd : Fd)
  /-- A step of the reactor, inside of `run`, or of a peer. -/
  | reactor (l : Label)

/-! ## The steps -/

/-- `m_acceptor.reset()`, with `~SocketAcceptor`. -/
def resetAcceptor (m : Machine) : Machine :=
  { m with reactor := m.reactor.removeEventHandler m.server Machine.acceptTarget }

/-- The constructor of the acceptor, on a reactor that may have been stopped already. -/
def makeAcceptor (sockfd : Fd) (stop : Bool) : Machine :=
  { Machine.listening sockfd with stop := stop }

namespace State

/-- `run` has come to its end. -/
def RunReturns (s : State Creator) : Prop :=
  ∃ m ∈ s.machine, m.shuttingDown = true ∧ ReactorLoop.Finished m

instance (s : State Creator) : Decidable s.RunReturns :=
  inferInstanceAs (Decidable (∃ m ∈ s.machine,
    m.shuttingDown = true ∧ m.tasks = [] ∧ m.observersToNotify = []))

/-- The statements of the server that are statements here: the thread leaves `run` when that
returns, and not by an exception. -/
def Takes (s : State Creator) : Server.Action Creator → Prop
  | .worker => s.server.m_thread ≠ some .makeAcceptor ∧
      (s.server.m_thread = some .run → s.RunReturns)
  | .workerThrows => s.server.m_thread ≠ some .run
  | _ => True

instance (s : State Creator) : (a : Server.Action Creator) → Decidable (s.Takes a)
  | .worker => inferInstanceAs (Decidable (_ ∧ (_ → _)))
  | .workerThrows => inferInstanceAs (Decidable (_ ≠ _))
  | .callActivate _ | .callDeactivate | .controller => .isTrue trivial

/-- What a statement of the server does to the reactor. -/
def machineAfter (s : State Creator) : Server.Action Creator → Option Machine
  | .controller =>
    match s.server.controller with
    | .deactivate .stop => s.machine.map (ReactorLoop.step · .stop)
    | _ => s.machine
  | .worker =>
    match s.server.m_thread with
    | some .resetAcceptor => s.machine.map resetAcceptor
    | some .resetReactor => none
    | _ => s.machine
  | _ => s.machine

end State

/-- `stop` is called by the server only. -/
def isStop : Label → Bool
  | .stop => true
  | _ => false

def Admissible (s : State Creator) : Action Creator → Prop
  | .server a => (Server.step s.server a).isSome = true ∧ s.Takes a
  | .listen _ => s.server.m_thread = some .makeAcceptor
  | .reactor l => isStop l = false ∧
      (ReactorLoop.isReactorStep l = true → s.server.m_thread = some .run) ∧
      ∃ m ∈ s.machine, ReactorLoop.Admissible m l ∧ ReactorLoop.SocketsOk m l

instance (s : State Creator) (a : Action Creator) : Decidable (Admissible s a) := by
  cases a <;> unfold Admissible <;> infer_instance

def step (s : State Creator) : Action Creator → State Creator
  | .server a => ⟨(Server.step s.server a).getD s.server, s.machineAfter a⟩
  | .listen sockfd =>
    ⟨(Server.step s.server .worker).getD s.server,
      some (makeAcceptor sockfd (s.server.m_reactor = some ⟨true⟩))⟩
  | .reactor l => ⟨s.server, s.machine.map (ReactorLoop.step · l)⟩

def Step (s : State Creator) (a : Action Creator) (s' : State Creator) : Prop :=
  Admissible s a ∧ s' = step s a

/-! ## What a step is -/

/-- The step, by what it is in the server and in the reactor. -/
inductive StepCases (s : State Creator) (s' : State Creator) : Action Creator → Prop
  | server (a : Server.Action Creator) (hstep : Server.Step s.server a s'.server)
      (htakes : s.Takes a) (hmachine : s'.machine = s.machineAfter a) :
      StepCases s s' (.server a)
  | listen (sockfd : Fd) (hw : s.server.m_thread = some .makeAcceptor)
      (hserver : s'.server = { s.server.at_ .run with m_acceptor := true })
      (hmachine : s'.machine = some (makeAcceptor sockfd (s.server.m_reactor = some ⟨true⟩))) :
      StepCases s s' (.listen sockfd)
  | reactor (l : Label) (m : Machine) (hm : s.machine = some m) (hl : l ≠ .stop)
      (hrun : ReactorLoop.isReactorStep l = true → s.server.m_thread = some .run)
      (hstep : ReactorLoop.PocoStep m l (ReactorLoop.step m l)) (hserver : s'.server = s.server)
      (hmachine : s'.machine = some (ReactorLoop.step m l)) : StepCases s s' (.reactor l)

theorem step_cases {s s' : State Creator} {a : Action Creator} (hstep : Step s a s') :
    StepCases s s' a := by
  obtain ⟨hadm, rfl⟩ := hstep
  cases a with
  | server a =>
      obtain ⟨hsome, htakes⟩ := hadm
      obtain ⟨server', hserver'⟩ := Option.isSome_iff_exists.mp hsome
      refine .server a ?_ htakes rfl
      change Server.step s.server a = some ((Server.step s.server a).getD s.server)
      rw [hserver', Option.getD_some]
  | listen sockfd =>
      refine .listen sockfd hadm ?_ rfl
      change (Server.step s.server .worker).getD s.server = _
      rw [Server.step, show s.server.m_thread = some .makeAcceptor from hadm]
      rfl
  | reactor l =>
      obtain ⟨hstop, hrun, m, hm, hadm, hok⟩ := hadm
      rw [Option.mem_def] at hm
      refine .reactor l m hm ?_ hrun ⟨⟨hadm, rfl⟩, hok⟩ rfl ?_
      · rintro rfl
        cases hstop
      · change s.machine.map _ = _
        rw [hm, Option.map_some]

/-- **The proxy refines the server**: what the reactor does does not show there. -/
theorem refines_server : Refines (fun _ : State Creator => True) Step Server.Step State.server := by
  intro s a s' _ hstep
  cases step_cases hstep with
  | server a hserver htakes hmachine => exact .inl ⟨a, hserver⟩
  | listen sockfd hw hserver hmachine =>
      refine .inl ⟨.worker, ?_⟩
      rw [Server.Step, Server.step, hw, hserver]
      rfl
  | reactor l m hm hl hrun hpoco hserver hmachine => exact .inr hserver

/-- What holds in every run of the server. -/
theorem server_states {P : CPOCOProxyServer Creator → Prop}
    (hP : ∀ us, IsRun Server.Step .construct us → ∀ y ∈ states CPOCOProxyServer.construct us, P y)
    {ts : List (Transition (State Creator) (Action Creator))} (hrun : IsRun Step .construct ts) :
    ∀ x ∈ states State.construct ts, P x.server :=
  refines_server.transfer (fun _ _ _ _ _ => trivial) trivial hP hrun

theorem server_wf {ts : List (Transition (State Creator) (Action Creator))}
    (hrun : IsRun Step .construct ts) : ∀ x ∈ states State.construct ts, Server.Wf x.server :=
  server_states (fun _ hus => invariant_states (I := Server.Wf)
    (fun _ _ _ h hstep => Server.step_wf h hstep) Server.construct_wf hus) hrun

/-! ## How the two hang together -/

/-- The machine, at each statement of the thread: it has `P` inside of `run`, has come to its end
when `run` is left, and is not there before and after that. -/
inductive Linked (P : Machine → Prop) (s : State Creator) : Prop
  | outside (hm : s.machine = none) (hw : s.server.m_thread ≠ some .run)
  | running (m : Machine) (hw : s.server.m_thread = some .run) (hm : s.machine = some m) (h : P m)
      (hreactor : s.server.m_reactor = some ⟨m.stop⟩)
  | left (m : Machine) (hw : s.server.m_thread = some .resetAcceptor) (hm : s.machine = some m)
      (h : P m) (hshutting : m.shuttingDown = true) (hfinished : ReactorLoop.Finished m)
  | reset (m : Machine) (hw : s.server.m_thread = some .resetReactor)
      (hm : s.machine = some (resetAcceptor m)) (h : P m) (hshutting : m.shuttingDown = true)
      (hfinished : ReactorLoop.Finished m)

namespace Linked

variable {P : Machine → Prop} {s s' : State Creator}

theorem at_run (h : Linked P s) (hw : s.server.m_thread = some .run) :
    ∃ m, s.machine = some m ∧ P m ∧ s.server.m_reactor = some ⟨m.stop⟩ := by
  cases h with
  | outside hm hne => exact absurd hw hne
  | running m hw' hm hp hreactor => exact ⟨m, hm, hp, hreactor⟩
  | left m hw' => cases hw.symm.trans hw'
  | reset m hw' => cases hw.symm.trans hw'

/-- Outside of `run` and of the two resets after it there is no reactor. -/
theorem machine_none (h : Linked P s) (hrun : s.server.m_thread ≠ some .run)
    (hacceptor : s.server.m_thread ≠ some .resetAcceptor)
    (hreactor : s.server.m_thread ≠ some .resetReactor) : s.machine = none := by
  cases h with
  | outside hm => exact hm
  | running m hw => exact absurd hw hrun
  | left m hw => exact absurd hw hacceptor
  | reset m hw => exact absurd hw hreactor

theorem imp {Q : Machine → Prop} (h : Linked P s) (hPQ : ∀ m, P m → Q m) : Linked Q s := by
  cases h with
  | outside hm hw => exact .outside hm hw
  | running m hw hm hp hreactor => exact .running m hw hm (hPQ m hp) hreactor
  | left m hw hm hp hshutting hfinished => exact .left m hw hm (hPQ m hp) hshutting hfinished
  | reset m hw hm hp hshutting hfinished => exact .reset m hw hm (hPQ m hp) hshutting hfinished

theorem congr (h : Linked P s) (hw : s'.server.m_thread = s.server.m_thread)
    (hreactor : s'.server.m_reactor = s.server.m_reactor) (hm : s'.machine = s.machine) :
    Linked P s' := by
  cases h with
  | outside hm' hne => exact .outside (hm.trans hm') (hw ▸ hne)
  | running m hw' hm' hp hreactor' =>
      exact .running m (hw.trans hw') (hm.trans hm') hp (hreactor.trans hreactor')
  | left m hw' hm' hp hshutting hfinished =>
      exact .left m (hw.trans hw') (hm.trans hm') hp hshutting hfinished
  | reset m hw' hm' hp hshutting hfinished =>
      exact .reset m (hw.trans hw') (hm.trans hm') hp hshutting hfinished

end Linked

/-- `P` holds of a reactor at first, and the steps that meet `C` keep it. -/
structure KeptBy (C : Machine → Label → Prop) (P : Machine → Prop) : Prop where
  listening : ∀ sockfd, P (Machine.listening sockfd)
  step : ∀ m l m', P m → ReactorLoop.PocoStep m l m' → C m l → P m'
  peer : ∀ m l, ReactorLoop.isReactorStep l = false → C m l

theorem KeptBy.stopped {C : Machine → Label → Prop} {P : Machine → Prop} (hP : KeptBy C P)
    {m : Machine} (h : P m) : P (ReactorLoop.step m .stop) :=
  hP.step m .stop _ h ⟨⟨trivial, rfl⟩, trivial⟩ (hP.peer m .stop rfl)

/-- A reactor that has been stopped before it listens is one that has been stopped after. -/
theorem KeptBy.makeAcceptor {C : Machine → Label → Prop} {P : Machine → Prop} (hP : KeptBy C P)
    (sockfd : Fd) (stop : Bool) : P (makeAcceptor sockfd stop) := by
  cases stop with
  | false => exact hP.listening sockfd
  | true => exact hP.stopped (hP.listening sockfd)

/-- A peer does not see that the acceptor is gone, and leaves the rest of the reactor alone. -/
theorem peer_step {m : Machine} {l : Label} (hl : ReactorLoop.isReactorStep l = false)
    (hstop : l ≠ .stop) :
    ReactorLoop.step (resetAcceptor m) l = resetAcceptor (ReactorLoop.step m l) ∧
      ((ReactorLoop.step m l).tasks = m.tasks ∧
        (ReactorLoop.step m l).observersToNotify = m.observersToNotify) ∧
      (ReactorLoop.PocoStep (resetAcceptor m) l (ReactorLoop.step (resetAcceptor m) l) →
        ReactorLoop.PocoStep m l (ReactorLoop.step m l)) := by
  have hsession : ∀ j (f : World → World), (∀ w, (f w).reactor = w.reactor) →
      (∀ (c : ReactorLoop.Cell) r r',
        ReactorLoop.Cell.ofWorld (f (c.world r)) = .ofWorld (f (c.world r'))) →
      (resetAcceptor m).onSession j f = resetAcceptor (m.onSession j f) ∧
        (m.onSession j f).tasks = m.tasks ∧
        (m.onSession j f).observersToNotify = m.observersToNotify := by
    intro j f hreactor hcell
    unfold Machine.onSession
    rw [show (resetAcceptor m).sessions = m.sessions from rfl]
    cases m.sessions[j]? with
    | none => exact ⟨rfl, rfl, rfl⟩
    | some c =>
        dsimp only
        rw [hreactor, hreactor, hcell c (resetAcceptor m).reactor m.reactor]
        exact ⟨rfl, rfl, rfl⟩
  cases l with
  | stop => exact absurd rfl hstop
  | arrive j d bs =>
      obtain ⟨hcomm, hround⟩ := hsession j (fun w => Session.step w (.arrive d bs))
        (fun w => by cases d <;> rfl) fun c r r' => by cases d <;> rfl
      exact ⟨hcomm, hround, fun h => ⟨⟨h.1.1, rfl⟩, trivial⟩⟩
  | connectDone j status =>
      obtain ⟨hcomm, hround⟩ := hsession j (fun w => Session.step w (.connectDone status))
        (fun _ => rfl) fun _ _ _ => rfl
      exact ⟨hcomm, hround, fun h => ⟨⟨h.1.1, rfl⟩, trivial⟩⟩
  | _ => cases hl

/-- Only `m_reactor->stop()` changes the pointer's object. -/
theorem stepDeactivate_reactor {s s' : CPOCOProxyServer Creator} {pc : Server.DeactivatePc}
    (hstep : s.stepDeactivate pc = some s') (hpc : pc ≠ .stop) : s'.m_reactor = s.m_reactor := by
  cases pc with
  | stop => exact absurd rfl hpc
  | join =>
      obtain ⟨-, rfl⟩ := Server.join_eq_some hstep
      rfl
  | testReactor =>
      simp only [CPOCOProxyServer.stepDeactivate] at hstep
      split at hstep <;> cases hstep <;> rfl
  | testJoinable =>
      simp only [CPOCOProxyServer.stepDeactivate] at hstep
      split at hstep <;> cases hstep <;> rfl
  | _ =>
      cases hstep
      rfl

section

variable {C : Machine → Label → Prop} {P : Machine → Prop} (hP : KeptBy C P)

/-- The controller, outside of its call of `stop`. -/
theorem linked_of_not_stop {s s' : State Creator} (hwf : Server.Wf s.server) (h : Linked P s)
    {a : Server.Action Creator} (hstep : Server.Step s.server a s'.server) (hworker : a ≠ .worker)
    (hthrows : a ≠ .workerThrows) (hreactor : s'.server.m_reactor = s.server.m_reactor)
    (hm : s'.machine = s.machine) : Linked P s' := by
  rcases (Server.controllerStep hwf hstep hworker hthrows).m_thread with ⟨-, hsame⟩ |
    ⟨-, hfinished, hnone⟩ | ⟨-, hnone, hstarted⟩
  · exact h.congr hsame hreactor hm
  · refine .outside (hm.trans (h.machine_none ?_ ?_ ?_)) ?_ <;> simp [hfinished, hnone]
  · refine .outside (hm.trans (h.machine_none ?_ ?_ ?_)) ?_ <;> simp [hnone, hstarted]

include hP

/-- `m_reactor->stop()`. -/
theorem linked_stop {s s' : State Creator} (h : Linked P s)
    (hw : s'.server.m_thread = s.server.m_thread)
    (hreactor : s'.server.m_reactor = s.server.m_reactor.map fun _ => ⟨true⟩)
    (hm : s'.machine = s.machine.map (ReactorLoop.step · .stop)) : Linked P s' := by
  cases h with
  | outside hm' hne =>
      rw [hm', Option.map_none] at hm
      exact .outside hm (hw ▸ hne)
  | running m hw' hm' hp hreactor' =>
      rw [hm', Option.map_some] at hm
      rw [hreactor', Option.map_some] at hreactor
      exact .running _ (hw.trans hw') hm (hP.stopped hp) hreactor
  | left m hw' hm' hp hshutting hfinished =>
      rw [hm', Option.map_some] at hm
      exact .left _ (hw.trans hw') hm (hP.stopped hp) hshutting hfinished
  | reset m hw' hm' hp hshutting hfinished =>
      rw [hm', Option.map_some] at hm
      exact .reset (ReactorLoop.step m .stop) (hw.trans hw') hm (hP.stopped hp) hshutting hfinished

omit hP in
/-- A statement of the thread. -/
theorem linked_worker {s s' : State Creator} (h : Linked P s)
    (hstep : Server.Step s.server .worker s'.server) (htakes : s.Takes .worker)
    (hmachine : s'.machine = s.machineAfter .worker) : Linked P s' := by
  obtain ⟨w, hw, hs⟩ := Option.bind_eq_some_iff.mp hstep
  have hquiet : w ≠ .run → w ≠ .resetAcceptor → w ≠ .resetReactor →
      s'.server.m_thread ≠ some .run → Linked P s' := by
    intro hrun hacceptor hreactor hnext
    have hnone := h.machine_none (by simpa [hw] using hrun) (by simpa [hw] using hacceptor)
      (by simpa [hw] using hreactor)
    refine .outside ?_ hnext
    rw [hmachine, State.machineAfter, hw]
    cases w <;> first | exact hnone | contradiction
  cases w <;>
    simp only [CPOCOProxyServer.stepWorker, Option.some.injEq, reduceCtorEq] at hs
  case makeAcceptor => exact absurd hw htakes.1
  case run =>
    obtain ⟨m, hm, hp, hreactor⟩ := h.at_run hw
    obtain ⟨m', hm', hshutting, hfinished⟩ := htakes.2 hw
    obtain rfl := Option.some.inj (hm'.symm.trans hm)
    have hsame : s'.machine = some m' := by
      rw [hmachine, State.machineAfter, hw]
      exact hm
    split at hs
    · exact .left m' (by rw [← hs]; rfl) hsame hp hshutting hfinished
    · exact .running m' (by rw [← hs]; exact hw) hsame hp (by rw [← hs]; exact hreactor)
  case resetAcceptor =>
    have hmap : s'.machine = s.machine.map resetAcceptor := by
      rw [hmachine, State.machineAfter, hw]
    have hw' : s'.server.m_thread = some .resetReactor := by rw [← hs]; rfl
    cases h with
    | outside hm hne =>
        rw [hm, Option.map_none] at hmap
        exact .outside hmap (by simp [hw'])
    | left m hw'' hm hp hshutting hfinished =>
        rw [hm, Option.map_some] at hmap
        exact .reset m hw' hmap hp hshutting hfinished
    | running m hw'' => cases hw.symm.trans hw''
    | reset m hw'' => cases hw.symm.trans hw''
  case resetReactor =>
    refine .outside ?_ (by simp [← hs, CPOCOProxyServer.at_])
    rw [hmachine, State.machineAfter, hw]
  all_goals exact hquiet (by decide) (by decide) (by decide) (by simp [← hs, CPOCOProxyServer.at_])

omit hP in
/-- An exception in a statement of the thread: there is no reactor yet. -/
theorem linked_throws {s s' : State Creator} (h : Linked P s)
    (hstep : Server.Step s.server .workerThrows s'.server) (htakes : s.Takes .workerThrows)
    (hmachine : s'.machine = s.machineAfter .workerThrows) : Linked P s' := by
  obtain ⟨w, hw, hs⟩ := Option.bind_eq_some_iff.mp hstep
  have hne : w ≠ .run := by
    rintro rfl
    exact htakes hw
  obtain ⟨hserver, -, -⟩ := Server.stepThrows_catch hs
  have hnone : s.machine = none := by
    apply h.machine_none <;> rw [hw] <;> rintro heq <;> cases heq
    · exact hne rfl
    · cases hs
    · cases hs
  exact .outside (hmachine.trans hnone) (by simp [hserver, CPOCOProxyServer.at_])

/-- A step of the reactor, or of a peer. -/
theorem linked_reactor {s s' : State Creator} (h : Linked P s) {l : Label} {m : Machine}
    (hm : s.machine = some m) (hl : l ≠ .stop)
    (hrun : ReactorLoop.isReactorStep l = true → s.server.m_thread = some .run)
    (hstep : ReactorLoop.PocoStep m l (ReactorLoop.step m l)) (hC : C m l)
    (hserver : s'.server = s.server) (hmachine : s'.machine = some (ReactorLoop.step m l)) :
    Linked P s' := by
  have hpeer : s.server.m_thread ≠ some .run →
      ReactorLoop.isReactorStep l = false ∧ l ≠ .shutdown := by
    intro hne
    refine ⟨by simpa using mt hrun hne, ?_⟩
    rintro rfl
    exact hne (hrun rfl)
  cases h with
  | outside hm' =>
      rw [hm'] at hm
      cases hm
  | running m' hw hm' hp hreactor =>
      obtain rfl := Option.some.inj (hm.symm.trans hm')
      refine .running _ (hserver ▸ hw) hmachine (hP.step m l _ hp hstep hC) ?_
      rw [hserver, (ReactorLoop.flags_step m l).1 hl]
      exact hreactor
  | left m' hw hm' hp hshutting hfinished =>
      obtain rfl := Option.some.inj (hm.symm.trans hm')
      obtain ⟨hfalse, hne⟩ := hpeer (by simp [hw])
      obtain ⟨-, ⟨htasks, hobs⟩, -⟩ := peer_step (m := m) hfalse hl
      refine .left _ (hserver ▸ hw) hmachine (hP.step m l _ hp hstep hC) ?_
        ⟨htasks.trans hfinished.1, hobs.trans hfinished.2⟩
      rw [(ReactorLoop.flags_step m l).2 hne]
      exact hshutting
  | reset m' hw hm' hp hshutting hfinished =>
      obtain rfl := Option.some.inj (hm.symm.trans hm')
      obtain ⟨hfalse, hne⟩ := hpeer (by simp [hw])
      obtain ⟨hcomm, ⟨htasks, hobs⟩, hpoco⟩ := peer_step (m := m') hfalse hl
      refine .reset (ReactorLoop.step m' l) (hserver ▸ hw) (hmachine.trans (congrArg some hcomm))
        (hP.step m' l _ hp (hpoco hstep) (hP.peer m' l hfalse)) ?_
        ⟨htasks.trans hfinished.1, hobs.trans hfinished.2⟩
      rw [(ReactorLoop.flags_step m' l).2 hne]
      exact hshutting

end

/-- The reactor's steps meet the condition. -/
def Meets (C : Machine → Label → Prop) (s : State Creator) : Action Creator → Prop
  | .reactor l => ∀ m ∈ s.machine, C m l
  | _ => True

instance (C : Machine → Label → Prop) [∀ m l, Decidable (C m l)] (s : State Creator) :
    (a : Action Creator) → Decidable (Meets C s a)
  | .reactor l => inferInstanceAs (Decidable (∀ m ∈ s.machine, C m l))
  | .server _ | .listen _ => .isTrue trivial

/-- **The step lemma.** -/
theorem linked_step {C : Machine → Label → Prop} {P : Machine → Prop} (hP : KeptBy C P)
    {s s' : State Creator} {a : Action Creator} (hwf : Server.Wf s.server) (h : Linked P s)
    (hstep : Step s a s') (hC : Meets C s a) : Linked P s' := by
  cases step_cases hstep with
  | listen sockfd hw hserver hmachine =>
      have hr := hwf.reactor
      rw [hw] at hr
      obtain ⟨r, hreactor⟩ := Option.isSome_iff_exists.mp (hr.2.1 rfl)
      refine .running _ (by rw [hserver]; rfl) hmachine (hP.makeAcceptor sockfd _) ?_
      rw [hserver]
      change s.server.m_reactor = some ⟨decide (s.server.m_reactor = some ⟨true⟩)⟩
      rw [hreactor]
      obtain ⟨stop⟩ := r
      cases stop <;> rfl
  | reactor l m hm hl hrun hpoco hserver hmachine =>
      exact linked_reactor hP h hm hl hrun hpoco (hC m hm) hserver hmachine
  | server b hserver htakes hmachine =>
      cases b with
      | worker => exact linked_worker h hserver htakes hmachine
      | workerThrows => exact linked_throws h hserver htakes hmachine
      | callActivate args =>
          obtain ⟨-, heq⟩ := Server.callActivate_step hserver
          exact linked_of_not_stop hwf h hserver (by simp) (by simp) (by rw [heq]) hmachine
      | callDeactivate =>
          obtain ⟨-, heq⟩ := Server.callDeactivate_step hserver
          exact linked_of_not_stop hwf h hserver (by simp) (by simp) (by rw [heq]) hmachine
      | controller =>
          have hnot : s'.server.m_reactor = s.server.m_reactor →
              s.machineAfter .controller = s.machine → Linked P s' := by
            intro hreactor hsame
            exact linked_of_not_stop hwf h hserver (by simp) (by simp) hreactor
              (hmachine.trans hsame)
          rcases Server.step_cases hserver with ⟨next, hidle, heq, -⟩ | ⟨-, pc, args, hc, hs⟩ |
            ⟨-, pc, hc, hs⟩ | ⟨hne, -⟩
          · exact hnot (by rw [heq]) (by rw [State.machineAfter, hidle])
          · exact hnot (Server.stepActivate_reactor hs) (by rw [State.machineAfter, hc])
          · by_cases hstop : pc = .stop
            · subst hstop
              rw [CPOCOProxyServer.stepDeactivate, Option.some.injEq] at hs
              refine linked_stop hP h (by rw [← hs]) (by rw [← hs]) ?_
              rw [hmachine, State.machineAfter, hc]
            · refine hnot (stepDeactivate_reactor hs hstop) ?_
              rw [State.machineAfter, hc]
              cases pc <;> first | rfl | exact absurd rfl hstop
          · exact absurd rfl hne

theorem linked_run {C : Machine → Label → Prop} {P : Machine → Prop} (hP : KeptBy C P)
    {ts : List (Transition (State Creator) (Action Creator))} (hrun : IsRun Step .construct ts)
    (hC : ∀ t ∈ ts, Meets C t.src t.label) : ∀ x ∈ states State.construct ts, Linked P x := by
  have hstep : ∀ (s : State Creator) a s', (Server.Wf s.server ∧ Linked P s) → Step s a s' →
      Meets C s a → Server.Wf s'.server ∧ Linked P s' := by
    rintro s a s' ⟨hwf, hlinked⟩ hstep hmeets
    refine ⟨?_, linked_step hP hwf hlinked hstep hmeets⟩
    rcases refines_server s a s' trivial hstep with ⟨b, hb⟩ | hsame
    · exact Server.step_wf hwf hb
    · rw [hsame]
      exact hwf
  have hall := invariant_states_of
    (I := fun s : State Creator => Server.Wf s.server ∧ Linked P s) hstep
    ⟨Server.construct_wf, .outside rfl fun h => by cases h⟩ hrun hC
  exact fun x hx => (hall x hx).2

end PocoProxy.Proxy
