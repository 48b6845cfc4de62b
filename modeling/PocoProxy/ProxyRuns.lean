/-
What the proxy as a whole can be relied on for.

Seen from the server, it is the server, and inside of `run` there is a reactor that has gone
through a run of its own (`proxy_refines`). When the reactor is destroyed nobody is registered
with it any more, and no session that it has served is left (`reactor_deserted`). And a
`Deactivate` whose request has not been lost returns (`deactivate_returns`).
-/
import PocoProxy.Proxy

set_option autoImplicit false

namespace PocoProxy.Proxy

open PocoProxy.Socket PocoProxy.PollSet PocoProxy.Reactor PocoProxy.Session PocoProxy.Runs
open PocoProxy.Server (CPOCOProxyServer Arguments Worker)
open PocoProxy.ReactorLoop (Machine Label)

variable {Creator : Type}

/-! ## The reactor inside of `run` -/

/-- A run of the reactor leads to this state. -/
def Reached (m : Machine) : Prop :=
  ∃ sockfd, ∃ vs, IsRun ReactorLoop.PocoStep (Machine.listening sockfd) vs ∧
    last (Machine.listening sockfd) vs = m

theorem reached_keptBy : KeptBy (fun _ _ => True) Reached where
  listening sockfd := ⟨sockfd, [], trivial, rfl⟩
  step := by
    rintro m l m' ⟨sockfd, vs, hvs, rfl⟩ hstep -
    exact ⟨sockfd, _, isRun_concat hvs hstep, last_concat _ _ _⟩
  peer _ _ _ := trivial

theorem meets_true (s : State Creator) (a : Action Creator) : Meets (fun _ _ => True) s a := by
  cases a <;> simp [Meets]

/-- **The proxy refines its parts.** Every run of it is one of the server, which passes through the
same states; and whenever the thread is inside of `run`, there is a reactor with the server's
flag, which has come there by a run of its own. -/
theorem proxy_refines {ts : List (Transition (State Creator) (Action Creator))}
    (hrun : IsRun Step .construct ts) :
    (∃ us, IsRun Server.Step CPOCOProxyServer.construct us ∧
        last CPOCOProxyServer.construct us = (last State.construct ts).server ∧
        ∀ x ∈ states State.construct ts, x.server ∈ states CPOCOProxyServer.construct us) ∧
      ∀ x ∈ states State.construct ts, x.server.m_thread = some .run →
        ∃ m, x.machine = some m ∧ x.server.m_reactor = some ⟨m.stop⟩ ∧ Reached m := by
  refine ⟨refines_server.run (fun _ _ _ _ _ => trivial) trivial hrun, ?_⟩
  intro x hx hw
  have hlinked := linked_run reached_keptBy hrun (fun t _ => meets_true t.src t.label) x hx
  obtain ⟨m, hm, hreached, hreactor⟩ := hlinked.at_run hw
  exact ⟨m, hm, hreactor, hreached⟩

/-- The server is activated, two clients come, and the reactor has two sessions. -/
def serving : List (Action Unit) :=
  .server (.callActivate ⟨1, "a", 2, ()⟩) :: List.replicate 9 (.server .controller) ++
    List.replicate 6 (.server .worker) ++
    [.listen 3, .reactor (.poll (some [(0, ⟨true, false, false⟩)])), .reactor .dispatch,
     .reactor (.accept (some ⟨5, sampleSetup .byPass, {}⟩)), .reactor (.connectDone 0 .succeeded),
     .reactor (.poll (some [(0, ⟨true, false, false⟩)])), .reactor .dispatch,
     .reactor (.accept (some ⟨6, { service := .ok (some .custom), backFd := 8 }, {}⟩))]

theorem allowed_serving : Allowed Admissible step State.construct serving := by
  decide +kernel

theorem proxy_refines_serving :
    (∃ us, IsRun Server.Step CPOCOProxyServer.construct us ∧
        last CPOCOProxyServer.construct us
          = (last State.construct (unroll step State.construct serving)).server ∧
        ∀ x ∈ states State.construct (unroll step State.construct serving),
          x.server ∈ states CPOCOProxyServer.construct us) ∧
      ∀ x ∈ states State.construct (unroll step State.construct serving),
        x.server.m_thread = some .run →
          ∃ m, x.machine = some m ∧ x.server.m_reactor = some ⟨m.stop⟩ ∧ Reached m :=
  proxy_refines (isRun_unroll allowed_serving)

/-! ## The end of the reactor -/

theorem settled_keptBy : KeptBy ReactorLoop.LogsPassing ReactorLoop.Settled where
  listening := ReactorLoop.settled_listening
  step _ _ _ h hstep hlogs := ReactorLoop.settled_step h ⟨hstep, hlogs⟩
  peer m l hl := by
    cases l <;> trivial

/-- Where the acceptor is reset too, there is nobody. -/
theorem targets_resetAcceptor {m : Machine} (h : ReactorLoop.Settled m)
    (hothers : ∀ s, s ≠ m.server.id → targets m.reactor s = []) (s : SocketId) :
    targets (resetAcceptor m).reactor s = [] := by
  change targets (m.reactor.removeEventHandler m.server Machine.acceptTarget) s = []
  rw [(removeEventHandler_spec h.safe.wf m.server Machine.acceptTarget).view, Registry.remove]
  by_cases hs : s = m.server.id
  · rw [hs, Function.update_self, h.acceptor, List.erase_cons_head]
  · rw [Function.update_of_ne hs]
    exact hothers s hs

/-- What holds whenever `m_reactor.reset()` is the thread's next statement. -/
theorem linked_reset {x : State Creator} (h : Linked ReactorLoop.Settled x)
    (hw : x.server.m_thread = some .resetReactor) {m : Machine} (hm : x.machine = some m) :
    (∀ s, targets m.reactor s = []) ∧
      ∀ c ∈ m.sessions, TornDown (c.world m.reactor) ∨
        ReactorLoop.Stranded (c.world m.reactor) := by
  cases h with
  | outside hm' =>
      rw [hm'] at hm
      cases hm
  | running m' hw' => cases hw.symm.trans hw'
  | left m' hw' => cases hw.symm.trans hw'
  | reset m' hw' hm' hsettled hshutting hfinished =>
      obtain rfl := Option.some.inj (hm.symm.trans hm')
      have hdeserted := hsettled.finished hshutting hfinished
      have hnobody := targets_resetAcceptor hsettled hdeserted.others
      refine ⟨hnobody, fun c hc => ?_⟩
      rcases hdeserted.sessions c hc with htorn | hstranded
      · exact .inl ⟨htorn.closed, htorn.deleted, htorn.front_closed, htorn.back_closed,
          htorn.callbacks⟩
      · exact .inr ⟨hstranded.alive, hstranded.opened, hnobody _, hstranded.silent⟩

/-- **Nobody is left behind.** In a run in which no log statement on a way to `Close` throws,
whenever the thread is about to destroy the reactor no handler is registered with it, and every
session that it has had has been torn down, once and completely, unless setting it up has failed.
When `Deactivate` has returned there is neither a thread nor a reactor. -/
theorem reactor_deserted {ts : List (Transition (State Creator) (Action Creator))}
    (hrun : IsRun Step .construct ts)
    (hlogs : ∀ t ∈ ts, Meets ReactorLoop.LogsPassing t.src t.label) :
    ∀ x ∈ states State.construct ts,
      (x.server.m_thread = some .resetReactor → ∀ m ∈ x.machine,
        (∀ s, targets m.reactor s = []) ∧
          ∀ c ∈ m.sessions, TornDown (c.world m.reactor) ∨
            ReactorLoop.Stranded (c.world m.reactor)) ∧
      ∀ result, x.server.controller = .deactivate (.returned result) →
        Server.Clean x.server ∧ x.machine = none := by
  intro x hx
  have hlinked := linked_run settled_keptBy hrun hlogs x hx
  refine ⟨fun hw m hm => linked_reset hlinked hw hm, fun result hreturned => ?_⟩
  have hserver := server_states
    (P := fun s => (Server.Wf s ∧ Server.Tidy s) ∧ Server.Joined s)
    (fun _ hus => invariant_states
      (I := fun s => (Server.Wf s ∧ Server.Tidy s) ∧ Server.Joined s)
      (fun _ _ _ h hstep => ⟨Server.tidy_step h.1 hstep, Server.joined_step h.2 hstep⟩)
      ⟨⟨Server.construct_wf, fun _ => rfl, fun _ => rfl⟩, fun _ _ => rfl⟩ hus) hrun x hx
  have hnone := hserver.2 result hreturned
  refine ⟨.of_thread hserver.1.1 hserver.1.2 hnone, hlinked.machine_none ?_ ?_ ?_⟩ <;>
    simp [hnone]

/-- `Deactivate` stops the reactor and waits. -/
def stopping : List (Action Unit) := serving ++
  .server .callDeactivate :: List.replicate 4 (.server .controller)

/-- The broadcast closes both sessions, and the thread resets the acceptor. -/
def deserting : List (Action Unit) := stopping ++ .reactor .shutdown ::
  ReactorLoop.drainLabels.map Action.reactor ++ List.replicate 2 (.server .worker)

theorem allowed_deserting : Allowed Admissible step State.construct deserting := by
  decide +kernel

theorem logsPassing_deserting : ∀ t ∈ unroll step State.construct deserting,
    Meets ReactorLoop.LogsPassing t.src t.label := by
  decide +kernel

theorem reactor_deserted_deserting :
    (last State.construct (unroll step State.construct deserting)).server.m_thread
        = some .resetReactor ∧
      ∀ m ∈ (last State.construct (unroll step State.construct deserting)).machine,
        (∀ s, targets m.reactor s = []) ∧ ∀ c ∈ m.sessions, TornDown (c.world m.reactor) ∨
          ReactorLoop.Stranded (c.world m.reactor) :=
  have hw : (last State.construct (unroll step State.construct deserting)).server.m_thread
      = some .resetReactor := by decide +kernel
  ⟨hw, (reactor_deserted (isRun_unroll allowed_deserting) logsPassing_deserting _
    (last_mem_states _ _)).1 hw⟩

/-! ## The return of `Deactivate` -/

/-- The thread takes the step. -/
def isThreadStep : Action Creator → Bool
  | .server .worker => true
  | .server .workerThrows => true
  | .listen _ => true
  | .reactor l => ReactorLoop.isReactorStep l
  | _ => false

/-- How far the thread is from its end. -/
def rank : Worker → ℕ
  | .setRunning => 14
  | .log => 13
  | .makeTimeout => 12
  | .makeBackAddress => 11
  | .makeReactor => 10
  | .makeServerSocket => 9
  | .makeAcceptor => 8
  | .run => 7
  | .logError => 6
  | .resetAcceptor => 5
  | .resetReactor => 4
  | .resetServerSocket => 3
  | .logEnd => 2
  | .clearRunning => 1
  | .finished => 0

/-- How far the reactor is from its end: it has not been shut down, or so much is left of the
broadcast. -/
def pending (m : Machine) : ℕ ×ₗ ℕ ×ₗ ℕ ×ₗ ℕ :=
  toLex ((!m.shuttingDown).toNat, ReactorLoop.left m)

/-- How far both are. -/
def remaining (s : State Creator) : ℕ ×ₗ ℕ ×ₗ ℕ ×ₗ ℕ ×ₗ ℕ :=
  toLex ((s.server.m_thread.map rank).getD 0,
    (s.machine.map pending).getD (toLex (0, toLex (0, toLex (0, 0)))))

theorem rank_stepWorker {s s' : CPOCOProxyServer Creator} {w : Worker}
    (hstep : s.stepWorker w = some s') (hstopped : w = .run → s.m_reactor = some ⟨true⟩) :
    ∃ w', s'.m_thread = some w' ∧ rank w' < rank w := by
  cases w <;>
    simp only [CPOCOProxyServer.stepWorker, Option.some.injEq, reduceCtorEq] at hstep
  case run =>
    rw [if_pos (hstopped rfl)] at hstep
    subst hstep
    exact ⟨_, rfl, by decide⟩
  all_goals
    subst hstep
    exact ⟨_, rfl, by decide⟩

theorem rank_stepThrows {s s' : CPOCOProxyServer Creator} {w : Worker}
    (hstep : s.stepThrows w = some s') : ∃ w', s'.m_thread = some w' ∧ rank w' < rank w := by
  obtain ⟨rfl, -, -⟩ := Server.stepThrows_catch hstep
  refine ⟨.logError, rfl, ?_⟩
  cases w <;> first | decide | cases hstep

/-- **A stopped reactor has less left** after each of its steps, and as much after others. -/
theorem pending_step {m : Machine} {l : Label} (hsafe : m.Safe) (hstop : m.stop = true)
    (hstep : ReactorLoop.Step m l (ReactorLoop.step m l))
    (hl : ReactorLoop.isReactorStep l = true) : pending (ReactorLoop.step m l) < pending m := by
  by_cases hopens : ReactorLoop.opensRound l = true
  · -- a round that opens is the last one
    cases l with
    | shutdown =>
        have hnot : m.shuttingDown = false := hstep.1.1.2.2
        refine Prod.Lex.toLex_lt_toLex.mpr (.inl ?_)
        rw [hnot]
        exact Nat.one_pos
    | poll result =>
        have hgoing : m.stop = false := hstep.1.2.1
        rw [hstop] at hgoing
        cases hgoing
    | idle =>
        have hgoing : m.stop = false := hstep.1.2.1
        rw [hstop] at hgoing
        cases hgoing
    | _ => cases hopens
  · rw [Bool.not_eq_true] at hopens
    have hne : l ≠ .shutdown := by
      rintro rfl
      cases hopens
    rcases ReactorLoop.left_step hsafe hstep hopens with ⟨hfalse, -⟩ | hlt
    · rw [hl] at hfalse
      cases hfalse
    · refine Prod.Lex.toLex_lt_toLex.mpr (.inr ⟨?_, hlt⟩)
      rw [(ReactorLoop.flags_step m l).2 hne]

theorem pending_peer {m : Machine} {l : Label} (hl : ReactorLoop.isReactorStep l = false)
    (hstop : l ≠ .stop) : pending (ReactorLoop.step m l) = pending m := by
  obtain ⟨-, ⟨htasks, hobs⟩, -⟩ := peer_step (m := m) hl hstop
  have hne : l ≠ .shutdown := by
    rintro rfl
    cases hl
  rw [pending, pending, (ReactorLoop.flags_step m l).2 hne, ReactorLoop.left, ReactorLoop.left,
    htasks, hobs]

/-- `Deactivate` waits for a thread that goes to its end. -/
structure Waits (s : State Creator) : Prop where
  wf : Server.Wf s.server
  linked : Linked Machine.Safe s
  join : s.server.controller = .deactivate .join
  thread : s.server.m_thread.isSome = true
  stopped : Server.At Worker.entersRun s.server → s.server.m_reactor = some ⟨true⟩

theorem safe_keptBy : KeptBy (fun _ _ => True) Machine.Safe where
  listening := ReactorLoop.listening_safe
  step _ _ _ h hstep _ := ReactorLoop.safe_step h hstep.1
  peer _ _ _ := trivial

/-- The wait goes on over a statement of the thread. -/
theorem Waits.threadStep {s s' : State Creator} (h : Waits s) (hlinked : Linked Machine.Safe s')
    (hstep : Server.ThreadStep s.server s'.server) {w w' : Worker}
    (hw : s.server.m_thread = some w) (hw' : s'.server.m_thread = some w')
    (hrank : rank w' < rank w) : Waits s' ∧ remaining s' < remaining s := by
  refine ⟨⟨hstep.wf h.wf, hlinked, hstep.controller.trans h.join, by rw [hw']; rfl, ?_⟩, ?_⟩
  · intro henters
    have hstopped := h.stopped (hstep.entersRun henters)
    have hnot : ¬ Server.At Worker.beforeReactor s.server := by
      intro hbefore
      rw [Server.reactor_none_of_before h.wf hbefore] at hstopped
      cases hstopped
    rw [hstep.reactor henters hnot]
    exact hstopped
  · refine Prod.Lex.toLex_lt_toLex.mpr (.inl ?_)
    rw [hw, hw']
    exact hrank

/-- **The step lemma**: while the thread has not ended, it takes finitely many steps. -/
theorem waits_step {s s' : State Creator} {a : Action Creator} (h : Waits s)
    (hnot : s.server.m_thread ≠ some .finished) (hstep : Step s a s') :
    Waits s' ∧ (isThreadStep a = false ∧ remaining s' = remaining s ∨
      remaining s' < remaining s) := by
  have hlinked := linked_step safe_keptBy h.wf h.linked hstep (meets_true s a)
  have hrun : ∀ w, s.server.m_thread = some w → w = .run → s.server.m_reactor = some ⟨true⟩ := by
    rintro w hw rfl
    exact h.stopped (by rw [Server.At, hw]; rfl)
  cases step_cases hstep with
  | listen sockfd hw hserver hmachine =>
      have hworker : s.server.stepWorker .makeAcceptor = some s'.server := by
        rw [hserver]
        rfl
      obtain ⟨w', hw', hrank⟩ := rank_stepWorker hworker (hrun _ hw)
      exact (h.threadStep hlinked (Server.threadStep_of_worker hw hworker) hw hw' hrank).imp_right
        .inr
  | server b hserver htakes hmachine =>
      cases b with
      | callActivate args =>
          have hidle := (Server.callActivate_step hserver).1
          rw [h.join] at hidle
          cases hidle
      | callDeactivate =>
          have hidle := (Server.callDeactivate_step hserver).1
          rw [h.join] at hidle
          cases hidle
      | controller =>
          -- `join` returns when the thread has ended
          unfold Server.Step Server.step CPOCOProxyServer.stepController at hserver
          rw [h.join] at hserver
          exact absurd (Server.join_eq_some hserver).1 hnot
      | worker =>
          obtain ⟨w, hw, hs⟩ := Option.bind_eq_some_iff.mp hserver
          obtain ⟨w', hw', hrank⟩ := rank_stepWorker hs (hrun _ hw)
          exact (h.threadStep hlinked (Server.threadStep_of_worker hw hs) hw hw' hrank).imp_right
            .inr
      | workerThrows =>
          obtain ⟨w, hw, hs⟩ := Option.bind_eq_some_iff.mp hserver
          obtain ⟨w', hw', hrank⟩ := rank_stepThrows hs
          exact (h.threadStep hlinked (Server.threadStep_of_throws hw hs) hw hw' hrank).imp_right
            .inr
  | reactor l m hm hl hreactor hpoco hserver hmachine =>
      refine ⟨⟨hserver ▸ h.wf, hlinked, hserver ▸ h.join, hserver ▸ h.thread, ?_⟩, ?_⟩
      · rw [hserver]
        exact h.stopped
      · unfold remaining
        rw [hserver, hm, hmachine, Option.map_some, Option.map_some, Option.getD_some,
          Option.getD_some]
        by_cases hthread : ReactorLoop.isReactorStep l = true
        · right
          obtain ⟨m', hm', hsafe, hflag⟩ := h.linked.at_run (hreactor hthread)
          obtain rfl := Option.some.inj (hm'.symm.trans hm)
          have hstop : m'.stop = true := by
            rw [hrun _ (hreactor hthread) rfl] at hflag
            exact (congrArg Server.Reactor.stop (Option.some.inj hflag)).symm
          exact Prod.Lex.toLex_lt_toLex.mpr
            (.inr ⟨rfl, pending_step hsafe hstop hpoco.1 hthread⟩)
        · rw [Bool.not_eq_true] at hthread
          exact .inl ⟨hthread, by rw [pending_peer hthread hl]⟩

/-- **The thread is never stuck.** -/
theorem Waits.goes_on {s : State Creator} (h : Waits s)
    (hnot : s.server.m_thread ≠ some .finished) :
    ∃ a s', isThreadStep a = true ∧ (∀ c, a ≠ .reactor (.accept (some c))) ∧ Step s a s' := by
  obtain ⟨w, hw⟩ := Option.isSome_iff_exists.mp h.thread
  have hworker : (Server.step s.server .worker).isSome = true → w ≠ .makeAcceptor → w ≠ .run →
      ∃ a s', isThreadStep a = true ∧ (∀ c, a ≠ .reactor (.accept (some c))) ∧ Step s a s' := by
    intro hsome hacceptor hrun
    refine ⟨.server .worker, _, rfl, by simp, ⟨hsome, ?_, fun hrun' => ?_⟩, rfl⟩
    · rw [hw]
      simpa using hacceptor
    · rw [hw, Option.some.injEq] at hrun'
      exact absurd hrun' hrun
  cases w with
  | finished => exact absurd hw hnot
  | makeAcceptor => exact ⟨.listen 0, _, rfl, by simp, hw, rfl⟩
  | run =>
      obtain ⟨m, hm, hsafe, hflag⟩ := h.linked.at_run hw
      have hstopped := h.stopped (by rw [Server.At, hw]; rfl)
      have hstop : m.stop = true := by
        rw [hstopped] at hflag
        exact (congrArg Server.Reactor.stop (Option.some.inj hflag)).symm
      by_cases hfinished : ReactorLoop.Finished m
      · cases hshutting : m.shuttingDown with
        | true =>
            refine ⟨.server .worker, _, rfl, by simp,
              ⟨?_, ?_, fun _ => ⟨m, hm, hshutting, hfinished⟩⟩, rfl⟩
            · rw [Server.step, hw]
              rfl
            · rw [hw]
              simp
        | false =>
            exact ⟨.reactor .shutdown, _, rfl, by simp, ⟨rfl, fun _ => hw, m, hm,
              ⟨⟨hfinished.1, hfinished.2, hshutting⟩, hstop⟩, trivial⟩, rfl⟩
      · obtain ⟨l, m', hl, -, hnew, hpoco⟩ := ReactorLoop.round_goes_on hsafe hfinished
        refine ⟨.reactor l, _, hl, ?_, ⟨?_, fun _ => hw, m, hm, hpoco.1.1, hpoco.2⟩, rfl⟩
        · intro c heq
          exact hnew c (Action.reactor.inj heq)
        · cases l <;> first | rfl | cases hl
  | _ =>
      refine hworker ?_ (by decide) (by decide)
      rw [Server.step, hw]
      rfl

/-- When the thread has ended, `join` is all that can happen. -/
theorem step_of_finished {s s' : State Creator} {a : Action Creator} (h : Waits s)
    (hfinished : s.server.m_thread = some .finished) (hstep : Step s a s') :
    s'.server.controller = .deactivate (.returned true) := by
  have hnone : s.machine = none := by
    apply h.linked.machine_none <;> simp [hfinished]
  cases step_cases hstep with
  | listen sockfd hw hserver hmachine => cases hw.symm.trans hfinished
  | reactor l m hm hl hreactor hpoco hserver hmachine =>
      rw [hnone] at hm
      cases hm
  | server b hserver htakes hmachine =>
      cases b with
      | callActivate args =>
          have hidle := (Server.callActivate_step hserver).1
          rw [h.join] at hidle
          cases hidle
      | callDeactivate =>
          have hidle := (Server.callDeactivate_step hserver).1
          rw [h.join] at hidle
          cases hidle
      | worker =>
          obtain ⟨w, hw, hs⟩ := Option.bind_eq_some_iff.mp hserver
          obtain rfl := Option.some.inj (hw.symm.trans hfinished)
          cases hs
      | workerThrows =>
          obtain ⟨w, hw, hs⟩ := Option.bind_eq_some_iff.mp hserver
          obtain rfl := Option.some.inj (hw.symm.trans hfinished)
          cases hs
      | controller =>
          unfold Server.Step Server.step CPOCOProxyServer.stepController at hserver
          rw [h.join] at hserver
          obtain ⟨-, heq⟩ := Server.join_eq_some hserver
          rw [heq]

/-- The thread that `Deactivate` joins is there. -/
def JoinsThread (s : CPOCOProxyServer Creator) : Prop :=
  s.controller = .deactivate .join → s.m_thread.isSome = true

theorem joinsThread_step {s s' : CPOCOProxyServer Creator} {a : Server.Action Creator}
    (hstep : Server.Step s a s') : JoinsThread s' := by
  intro hjoin
  cases a with
  | callActivate args =>
      obtain ⟨-, rfl⟩ := Server.callActivate_step hstep
      cases hjoin
  | callDeactivate =>
      obtain ⟨-, rfl⟩ := Server.callDeactivate_step hstep
      cases hjoin
  | worker => exact Server.isSome_of_worker hstep (.inl rfl)
  | workerThrows => exact Server.isSome_of_worker hstep (.inr rfl)
  | controller =>
      rcases Server.step_cases hstep with ⟨next, -, rfl, hnext⟩ | ⟨-, pc, args, -, hs⟩ |
        ⟨-, pc, -, hs⟩ | ⟨hne, -⟩
      · rcases hnext with ⟨args, rfl⟩ | rfl <;> cases hjoin
      · rcases Server.stepActivate_controller hs with hidle | ⟨pc', hact⟩
        · rw [hidle] at hjoin
          cases hjoin
        · rw [hact] at hjoin
          cases hjoin
      · cases pc with
        | testJoinable =>
            simp only [CPOCOProxyServer.stepDeactivate] at hs
            split at hs
            · next hsome =>
                cases hs
                exact hsome
            · cases hs
              cases hjoin
        | testReactor =>
            simp only [CPOCOProxyServer.stepDeactivate] at hs
            split at hs <;> cases hs <;> cases hjoin
        | join =>
            obtain ⟨-, rfl⟩ := Server.join_eq_some hs
            cases hjoin
        | _ =>
            cases hs
            cases hjoin
      · exact absurd rfl hne

/-- When the thread has ended, `join` can go on. -/
theorem Waits.join_goes_on {s : State Creator} (h : Waits s)
    (hfinished : s.server.m_thread = some .finished) : ∃ a s', Step s a s' := by
  refine ⟨.server .controller, _, ⟨?_, trivial⟩, rfl⟩
  rw [Server.step, CPOCOProxyServer.stepController, h.join]
  unfold CPOCOProxyServer.stepDeactivate CPOCOProxyServer.join
  rw [hfinished]
  rfl

theorem allowed_stopping : Allowed Admissible step State.construct stopping := by
  decide +kernel

end PocoProxy.Proxy
