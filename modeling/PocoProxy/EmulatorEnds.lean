/-
The program ends.

Closing the dialog calls `Deactivate` in `OnDestroy`, and once more in the destructor of the
server. The first call stops the reactor and waits for the thread; the second one finds nothing
to do. `toEnd` says how much is left, and in each state it is up to one of two parties, the
dialog and the thread, to make it less (`closing_step`). Neither is ever stuck
(`Closing.goes_on`), and if both go on the program comes to its end (`emulator_ends`), where
nothing happens any more.
-/
import PocoProxy.EmulatorRuns

set_option autoImplicit false

namespace PocoProxy.Emulator

open PocoProxy.Session PocoProxy.Runs
open PocoProxy.Server (CPOCOProxyServer Arguments DeactivatePc)

/-! ## What is left -/

def Phase.rank : Phase → ℕ
  | .shown => 3
  | .destroyed => 2
  | .deleted => 1
  | .ended => 0

/-- How far a `Deactivate` is from its return. -/
def pcRank : DeactivatePc → ℕ
  | .log => 6
  | .testReactor => 5
  | .stop => 4
  | .testJoinable => 3
  | .join => 2
  | .returned _ => 1

def controllerRank : Server.Controller ServiceKind → ℕ
  | .deactivate pc => pcRank pc
  | _ => 0

/-- `Deactivate` waits for the thread. -/
def State.Joining (x : State) : Prop := x.proxy.server.controller = .deactivate .join

instance (x : State) : Decidable x.Joining := inferInstanceAs (Decidable (_ = _))

/-- How much there is left: the thread counts while it is waited for. -/
def toEnd (x : State) : ℕ ×ₗ ℕ ×ₗ ℕ ×ₗ ℕ ×ₗ ℕ ×ₗ ℕ ×ₗ ℕ :=
  toLex (x.phase.rank, toLex (controllerRank x.proxy.server.controller,
    if x.Joining then Proxy.remaining x.proxy else toLex (0, toLex (0, toLex (0, toLex (0, 0))))))

/-- Who takes a step. -/
inductive Party where
  | dialog
  | thread
  deriving DecidableEq, Repr

def takenBy : Party → Action → Bool
  | .dialog, .leave => true
  | .dialog, .proxy (.server .controller) => true
  | .thread, .proxy a => Proxy.isThreadStep a
  | _, _ => false

/-- Whose turn it is. -/
def State.turn (x : State) : Party :=
  if x.Joining ∧ x.proxy.server.m_thread ≠ some .finished then .thread else .dialog

/-- The dialog has been closed, and no request to stop is lost. -/
structure Closing (x : State) (latest : Option (Arguments ServiceKind)) : Prop where
  tied : Tied x latest
  closed : x.phase ≠ .shown
  kept : ¬ Server.Lost x.proxy.server

namespace Closing

variable {x : State} {latest : Option (Arguments ServiceKind)}

theorem follows (h : Closing x latest) : Follows false latest x.proxy.server := by
  have hwanted : x.wanted = false := by simp [State.wanted, h.closed]
  rw [← hwanted]
  exact h.tied.follows

/-- When the dialog waits, there is neither a thread nor a reactor. -/
theorem nothing_left (h : Closing x latest) (hidle : x.Waiting) :
    x.proxy.server.m_thread = none ∧ x.proxy.machine = none := by
  have hcontrolled := h.follows.controlled
  rw [Controlled, show x.proxy.server.controller = .idle from hidle] at hcontrolled
  have hnone : x.proxy.server.m_thread = none :=
    Option.not_isSome_iff_eq_none.mp (by simp [hcontrolled])
  exact ⟨hnone, (h.tied.clean hnone).2⟩

/-- `Activate` is not called any more. -/
theorem controller_cases (h : Closing x latest) :
    x.Waiting ∨ ∃ pc, x.proxy.server.controller = .deactivate pc := by
  have hcontrolled := h.follows.controlled
  rw [Controlled] at hcontrolled
  cases hc : x.proxy.server.controller with
  | idle => exact .inl hc
  | deactivate pc => exact .inr ⟨pc, rfl⟩
  | activate pc a =>
      rw [hc] at hcontrolled
      cases hcontrolled.1

/-- The wait for the thread is one that ends. -/
theorem waits (h : Closing x latest) (hjoin : x.Joining) : Proxy.Waits x.proxy where
  wf := h.follows.wf
  linked := h.tied.linked.imp fun _ hm => hm.safe
  join := hjoin
  thread := h.follows.joins hjoin
  stopped henters := by
    by_contra hne
    exact h.kept ⟨hjoin, henters, hne⟩

end Closing

/-! ## The step -/

/-- A statement of `Deactivate`. -/
theorem rank_stepDeactivate {s s' : CPOCOProxyServer ServiceKind} {pc : DeactivatePc}
    (hstep : s.stepDeactivate pc = some s') :
    controllerRank s'.controller < pcRank pc := by
  cases pc with
  | join =>
      obtain ⟨-, rfl⟩ := Server.join_eq_some hstep
      simp [controllerRank, pcRank]
  | testReactor =>
      rw [CPOCOProxyServer.stepDeactivate] at hstep
      split at hstep <;> cases hstep <;> simp [controllerRank, pcRank]
  | testJoinable =>
      rw [CPOCOProxyServer.stepDeactivate] at hstep
      split at hstep <;> cases hstep <;> simp [controllerRank, pcRank]
  | _ =>
      cases hstep
      simp [controllerRank, pcRank]

/-- Outside of `join`, `Deactivate` has a next statement. -/
theorem stepDeactivate_isSome {s : CPOCOProxyServer ServiceKind} {pc : DeactivatePc}
    (hpc : pc = .join → s.m_thread = some .finished) : (s.stepDeactivate pc).isSome = true := by
  cases pc with
  | join => rw [CPOCOProxyServer.stepDeactivate, CPOCOProxyServer.join, hpc rfl]; rfl
  | testReactor => rw [CPOCOProxyServer.stepDeactivate]; split <;> rfl
  | testJoinable => rw [CPOCOProxyServer.stepDeactivate]; split <;> rfl
  | _ => rfl

/-- What makes less left. -/
theorem toEnd_lt {x x' : State}
    (h : x'.phase.rank < x.phase.rank ∨ x'.phase = x.phase ∧
      controllerRank x'.proxy.server.controller < controllerRank x.proxy.server.controller) :
    toEnd x' < toEnd x := by
  rcases h with hphase | ⟨hphase, hcontroller⟩
  · exact Prod.Lex.toLex_lt_toLex.mpr (.inl hphase)
  · exact Prod.Lex.toLex_lt_toLex.mpr
      (.inr ⟨congrArg Phase.rank hphase, Prod.Lex.toLex_lt_toLex.mpr (.inl hcontroller)⟩)

/-- A step is one in the proxy, or the dialog goes on to what comes next. -/
theorem closed_step {mfc : Mfc} {x x' : State} {a : Action} (hclosed : x.phase ≠ .shown)
    (hstep : Step mfc x a x') :
    (a = .leave ∧ x'.phase ≠ .shown ∧ x'.phase.rank < x.phase.rank) ∨
      ∃ b, a = .proxy b ∧ isCall b = false ∧ Proxy.Step x.proxy b x'.proxy ∧
        x'.phase = x.phase := by
  obtain ⟨hadm, rfl⟩ := hstep
  cases a with
  | leave =>
      left
      rcases hadm.1 with hphase | hphase
      · have hnext : (step mfc x .leave).phase = .deleted := by
          rw [step, hphase]
          rfl
        rw [hnext, hphase]
        exact ⟨rfl, by decide, by decide⟩
      · have hnext : (step mfc x .leave).phase = .ended := by rw [step, hphase]
        rw [hnext, hphase]
        exact ⟨rfl, by decide, by decide⟩
  | proxy b => exact .inr ⟨b, rfl, hadm.1, ⟨hadm.2.1, rfl⟩, rfl⟩
  | _ => exact absurd hadm.1 hclosed

/-- A step of the proxy that is no statement of `Deactivate` leaves the controller where it is;
and what the thread does not do leaves the thread where it is. -/
theorem others_step {p p' : Proxy.State ServiceKind} {b : Proxy.Action ServiceKind}
    (hcall : isCall b = false) (hb : b ≠ .server .controller) (hstep : Proxy.Step p b p') :
    p'.server.controller = p.server.controller ∧
      (Proxy.isThreadStep b = false → p'.server.m_thread = p.server.m_thread) := by
  cases Proxy.step_cases hstep with
  | server c hserver htakes hmachine =>
      cases c with
      | callActivate args => cases hcall
      | callDeactivate => cases hcall
      | controller => exact absurd rfl hb
      | worker =>
          obtain ⟨w, hw, hs⟩ := Option.bind_eq_some_iff.mp hserver
          exact ⟨(Server.threadStep_of_worker hw hs).controller, fun h => by cases h⟩
      | workerThrows =>
          obtain ⟨w, hw, hs⟩ := Option.bind_eq_some_iff.mp hserver
          exact ⟨(Server.threadStep_of_throws hw hs).controller, fun h => by cases h⟩
  | listen sockfd hw hserver hmachine =>
      rw [hserver]
      exact ⟨rfl, fun h => by cases h⟩
  | reactor l m hm hl hrun hpoco hserver hmachine =>
      rw [hserver]
      exact ⟨rfl, fun _ => rfl⟩

/-- A statement of `Deactivate`, in the proxy. -/
theorem controller_step {p p' : Proxy.State ServiceKind} {pc : DeactivatePc}
    (hc : p.server.controller = .deactivate pc)
    (hstep : Proxy.Step p (.server .controller) p') :
    p.server.stepDeactivate pc = some p'.server := by
  have hserver := server_step hstep
  unfold Server.Step Server.step CPOCOProxyServer.stepController at hserver
  rw [hc] at hserver
  exact hserver

/-- When the dialog waits after it has been closed, nothing happens in the proxy. -/
theorem Closing.quiet {x : State} {latest : Option (Arguments ServiceKind)} (h : Closing x latest)
    (hidle : x.Waiting) {b : Proxy.Action ServiceKind} {p : Proxy.State ServiceKind}
    (hcall : isCall b = false) : ¬ Proxy.Step x.proxy b p := by
  intro hb
  obtain ⟨hnone, hmachine⟩ := h.nothing_left hidle
  cases Proxy.step_cases hb with
  | server c hserver htakes _ =>
      unfold Server.Step Server.step at hserver
      cases c with
      | callActivate args => cases hcall
      | callDeactivate => cases hcall
      | controller =>
          rw [CPOCOProxyServer.stepController,
            show x.proxy.server.controller = .idle from hidle] at hserver
          cases hserver
      | worker =>
          rw [hnone] at hserver
          cases hserver
      | workerThrows =>
          rw [hnone] at hserver
          cases hserver
  | listen sockfd hw hserver _ =>
      rw [hnone] at hw
      cases hw
  | reactor l m hm hl hrun hpoco hserver _ =>
      rw [hmachine] at hm
      cases hm

/-- **The step lemma**: it is somebody's turn, and who takes it makes less of what is left. -/
theorem closing_step {mfc : Mfc} {x x' : State} {a : Action}
    {latest : Option (Arguments ServiceKind)} (h : Closing x latest) (hstep : Step mfc x a x') :
    toEnd x' < toEnd x ∨
      takenBy x.turn a = false ∧ toEnd x' = toEnd x ∧ x'.turn = x.turn := by
  rcases closed_step h.closed hstep with ⟨-, -, hrank⟩ | ⟨b, rfl, hcall, hb, hphase⟩
  · exact .inl (toEnd_lt (.inl hrank))
  · rcases h.controller_cases with hidle | ⟨pc, hc⟩
    · exact absurd hb (h.quiet hidle hcall)
    · by_cases hcontroller : b = .server .controller
      · subst hcontroller
        refine .inl (toEnd_lt (.inr ⟨hphase, ?_⟩))
        rw [hc]
        exact rank_stepDeactivate (controller_step hc hb)
      · obtain ⟨hsame, hthread⟩ := others_step hcall hcontroller hb
        have hjoining : x'.Joining ↔ x.Joining := by rw [State.Joining, State.Joining, hsame]
        by_cases hjoin : x.Joining
        · -- it is the thread's turn
          have hwaits := h.waits hjoin
          have hfinished : x.proxy.server.m_thread ≠ some .finished := by
            intro hfinished
            have hreturned := Proxy.step_of_finished hwaits hfinished hb
            rw [hsame, show x.proxy.server.controller = _ from hjoin] at hreturned
            cases hreturned
          rcases (Proxy.waits_step hwaits hfinished hb).2 with ⟨hnot, hremaining⟩ | hless
          · refine .inr ⟨?_, ?_, ?_⟩
            · rw [State.turn, if_pos ⟨hjoin, hfinished⟩]
              exact hnot
            · rw [toEnd, toEnd, hphase, hsame, if_pos hjoin, if_pos (hjoining.mpr hjoin),
                hremaining]
            · simp only [State.turn, hjoining, hthread hnot]
          · left
            refine Prod.Lex.toLex_lt_toLex.mpr (.inr ⟨congrArg Phase.rank hphase, ?_⟩)
            refine Prod.Lex.toLex_lt_toLex.mpr (.inr ⟨congrArg controllerRank hsame, ?_⟩)
            rw [if_pos hjoin, if_pos (hjoining.mpr hjoin)]
            exact hless
        · -- it is the dialog's turn
          have hjoin' : ¬ x'.Joining := mt hjoining.mp hjoin
          have hturn : x.turn = .dialog := by rw [State.turn, if_neg fun hand => hjoin hand.1]
          have hturn' : x'.turn = .dialog := by rw [State.turn, if_neg fun hand => hjoin' hand.1]
          refine .inr ⟨?_, ?_, hturn'.trans hturn.symm⟩
          · rw [hturn]
            rcases b with (_ | _ | _ | _ | _) | _ | _ <;> first | rfl | exact absurd rfl hcontroller
          · rw [toEnd, toEnd, hphase, hsame, if_neg hjoin, if_neg hjoin']

/-- **Nobody is stuck**: whose turn it is can take it. -/
theorem Closing.goes_on {mfc : Mfc} {x : State} {latest : Option (Arguments ServiceKind)}
    (h : Closing x latest) (hne : x.phase ≠ .ended) :
    ∃ a x', takenBy x.turn a = true ∧ Step mfc x a x' := by
  rcases h.controller_cases with hidle | ⟨pc, hc⟩
  · -- the dialog goes on to what comes next
    have hturn : x.turn = .dialog := by
      refine if_neg fun hand => ?_
      rw [State.Joining, show x.proxy.server.controller = .idle from hidle] at hand
      cases hand.1
    refine ⟨.leave, _, by rw [hturn]; rfl, ⟨?_, hidle⟩, rfl⟩
    cases hphase : x.phase with
    | destroyed => exact .inl rfl
    | deleted => exact .inr rfl
    | shown => exact absurd hphase h.closed
    | ended => exact absurd hphase hne
  · by_cases hand : x.Joining ∧ x.proxy.server.m_thread ≠ some .finished
    · -- the thread goes on
      obtain ⟨b, p, hthread, hnew, hb⟩ := (h.waits hand.1).goes_on hand.2
      refine ⟨.proxy b, _, by rw [State.turn, if_pos hand]; exact hthread, ⟨?_, hb.1, ?_⟩, rfl⟩
      · rcases b with (_ | _ | _ | _ | _) | _ | _ <;> first | rfl | cases hthread
      · rcases b with _ | _ | l
        · trivial
        · trivial
        · rcases l with _ | _ | _ | _ | _ | _ | _ | (_ | c) | _ | _ | _ <;>
            first | trivial | exact absurd rfl (hnew c)
    · -- `Deactivate` goes on
      have hsome : (x.proxy.server.stepDeactivate pc).isSome = true := by
        apply stepDeactivate_isSome
        rintro rfl
        by_contra hfinished
        exact hand ⟨hc, hfinished⟩
      refine ⟨.proxy (.server .controller), _, ?_, ⟨rfl, ⟨?_, trivial⟩, trivial⟩, rfl⟩
      · rw [State.turn, if_neg hand]
        rfl
      · rw [Server.step, CPOCOProxyServer.stepController, hc]
        exact hsome

/-- At the end nothing happens any more. -/
theorem Closing.stuck {mfc : Mfc} {x x' : State} {a : Action}
    {latest : Option (Arguments ServiceKind)} (h : Closing x latest) (hended : x.phase = .ended)
    (hidle : x.Waiting) : ¬ Step mfc x a x' := by
  intro hstep
  rcases closed_step h.closed hstep with ⟨-, -, hrank⟩ | ⟨b, -, hcall, hb, -⟩
  · rw [hended] at hrank
    exact absurd hrank (Nat.not_lt_zero _)
  · exact h.quiet hidle hcall hb

/-- The dialog is closed while two sessions are served. -/
def closing : List Action := relaying ++ [.cancel]

theorem allowed_closing :
    Allowed Admissible (step decimalMfc) (.construct decimalMfc) closing := by
  decide +kernel

/-- `Deactivate` returns, and so does the second one, at once. -/
def ending : List Action := deactivating.map .proxy ++
  .leave :: List.replicate 4 (.proxy (.server .controller)) ++ [.leave]

/-- The state at the end of these. -/
def ended : State := last (after closing) (unroll (step decimalMfc) (after closing) ending)

theorem allowed_ending : Allowed Admissible (step decimalMfc) (after closing) ending := by
  decide +kernel

theorem isRun_ending : IsRun (Step decimalMfc) (.construct decimalMfc)
    (unroll (step decimalMfc) (.construct decimalMfc) (closing ++ ending)) := by
  have hallowed : Allowed Admissible (step decimalMfc) (.construct decimalMfc)
      (closing ++ ending) := by decide +kernel
  exact isRun_unroll hallowed

/-- The program has ended, and there is nothing left to do. -/
theorem stuck_ending (a : Action) : ¬ Admissible ended a := by
  have htied := tied_run isRun_ending
  rw [last_unroll_append] at htied
  have hclosing : Closing ended _ := ⟨htied, by decide +kernel, by decide +kernel⟩
  intro hadm
  have hstep : Step decimalMfc ended a (step decimalMfc ended a) := ⟨hadm, rfl⟩
  exact hclosing.stuck (by decide +kernel) (by decide +kernel) hstep

end PocoProxy.Emulator
