/-
What the program does for its user.

The box says whether `m_thread` is joinable, and while it is the server has the addresses that
stood in the dialog when the box was checked, as far as the exchange has got (`Follows`,
`Exchanged`): in the dialog's hands, `Activate` is always accepted, and it never has to wait for
an older thread. And through all of it, what a peer is sent has come from the other peer of its
session (`emulator_relays`).
-/
import PocoProxy.ByPass
import PocoProxy.Emulator
import PocoProxy.Lib.History

set_option autoImplicit false

namespace PocoProxy.Emulator

open PocoProxy.Socket PocoProxy.Session PocoProxy.Runs
open PocoProxy.CStrings (CString tchar tchars)
open PocoProxy.Server (CPOCOProxyServer Arguments ActivatePc)
open PocoProxy.ReactorLoop (Machine Label AllRelaying MakesByPass)

/-! ## The server in the dialog's hands -/

section

variable {Creator : Type}

/-- What `Activate` stores of its arguments. -/
def stores (a : Arguments Creator) : ℤ × String × ℤ × Option Creator :=
  (a.front_port, a.back_ip, a.back_port, some a.creator)

/-- An `Activate` that has found no thread, at each of its statements. -/
def Proceeds (a : Arguments Creator) (s : CPOCOProxyServer Creator) : ActivatePc → Prop
  | .log | .testRunning | .setFrontPort => s.m_thread = none
  | .setBackIp => s.m_thread = none ∧ s.m_front_port = a.front_port
  | .setBackPort =>
    s.m_thread = none ∧ s.m_front_port = a.front_port ∧ s.m_back_ip = a.back_ip
  | .setCreator => s.m_thread = none ∧
      s.m_front_port = a.front_port ∧ s.m_back_ip = a.back_ip ∧ s.m_back_port = a.back_port
  | .testJoinable | .startThread => s.m_thread = none ∧ Server.stored s = stores a
  | .join => False
  | .returned result => result = true ∧ s.m_thread.isSome = true

/-- Where the controller is. `wanted` says whether there is to be a thread, and `latest` what
the latest `Activate` has been called with. -/
def Controlled (wanted : Bool) (latest : Option (Arguments Creator))
    (s : CPOCOProxyServer Creator) : Prop :=
  match s.controller with
  | .idle => s.m_thread.isSome = wanted
  | .activate pc a => wanted = true ∧ latest = some a ∧ Proceeds a s pc
  | .deactivate _ => wanted = false

/-- A thread serves what the latest `Activate` has been called with. -/
def Serves (latest : Option (Arguments Creator)) (s : CPOCOProxyServer Creator) : Prop :=
  s.m_thread.isSome = true → ∃ a, latest = some a ∧ Server.stored s = stores a

/-- The server does what it is told. -/
structure Follows (wanted : Bool) (latest : Option (Arguments Creator))
    (s : CPOCOProxyServer Creator) : Prop where
  wf : Server.Wf s
  tidy : Server.Tidy s
  joined : Server.Joined s
  joins : Proxy.JoinsThread s
  controlled : Controlled wanted latest s
  serves : Serves latest s

theorem construct_follows :
    Follows false none (CPOCOProxyServer.construct : CPOCOProxyServer Creator) where
  wf := Server.construct_wf
  tidy := ⟨fun _ => rfl, fun _ => rfl⟩
  joined _ _ := rfl
  joins h := by cases h
  controlled := rfl
  serves h := by cases h

variable {wanted : Bool} {latest : Option (Arguments Creator)} {s s' : CPOCOProxyServer Creator}

theorem serves_of_none (hnone : s.m_thread = none) : Serves latest s := by
  intro hsome
  rw [hnone] at hsome
  cases hsome

/-- A statement of `Activate`. -/
theorem follows_activate (h : Follows wanted latest s) {pc : ActivatePc} {a : Arguments Creator}
    (hc : s.controller = .activate pc a) (hs : s.stepActivate a pc = some s') :
    Controlled wanted latest s' ∧ Serves latest s' := by
  have hcontrolled := h.controlled
  rw [Controlled, hc] at hcontrolled
  obtain ⟨hwanted, hlatest, hproceeds⟩ := hcontrolled
  cases pc with
  | join => cases hproceeds
  | returned result =>
      cases hs
      obtain ⟨-, hsome⟩ := hproceeds
      exact ⟨hsome.trans hwanted.symm, h.serves⟩
  | startThread =>
      cases hs
      exact ⟨⟨hwanted, hlatest, rfl, rfl⟩, fun _ => ⟨a, hlatest, hproceeds.2⟩⟩
  | testRunning =>
      -- no thread has marked itself
      have hnot : ¬ s.m_thread_running = true := by
        rw [h.wf.running, show s.m_thread = none from hproceeds]
        decide
      rw [CPOCOProxyServer.stepActivate, if_neg hnot, Option.some.injEq] at hs
      subst hs
      exact ⟨⟨hwanted, hlatest, hproceeds⟩, serves_of_none hproceeds⟩
  | testJoinable =>
      obtain ⟨hnone, hstored⟩ := hproceeds
      have hnot : ¬ s.m_thread.isSome = true := by
        rw [hnone]
        decide
      rw [CPOCOProxyServer.stepActivate, if_neg hnot, Option.some.injEq] at hs
      subst hs
      exact ⟨⟨hwanted, hlatest, hnone, hstored⟩, serves_of_none hnone⟩
  | log =>
      cases hs
      exact ⟨⟨hwanted, hlatest, hproceeds⟩, serves_of_none hproceeds⟩
  | setFrontPort =>
      cases hs
      exact ⟨⟨hwanted, hlatest, hproceeds, rfl⟩, serves_of_none hproceeds⟩
  | setBackIp =>
      cases hs
      obtain ⟨hnone, hport⟩ := hproceeds
      exact ⟨⟨hwanted, hlatest, hnone, hport, rfl⟩, serves_of_none hnone⟩
  | setBackPort =>
      cases hs
      obtain ⟨hnone, hport, hip⟩ := hproceeds
      exact ⟨⟨hwanted, hlatest, hnone, hport, hip, rfl⟩, serves_of_none hnone⟩
  | setCreator =>
      cases hs
      obtain ⟨hnone, hport, hip, hback⟩ := hproceeds
      refine ⟨⟨hwanted, hlatest, hnone, ?_⟩, serves_of_none hnone⟩
      rw [Server.stored, stores, hport, hip, hback]

/-- A statement of `Deactivate`. -/
theorem follows_deactivate (h : Follows wanted latest s) {pc : Server.DeactivatePc}
    (hc : s.controller = .deactivate pc) (hs : s.stepDeactivate pc = some s') :
    Controlled wanted latest s' ∧ Serves latest s' := by
  have hwanted : wanted = false := by
    have hcontrolled := h.controlled
    rwa [Controlled, hc] at hcontrolled
  cases pc with
  | returned result =>
      cases hs
      have hnone := h.joined result hc
      refine ⟨?_, serves_of_none hnone⟩
      change s.m_thread.isSome = wanted
      rw [hnone, hwanted]
      rfl
  | join =>
      obtain ⟨-, rfl⟩ := Server.join_eq_some hs
      exact ⟨hwanted, serves_of_none rfl⟩
  | testReactor =>
      rw [CPOCOProxyServer.stepDeactivate] at hs
      split at hs <;> cases hs <;> exact ⟨hwanted, h.serves⟩
  | testJoinable =>
      rw [CPOCOProxyServer.stepDeactivate] at hs
      split at hs <;> cases hs <;> exact ⟨hwanted, h.serves⟩
  | _ =>
      cases hs
      exact ⟨hwanted, h.serves⟩

/-- A statement of the thread. -/
theorem follows_worker (h : Follows wanted latest s) (hstep : Server.ThreadStep s s')
    (hsome : s'.m_thread.isSome = true) : Controlled wanted latest s' ∧ Serves latest s' := by
  have hbefore := hstep.exists_
  constructor
  · have hcontrolled := h.controlled
    rw [Controlled, hstep.controller]
    rw [Controlled] at hcontrolled
    cases hc : s.controller with
    | idle =>
        rw [hc] at hcontrolled
        exact hsome.trans (hbefore.symm.trans hcontrolled)
    | deactivate pc =>
        rw [hc] at hcontrolled
        exact hcontrolled
    | activate pc a =>
        rw [hc] at hcontrolled
        obtain ⟨hwanted, hlatest, hproceeds⟩ := hcontrolled
        refine ⟨hwanted, hlatest, ?_⟩
        -- there is a thread, so `Activate` has returned
        have hnot : ¬ s.m_thread = none := by
          intro hnone
          rw [hnone] at hbefore
          cases hbefore
        cases pc with
        | returned result => exact ⟨hproceeds.1, hsome⟩
        | join => cases hproceeds
        | log => exact absurd hproceeds hnot
        | testRunning => exact absurd hproceeds hnot
        | setFrontPort => exact absurd hproceeds hnot
        | _ => exact absurd hproceeds.1 hnot
  · intro _
    rw [hstep.stored]
    exact h.serves hbefore

/-- **The step lemma** for all that is not called by the dialog. -/
theorem follows_step (h : Follows wanted latest s) {a : Server.Action Creator}
    (hstep : Server.Step s a s') (hactivate : ∀ args, a ≠ .callActivate args)
    (hdeactivate : a ≠ .callDeactivate) : Follows wanted latest s' := by
  have hrest : Controlled wanted latest s' ∧ Serves latest s' := by
    cases a with
    | callActivate args => exact absurd rfl (hactivate args)
    | callDeactivate => exact absurd rfl hdeactivate
    | worker =>
        obtain ⟨w, hw, hs⟩ := Option.bind_eq_some_iff.mp hstep
        exact follows_worker h (Server.threadStep_of_worker hw hs)
          (Server.isSome_of_worker hstep (.inl rfl))
    | workerThrows =>
        obtain ⟨w, hw, hs⟩ := Option.bind_eq_some_iff.mp hstep
        exact follows_worker h (Server.threadStep_of_throws hw hs)
          (Server.isSome_of_worker hstep (.inr rfl))
    | controller =>
        rcases Server.step_cases hstep with ⟨next, hidle, -, -⟩ | ⟨-, pc, args, hc, hs⟩ |
          ⟨-, pc, hc, hs⟩ | ⟨hne, -⟩
        · unfold Server.Step Server.step CPOCOProxyServer.stepController at hstep
          rw [hidle] at hstep
          cases hstep
        · exact follows_activate h hc hs
        · exact follows_deactivate h hc hs
        · exact absurd rfl hne
  obtain ⟨hwf, htidy⟩ := Server.tidy_step ⟨h.wf, h.tidy⟩ hstep
  exact ⟨hwf, htidy, Server.joined_step h.joined hstep, Proxy.joinsThread_step hstep, hrest.1,
    hrest.2⟩

/-- `Activate` is called where there is to be no thread yet. -/
theorem follows_callActivate (h : Follows false latest s) {a : Arguments Creator}
    (hstep : Server.Step s (.callActivate a) s') : Follows true (some a) s' := by
  obtain ⟨hidle, heq⟩ := Server.callActivate_step hstep
  have hnone : s.m_thread = none := by
    have hcontrolled := h.controlled
    rw [Controlled, hidle] at hcontrolled
    exact Option.not_isSome_iff_eq_none.mp (by simp [hcontrolled])
  obtain ⟨hwf, htidy⟩ := Server.tidy_step ⟨h.wf, h.tidy⟩ hstep
  refine ⟨hwf, htidy, Server.joined_step h.joined hstep, Proxy.joinsThread_step hstep, ?_, ?_⟩
  · rw [heq]
    exact ⟨rfl, rfl, hnone⟩
  · rw [heq]
    exact serves_of_none hnone

theorem follows_callDeactivate (h : Follows wanted latest s)
    (hstep : Server.Step s .callDeactivate s') : Follows false latest s' := by
  obtain ⟨-, heq⟩ := Server.callDeactivate_step hstep
  obtain ⟨hwf, htidy⟩ := Server.tidy_step ⟨h.wf, h.tidy⟩ hstep
  refine ⟨hwf, htidy, Server.joined_step h.joined hstep, Proxy.joinsThread_step hstep, ?_, ?_⟩
  · rw [heq]
    rfl
  · rw [heq]
    exact h.serves

end

/-! ## The program -/

/-- There is to be a thread: the dialog is there, and its box is checked. -/
def State.wanted (s : State) : Bool := decide (s.phase = .shown) && s.controls.active

section

variable (mfc : Mfc)

/-- A click that checks the box. -/
def Checks (t : Transition State Action) : Prop :=
  t.label = .click ∧ t.dst.controls.active = true

/-- It is noted, with what the members are then. -/
def noteClick (latest : Option (Arguments ServiceKind)) (t : Transition State Action) :
    Option (Arguments ServiceKind) :=
  match t.label with
  | .click => if t.dst.controls.active then some (t.dst.members.arguments mfc) else latest
  | _ => latest

/-- What the members were when the box had been checked for the last time. -/
def lastChecked (ts : List (Transition State Action)) : Option (Arguments ServiceKind) :=
  noted (noteClick mfc) none ts

end

theorem noteClick_of_ne {mfc : Mfc} {latest : Option (Arguments ServiceKind)}
    {t : Transition State Action} (hclick : t.label = .click → t.dst.controls.active = false) :
    noteClick mfc latest t = latest := by
  unfold noteClick
  split
  · next heq => rw [if_neg (by simp [hclick heq])]
  · rfl

theorem noteClick_of_checks {mfc : Mfc} {latest : Option (Arguments ServiceKind)}
    {t : Transition State Action} (h : Checks t) :
    noteClick mfc latest t = some (t.dst.members.arguments mfc) := by
  rw [noteClick, h.1]
  exact if_pos h.2

theorem noteClick_of_not_checks {mfc : Mfc} {latest : Option (Arguments ServiceKind)}
    {t : Transition State Action} (h : ¬ Checks t) : noteClick mfc latest t = latest :=
  noteClick_of_ne fun hclick => Bool.eq_false_iff.mpr fun hactive => h ⟨hclick, hactive⟩

/-- What `Activate` is called with after an exchange: the front port, the address and the back
port in the controls, up to the first port that is no number, and the members behind that. -/
structure Exchanged (mfc : Mfc) (m : Members) (text : Edit → CString)
    (a : Arguments ServiceKind) : Prop where
  front_port : a.front_port = (mfc.toInt (text .frontPort)).getD m.m_front_port
  back_ip : a.back_ip =
    mfc.toAnsi (if (mfc.toInt (text .frontPort)).isSome then text .backIp else m.m_back_ip)
  back_port : a.back_port =
    if (mfc.toInt (text .frontPort)).isSome then
      (mfc.toInt (text .backPort)).getD m.m_back_port
    else m.m_back_port
  creator : a.creator = .byPass

theorem exchanged_update (mfc : Mfc) (m : Members) (c : Controls) :
    Exchanged mfc m c.text ((m.update mfc c).1.arguments mfc) := by
  unfold Members.update
  cases hfront : mfc.toInt (c.text .frontPort) with
  | none => constructor <;> simp [hfront, Members.arguments]
  | some front_port =>
      cases hback : mfc.toInt (c.text .backPort) with
      | none => constructor <;> simp [hfront, hback, Members.arguments]
      | some back_port => constructor <;> simp [hfront, hback, Members.arguments]

/-- The click takes them out of the controls. -/
theorem exchanged_of_checks {mfc : Mfc} {t : Transition State Action} (hchecks : Checks t)
    (hstep : Step mfc t.src t.label t.dst) :
    Exchanged mfc t.src.members t.src.controls.text (t.dst.members.arguments mfc) := by
  obtain ⟨x, a, x'⟩ := t
  obtain ⟨rfl, hactive⟩ := hchecks
  dsimp only at hstep hactive ⊢
  obtain ⟨-, rfl⟩ := hstep
  unfold step State.onBnClickedFrontActivate at hactive ⊢
  dsimp only at hactive ⊢
  cases hbefore : x.controls.active with
  | true =>
      rw [hbefore] at hactive
      cases hactive
  | false => exact exchanged_update mfc x.members { x.controls with active := true }

theorem allRelaying_keptBy : Proxy.KeptBy (fun _ l => MakesByPass l) AllRelaying where
  listening := ReactorLoop.allRelaying_listening
  step _ _ _ h hstep hmakes := ReactorLoop.allRelaying_step h hstep hmakes
  peer _ l hl := by
    cases l <;> trivial

/-- What holds of the program in every state. -/
structure Tied (x : State) (latest : Option (Arguments ServiceKind)) : Prop where
  follows : Follows x.wanted latest x.proxy.server
  byPass : ∀ a, latest = some a → a.creator = .byPass
  linked : Proxy.Linked AllRelaying x.proxy

/-- Where `m_thread` is not joinable, it and the four members that a thread uses are as in a new
server. -/
theorem Tied.clean {x : State} {latest : Option (Arguments ServiceKind)} (h : Tied x latest)
    (hnone : x.proxy.server.m_thread = none) :
    Server.Clean x.proxy.server ∧ x.proxy.machine = none := by
  refine ⟨.of_thread h.follows.wf h.follows.tidy hnone, h.linked.machine_none ?_ ?_ ?_⟩ <;>
    simp [hnone]

/-- The thread's sessions get bypass handlers. -/
theorem Tied.meets {x : State} {latest : Option (Arguments ServiceKind)} (h : Tied x latest)
    {a : Proxy.Action ServiceKind} {p : Proxy.State ServiceKind} (hstep : Proxy.Step x.proxy a p)
    (hcreates : Creates x.proxy a) : Proxy.Meets (fun _ l => MakesByPass l) x.proxy a := by
  cases Proxy.step_cases hstep with
  | server a hserver htakes hmachine => trivial
  | listen sockfd hw hserver hmachine => trivial
  | reactor l m hm hl hrun hpoco hserver hmachine =>
      intro m' _
      rcases l with _ | _ | _ | _ | _ | _ | _ | (_ | c) | _ | _ | _ <;> try trivial
      intro kind hkind
      -- a connection is accepted inside of `run`
      obtain ⟨args, hlatest, hstored⟩ := h.follows.serves (by rw [hrun rfl]; rfl)
      have hcreator : x.proxy.server.m_creator = some args.creator :=
        congrArg (fun y => y.2.2.2) hstored
      rw [Creates, hkind] at hcreates
      have hsame := hcreates.1.trans hcreator
      rw [Option.some.inj hsame]
      exact h.byPass args hlatest

/-- A step of the server in the proxy is one of the server. -/
theorem server_step {p p' : Proxy.State ServiceKind} {b : Server.Action ServiceKind}
    (hstep : Proxy.Step p (.server b) p') : Server.Step p.server b p'.server := by
  cases Proxy.step_cases hstep with
  | server b hserver htakes hmachine => exact hserver

/-- What the proxy does without being called. -/
theorem follows_proxy {wanted : Bool} {latest : Option (Arguments ServiceKind)}
    {p p' : Proxy.State ServiceKind} (h : Follows wanted latest p.server)
    {b : Proxy.Action ServiceKind} (hcall : isCall b = false) (hstep : Proxy.Step p b p') :
    Follows wanted latest p'.server := by
  cases Proxy.step_cases hstep with
  | server c hserver htakes hmachine =>
      refine follows_step h hserver ?_ ?_
      · rintro args rfl
        cases hcall
      · rintro rfl
        cases hcall
  | listen sockfd hw hserver hmachine =>
      have hworker : Server.Step p.server .worker p'.server := by
        rw [Server.Step, Server.step, hw, hserver]
        rfl
      exact follows_step h hworker (fun args heq => by cases heq) (fun heq => by cases heq)
  | reactor l m hm hl hrun hpoco hserver hmachine =>
      rw [hserver]
      exact h

/-- **The step lemma.** -/
theorem tied_step {mfc : Mfc} {x x' : State} {a : Action}
    {latest : Option (Arguments ServiceKind)} (h : Tied x latest) (hstep : Step mfc x a x') :
    Tied x' (noteClick mfc latest ⟨x, a, x'⟩) := by
  have hlinked : ∀ b, Proxy.Step x.proxy b x'.proxy → Creates x.proxy b →
      Proxy.Linked AllRelaying x'.proxy := fun b hb hcreates =>
    Proxy.linked_step allRelaying_keptBy h.follows.wf h.linked hb (h.meets hb hcreates)
  cases step_cases hstep with
  | quiet a hidle hclick hproxy hphase hactive =>
      have hwanted : x'.wanted = x.wanted := by
        rw [State.wanted, State.wanted, hactive]
        rcases hphase with ⟨hbefore, hafter⟩ | ⟨hbefore, hafter⟩ <;> simp [hbefore, hafter]
      rw [noteClick_of_ne fun heq => absurd heq hclick]
      exact ⟨by rw [hwanted, hproxy]; exact h.follows, h.byPass, hproxy ▸ h.linked⟩
  | activates hidle hphase hactive hproxy hcall =>
      have hbefore : x.wanted = false := by rw [State.wanted, hactive.1, Bool.and_false]
      have hafter : x'.wanted = true := by simp [State.wanted, hphase.2, hactive.2]
      have hnote : noteClick mfc latest ⟨x, .click, x'⟩ = some (x'.members.arguments mfc) :=
        noteClick_of_checks ⟨rfl, hactive.2⟩
      rw [hnote]
      refine ⟨?_, fun a ha => ?_, hlinked _ hcall trivial⟩
      · rw [hafter]
        exact follows_callActivate (hbefore ▸ h.follows) (server_step hcall)
      · rw [← Option.some.inj ha]
        rfl
  | deactivates a hidle hactive hproxy hcall =>
      have hafter : x'.wanted = false := by
        by_cases hshown : x'.phase = .shown
        · rw [State.wanted, hactive (.inr hshown), Bool.and_false]
        · simp [State.wanted, hshown]
      rw [noteClick_of_ne fun heq => hactive (.inl heq)]
      refine ⟨?_, h.byPass, hlinked _ hcall trivial⟩
      rw [hafter]
      exact follows_callDeactivate h.follows (server_step hcall)
  | proxy b hcall hb hcreates hphase hcontrols =>
      have hwanted : x'.wanted = x.wanted := by
        rw [State.wanted, State.wanted, hphase, hcontrols]
      rw [noteClick_of_ne fun heq => by cases heq]
      refine ⟨?_, h.byPass, hlinked b hb hcreates⟩
      rw [hwanted]
      exact follows_proxy h.follows hcall hb

theorem construct_tied (mfc : Mfc) : Tied (.construct mfc) none where
  follows := construct_follows
  byPass _ h := by cases h
  linked := .outside rfl fun h => by cases h

/-- **The invariant** of the program. -/
theorem tied_run {mfc : Mfc} {ts : List (Transition State Action)}
    (hrun : IsRun (Step mfc) (.construct mfc) ts) :
    Tied (last (.construct mfc) ts) (lastChecked mfc ts) :=
  invariant_noted (I := Tied) (fun _ _ _ _ h hstep => tied_step h hstep) (construct_tied mfc) hrun

/-! ## A run -/

/-- The conversions, for texts that are written in decimal digits. -/
def decimalMfc : Mfc where
  toInt text :=
    if text ≠ [] ∧ text.all (fun c => tchar '0' ≤ c ∧ c ≤ tchar '9') then
      some (text.foldl (fun n c => 10 * n + (c.toNat - '0'.toNat)) 0)
    else none
  ofInt n := tchars (Nat.toDigits 10 n.toNat)
  toAnsi text := String.ofList (text.map fun c => Char.ofNat c.toNat)

/-- The front port is typed in, and the box is checked. -/
def checking : List Action := [.type .frontPort (tchars ['8', '0']), .click]

/-- `Activate` returns, the thread goes on to `run`, and two clients come. -/
def servingTwo : List (Proxy.Action ServiceKind) :=
  List.replicate 9 (.server .controller) ++ List.replicate 6 (.server .worker) ++
    .listen 3 :: ReactorLoop.twoRelays.map .reactor

def relaying : List Action := checking ++ servingTwo.map .proxy

/-- `Deactivate` stops the reactor, which shuts the two sessions down, and returns when the thread
has ended. -/
def deactivating : List (Proxy.Action ServiceKind) :=
  List.replicate 4 (.server .controller) ++
    [.skip, .skip, .shutdown, .broadcast [0, 1, 2, 3, 4], .dispatch, .skip, .dispatch, .skip,
      .notify {}, .skip, .dispatch, .dispatch, .skip, .notify {}, .skip, .dispatch].map
        Proxy.Action.reactor ++
    List.replicate 6 (.server .worker) ++ List.replicate 2 (.server .controller)

/-- The box is unchecked. -/
def unchecking : List Action := relaying ++ .click :: deactivating.map .proxy

/-- It is checked again, with another port, and with a back port that is no number. -/
def again : List Action := unchecking ++
  [.type .frontPort (tchars ['8', '1']), .type .backPort (tchars ['4', 'x']), .click]

/-- The second `Activate` has returned. -/
def serving : List Action := again ++ List.replicate 9 (.proxy (.server .controller))

/-- The state that these lead to. -/
def after (as : List Action) : State :=
  last (.construct decimalMfc) (unroll (step decimalMfc) (.construct decimalMfc) as)

theorem allowed_relaying :
    Allowed Admissible (step decimalMfc) (.construct decimalMfc) relaying := by
  decide +kernel

theorem isRun_relaying : IsRun (Step decimalMfc) (.construct decimalMfc)
    (unroll (step decimalMfc) (.construct decimalMfc) relaying) := isRun_unroll allowed_relaying

theorem allowed_unchecking :
    Allowed Admissible (step decimalMfc) (.construct decimalMfc) unchecking := by
  decide +kernel

theorem allowed_again :
    Allowed Admissible (step decimalMfc) (.construct decimalMfc) again := by
  decide +kernel

theorem allowed_serving :
    Allowed Admissible (step decimalMfc) (.construct decimalMfc) serving := by
  decide +kernel

/-! ## What the user can rely on -/

/-- **The dialog is never refused.** An `Activate` of the dialog does not return false and does
not wait for an older thread: until it has started its own, `m_thread` and the four members that a
thread uses are as in a new server, and there is no reactor. -/
theorem activate_accepted {mfc : Mfc} {ts : List (Transition State Action)}
    (hrun : IsRun (Step mfc) (.construct mfc) ts) {pc : ActivatePc}
    {args : Arguments ServiceKind}
    (hpc : (last (.construct mfc) ts).proxy.server.controller = .activate pc args) :
    pc ≠ .returned false ∧ pc ≠ .join ∧
      (pc ≠ .returned true → Server.Clean (last (.construct mfc) ts).proxy.server ∧
        (last (.construct mfc) ts).proxy.machine = none) := by
  have h := tied_run hrun
  generalize last (.construct mfc) ts = x at h hpc ⊢
  have hcontrolled := h.follows.controlled
  rw [Controlled, hpc] at hcontrolled
  obtain ⟨-, -, hproceeds⟩ := hcontrolled
  refine ⟨?_, ?_, fun hne => ?_⟩
  · rintro rfl
    cases hproceeds.1
  · rintro rfl
    cases hproceeds
  · have hnone : x.proxy.server.m_thread = none := by
      cases pc with
      | returned result => exact absurd (congrArg ActivatePc.returned hproceeds.1) hne
      | join => cases hproceeds
      | log => exact hproceeds
      | testRunning => exact hproceeds
      | setFrontPort => exact hproceeds
      | _ => exact hproceeds.1
    exact h.clean hnone

/-- The second time, after a round with two sessions. -/
theorem activate_accepted_again :
    (after again).proxy.server.controller
        = .activate .log ((after again).members.arguments decimalMfc) ∧
      (after again).proxy.server.m_front_port = 80 ∧
      Server.Clean (after again).proxy.server ∧ (after again).proxy.machine = none := by
  have hlog : ActivatePc.log ≠ .returned true := by simp
  have hpc : (after again).proxy.server.controller
      = .activate .log ((after again).members.arguments decimalMfc) := by decide +kernel
  exact ⟨hpc, by decide +kernel, (activate_accepted (isRun_unroll allowed_again) hpc).2.2 hlog⟩

/-- **The box tells the truth.** When the dialog waits for messages, `m_thread` is joinable exactly
if the box of a dialog that is still there is checked; and if it is not, it and the four members
that a thread uses are as in a new server, and there is no reactor. -/
theorem box_tells {mfc : Mfc} {ts : List (Transition State Action)}
    (hrun : IsRun (Step mfc) (.construct mfc) ts)
    (hwaiting : (last (.construct mfc) ts).Waiting) :
    ((last (.construct mfc) ts).proxy.server.m_thread.isSome = true ↔
      (last (.construct mfc) ts).phase = .shown ∧
        (last (.construct mfc) ts).controls.active = true) ∧
      ((last (.construct mfc) ts).proxy.server.m_thread = none →
        Server.Clean (last (.construct mfc) ts).proxy.server ∧
          (last (.construct mfc) ts).proxy.machine = none) := by
  have h := tied_run hrun
  generalize last (.construct mfc) ts = x at h hwaiting ⊢
  have hcontrolled := h.follows.controlled
  rw [Controlled, show x.proxy.server.controller = .idle from hwaiting] at hcontrolled
  refine ⟨?_, h.clean⟩
  rw [hcontrolled, State.wanted, Bool.and_eq_true, decide_eq_true_iff]

/-- With the box checked, and unchecked again. -/
theorem box_tells_unchecking :
    (((after relaying).proxy.server.m_thread.isSome = true ↔
        (after relaying).phase = .shown ∧ (after relaying).controls.active = true) ∧
      ((after relaying).proxy.server.m_thread = none →
        Server.Clean (after relaying).proxy.server ∧ (after relaying).proxy.machine = none)) ∧
    (after unchecking).proxy.server.m_thread = none ∧
      Server.Clean (after unchecking).proxy.server ∧ (after unchecking).proxy.machine = none := by
  have hnone : (after unchecking).proxy.server.m_thread = none := by decide +kernel
  exact ⟨box_tells isRun_relaying (by decide +kernel), hnone,
    (box_tells (isRun_unroll allowed_unchecking) (by decide +kernel)).2 hnone⟩

/-- **The addresses stay.** As long as `m_thread` is joinable, the server has the ports, the address
and the class of handlers of the last click that has checked the box: what stood in the controls
then, or in the members where the exchange had failed. Whatever has been typed since. -/
theorem serves_checked {mfc : Mfc} {ts : List (Transition State Action)}
    (hrun : IsRun (Step mfc) (.construct mfc) ts)
    (hthread : (last (.construct mfc) ts).proxy.server.m_thread.isSome = true) :
    ∃ us t vs, ts = us ++ t :: vs ∧ Checks t ∧ (∀ v ∈ vs, ¬ Checks v) ∧
      ∃ a, Exchanged mfc t.src.members t.src.controls.text a ∧
        Server.stored (last (.construct mfc) ts).proxy.server = stores a := by
  obtain ⟨a, hlatest, hstored⟩ := (tied_run hrun).follows.serves hthread
  obtain ⟨us, t, vs, heq, ht, rfl, hvs⟩ := exists_last (C := Checks)
    (F := fun t => t.dst.members.arguments mfc) (fun _ _ h => noteClick_of_checks h)
    (fun _ _ h => noteClick_of_not_checks h) hlatest
  have hstep : Step mfc t.src t.label t.dst := hrun.step_of_mem (by simp [heq])
  exact ⟨us, t, vs, heq, ht, hvs, _, exchanged_of_checks ht hstep, hstored⟩

/-- The back port in the controls is no number, and the server has the one before it. -/
theorem serves_checked_serving :
    Server.stored (after serving).proxy.server = (81, "127.0.0.1", 4242, some .byPass) ∧
      ∃ us t vs, unroll (step decimalMfc) (.construct decimalMfc) serving = us ++ t :: vs ∧
        Checks t ∧ (∀ v ∈ vs, ¬ Checks v) ∧
        ∃ a, Exchanged decimalMfc t.src.members t.src.controls.text a ∧
          Server.stored (after serving).proxy.server = stores a :=
  ⟨by decide +kernel, serves_checked (isRun_unroll allowed_serving) (by decide +kernel)⟩

/-- **The program relays.** At every time, for every session of the reactor, what one peer has
been sent is a part of what the other peer has sent, in the same order and no byte twice. -/
theorem emulator_relays {mfc : Mfc} {ts : List (Transition State Action)}
    (hrun : IsRun (Step mfc) (.construct mfc) ts) :
    ∀ m ∈ (last (.construct mfc) ts).proxy.machine, ∀ c ∈ m.sessions, ∀ d,
      (c.session.socket d.other).accepted.Sublist (c.session.socket d).arrived := by
  intro m hm c hc d
  have hall : ∀ m', AllRelaying m' → m.sessions = m'.sessions →
      (c.session.socket d.other).accepted.Sublist (c.session.socket d).arrived := by
    intro m' h heq
    rw [heq] at hc
    exact (h.sessions c hc).relays d
  cases (tied_run hrun).linked with
  | outside hnone =>
      rw [hnone] at hm
      cases hm
  | running m' hw hm' h => exact hall m' h (by rw [Option.some.inj (hm.symm.trans hm')])
  | left m' hw hm' h => exact hall m' h (by rw [Option.some.inj (hm.symm.trans hm')])
  | reset m' hw hm' h =>
      refine hall m' h ?_
      rw [Option.some.inj (hm.symm.trans hm')]
      rfl

theorem emulator_relays_relaying :
    (after relaying).proxy.machine.isSome = true ∧
      ∀ m ∈ (after relaying).proxy.machine, ∀ c ∈ m.sessions, ∀ d,
        (c.session.socket d.other).accepted.Sublist (c.session.socket d).arrived :=
  ⟨by decide +kernel, emulator_relays isRun_relaying⟩

end PocoProxy.Emulator
