/-
The program: the dialog, and the proxy behind it.

The dialog lives in one thread, and that thread is the controller of the proxy: as long as it is
in `Activate` or in `Deactivate` it handles no message. `IDC_ACTIVATE` is a check box, which
has changed when its handler is called. What the user types stands in the edit controls; it gets
into the members by `UpdateData(TRUE)`, and `UpdateData(FALSE)`, once a second, puts the members
back into the controls.

What `DDX_Text` takes for a number and what `CT2CA` makes of a text is up to the library, for
which `Mfc` stands; of its functions nothing is assumed. The messages that draw, the system
menu and the log are left out.
-/
import PocoProxy.CString
import PocoProxy.Forwarding
import PocoProxy.ProxyRuns

set_option autoImplicit false

namespace PocoProxy.Emulator

open PocoProxy.Socket PocoProxy.Session PocoProxy.Runs
open PocoProxy.CStrings (CString tchars)
open PocoProxy.Server (CPOCOProxyServer Arguments)
open PocoProxy.ReactorLoop (Machine Label Cell)

/-! ## The state -/

/-- The conversions of the library. -/
structure Mfc where
  /-- `DDX_Text` into an `int`; a text that it does not take ends the exchange. -/
  toInt : CString → Option ℤ
  ofInt : ℤ → CString
  /-- `CT2CA`. -/
  toAnsi : CString → String

/-- The members that are exchanged with the controls. -/
structure Members where
  m_front_port : ℤ
  m_back_ip : CString
  m_back_port : ℤ

inductive Edit where
  | frontPort
  | backIp
  | backPort
  deriving DecidableEq, Repr

structure Controls where
  text : Edit → CString
  /-- `GetButtonCheck(this, IDC_ACTIVATE)`. -/
  active : Bool

/-- How far the program is. -/
inductive Phase where
  /-- The dialog is on the screen. -/
  | shown
  /-- `OnDestroy` has been called. -/
  | destroyed
  /-- The destructor of the dialog has been called. -/
  | deleted
  | ended
  deriving DecidableEq, Repr

structure State where
  members : Members
  controls : Controls
  phase : Phase
  /-- `*m_server`; the creator is the class of which the lambda makes an object. -/
  proxy : Proxy.State ServiceKind

inductive Action where
  | type (edit : Edit) (text : CString)
  | click
  | timer
  | ok
  | cancel
  /-- A `Deactivate` has returned, and `InitInstance` goes on. -/
  | leave
  | proxy (a : Proxy.Action ServiceKind)

/-! ## The steps -/

section

variable (mfc : Mfc)

/-- `UpdateData(FALSE)`. -/
def Controls.update (c : Controls) (m : Members) : Controls :=
  { c with text := fun
      | .frontPort => mfc.ofInt m.m_front_port
      | .backIp => m.m_back_ip
      | .backPort => mfc.ofInt m.m_back_port }

/-- `UpdateData(TRUE)`, and what it returns: a text that is no number ends it. -/
def Members.update (m : Members) (c : Controls) : Members × Bool :=
  match mfc.toInt (c.text .frontPort) with
  | none => (m, false)
  | some front_port =>
    let m := { m with m_front_port := front_port, m_back_ip := c.text .backIp }
    match mfc.toInt (c.text .backPort) with
    | none => (m, false)
    | some back_port => ({ m with m_back_port := back_port }, true)

/-- What `Activate` is called with. -/
def Members.arguments (m : Members) : Arguments ServiceKind :=
  ⟨m.m_front_port, mfc.toAnsi m.m_back_ip, m.m_back_port, .byPass⟩

/-- The dialog after `OnInitDialog`. -/
def State.construct : State where
  members := ⟨1470, tchars ['1', '2', '7', '.', '0', '.', '0', '.', '1'], 4242⟩
  controls := Controls.update mfc ⟨fun _ => [], false⟩
    ⟨1470, tchars ['1', '2', '7', '.', '0', '.', '0', '.', '1'], 4242⟩
  phase := .shown
  proxy := .construct

/-- The dialog calls a function of the server. -/
def State.call (s : State) (a : Server.Action ServiceKind) : State :=
  { s with proxy := Proxy.step s.proxy (.server a) }

/-- `OnBnClickedFrontActivate`, up to the call. -/
def State.onBnClickedFrontActivate (s : State) : State :=
  if s.controls.active then
    let s := { s with members := (s.members.update mfc s.controls).1 }
    s.call (.callActivate (s.members.arguments mfc))
  else s.call .callDeactivate

/-- `OnDestroy`, up to the call. -/
def State.onDestroy (s : State) : State := { s with phase := .destroyed }.call .callDeactivate

def step (s : State) : Action → State
  | .type edit text =>
    { s with controls := { s.controls with text := Function.update s.controls.text edit text } }
  | .click =>
    { s with controls := { s.controls with active := !s.controls.active } }.onBnClickedFrontActivate
      mfc
  | .timer => { s with controls := s.controls.update mfc s.members }
  | .ok =>
    let (members, valid) := s.members.update mfc s.controls
    if valid then { s with members := members }.onDestroy else { s with members := members }
  | .cancel => s.onDestroy
  | .leave =>
    match s.phase with
    | .destroyed => { s with phase := .deleted }.call .callDeactivate
    | _ => { s with phase := .ended }
  | .proxy a => { s with proxy := Proxy.step s.proxy a }

end

/-- The calls are made by the dialog. -/
def isCall : Proxy.Action ServiceKind → Bool
  | .server (.callActivate _) => true
  | .server .callDeactivate => true
  | _ => false

/-- A session gets its service from the stored creator, if that returns. -/
def Creates (s : Proxy.State ServiceKind) : Proxy.Action ServiceKind → Prop
  | .reactor (.accept (some a)) =>
    match a.setup.service with
    | .ok kind => kind = s.server.m_creator ∧ kind.isSome = true
    | .error _ => True
  | _ => True

instance (s : Proxy.State ServiceKind) (a : Proxy.Action ServiceKind) :
    Decidable (Creates s a) := by
  unfold Creates
  split
  · split <;> infer_instance
  · infer_instance

/-- The dialog's thread is in no function of the server. -/
def State.Waiting (s : State) : Prop := s.proxy.server.controller = .idle

instance (s : State) : Decidable s.Waiting := inferInstanceAs (Decidable (_ = _))

def Admissible (s : State) : Action → Prop
  | .leave => (s.phase = .destroyed ∨ s.phase = .deleted) ∧ s.Waiting
  | .proxy a => isCall a = false ∧ Proxy.Admissible s.proxy a ∧ Creates s.proxy a
  | _ => s.phase = .shown ∧ s.Waiting

instance (s : State) (a : Action) : Decidable (Admissible s a) := by
  cases a <;> unfold Admissible <;> infer_instance

def Step (mfc : Mfc) (s : State) (a : Action) (s' : State) : Prop :=
  Admissible s a ∧ s' = step mfc s a

/-! ## What a step is -/

/-- The dialog calls a function: nothing else happens in the proxy. -/
theorem call_step {s : State} {a : Server.Action ServiceKind}
    {next : Server.Controller ServiceKind}
    (ha : Server.step s.proxy.server a = some { s.proxy.server with controller := next })
    (hcall : isCall (.server a) = true) :
    (s.call a).proxy = ⟨{ s.proxy.server with controller := next }, s.proxy.machine⟩ ∧
      Proxy.Step s.proxy (.server a) (s.call a).proxy := by
  have hmachine : s.proxy.machineAfter a = s.proxy.machine := by
    cases a <;> first | rfl | cases hcall
  refine ⟨?_, ⟨?_, ?_⟩, rfl⟩
  · change Proxy.State.mk _ _ = _
    rw [ha, Option.getD_some, hmachine]
  · rw [ha]
    rfl
  · cases a <;> trivial

theorem callActivate_step {s : State} (hidle : s.Waiting) (args : Arguments ServiceKind) :
    (s.call (.callActivate args)).proxy
        = ⟨{ s.proxy.server with controller := .activate .log args }, s.proxy.machine⟩ ∧
      Proxy.Step s.proxy (.server (.callActivate args)) (s.call (.callActivate args)).proxy := by
  refine call_step ?_ rfl
  unfold Server.step
  rw [show s.proxy.server.controller = .idle from hidle]

theorem callDeactivate_step {s : State} (hidle : s.Waiting) :
    (s.call .callDeactivate).proxy
        = ⟨{ s.proxy.server with controller := .deactivate .log }, s.proxy.machine⟩ ∧
      Proxy.Step s.proxy (.server .callDeactivate) (s.call .callDeactivate).proxy := by
  refine call_step ?_ rfl
  unfold Server.step
  rw [show s.proxy.server.controller = .idle from hidle]

/-- A step, by what happens in the proxy. -/
inductive StepCases (mfc : Mfc) (s s' : State) : Action → Prop
  /-- The dialog is by itself. -/
  | quiet (a : Action) (hidle : s.Waiting) (hclick : a ≠ .click) (hproxy : s'.proxy = s.proxy)
      (hphase : s.phase = .shown ∧ s'.phase = .shown ∨ s.phase ≠ .shown ∧ s'.phase ≠ .shown)
      (hactive : s'.controls.active = s.controls.active) : StepCases mfc s s' a
  | activates (hidle : s.Waiting) (hphase : s.phase = .shown ∧ s'.phase = .shown)
      (hactive : s.controls.active = false ∧ s'.controls.active = true)
      (hproxy : s'.proxy = ⟨{ s.proxy.server with
        controller := .activate .log (s'.members.arguments mfc) }, s.proxy.machine⟩)
      (hstep : Proxy.Step s.proxy (.server (.callActivate (s'.members.arguments mfc))) s'.proxy) :
      StepCases mfc s s' .click
  | deactivates (a : Action) (hidle : s.Waiting)
      (hactive : a = .click ∨ s'.phase = .shown → s'.controls.active = false)
      (hproxy : s'.proxy = ⟨{ s.proxy.server with controller := .deactivate .log },
        s.proxy.machine⟩)
      (hstep : Proxy.Step s.proxy (.server .callDeactivate) s'.proxy) : StepCases mfc s s' a
  | proxy (a : Proxy.Action ServiceKind) (hcall : isCall a = false)
      (hstep : Proxy.Step s.proxy a s'.proxy) (hcreates : Creates s.proxy a)
      (hphase : s'.phase = s.phase) (hcontrols : s'.controls = s.controls) :
      StepCases mfc s s' (.proxy a)

theorem onDestroy_cases {mfc : Mfc} {s s₀ : State} {a : Action} (hidle : s.Waiting)
    (hclick : a ≠ .click) (hproxy : s₀.proxy = s.proxy) : StepCases mfc s s₀.onDestroy a := by
  obtain ⟨members, controls, phase, proxy⟩ := s₀
  dsimp only at hproxy
  subst hproxy
  obtain ⟨heq, hcall⟩ := callDeactivate_step (s := ⟨members, controls, .destroyed, s.proxy⟩) hidle
  refine .deactivates a hidle (fun h => ?_) heq hcall
  rcases h with heq | hshown
  · exact absurd heq hclick
  · cases hshown

theorem step_cases {mfc : Mfc} {s s' : State} {a : Action} (hstep : Step mfc s a s') :
    StepCases mfc s s' a := by
  obtain ⟨hadm, rfl⟩ := hstep
  cases a with
  | type edit text => exact .quiet _ hadm.2 (by simp) rfl (.inl ⟨hadm.1, hadm.1⟩) rfl
  | timer => exact .quiet _ hadm.2 (by simp) rfl (.inl ⟨hadm.1, hadm.1⟩) rfl
  | cancel => exact onDestroy_cases hadm.2 (by simp) rfl
  | ok =>
      unfold step
      dsimp only
      split
      · exact onDestroy_cases hadm.2 (by simp) rfl
      · exact .quiet _ hadm.2 (by simp) rfl (.inl ⟨hadm.1, hadm.1⟩) rfl
  | leave =>
      obtain ⟨hphase, hidle⟩ := hadm
      unfold step
      rcases hphase with hphase | hphase
      · rw [hphase]
        obtain ⟨heq, hstep⟩ := callDeactivate_step (s := { s with phase := .deleted }) hidle
        exact .deactivates _ hidle (fun h => by rcases h with h | h <;> cases h) heq hstep
      · rw [hphase]
        exact .quiet _ hidle (by simp) rfl (.inr ⟨by rw [hphase]; decide, by simp⟩) rfl
  | click =>
      obtain ⟨hshown, hidle⟩ := hadm
      unfold step State.onBnClickedFrontActivate
      dsimp only
      cases hactive : s.controls.active with
      | false =>
          obtain ⟨heq, hstep⟩ := callActivate_step
            (s := { s with
              controls := { s.controls with active := true }
              members := (s.members.update mfc { s.controls with active := true }).1 }) hidle
            ((s.members.update mfc { s.controls with active := true }).1.arguments mfc)
          exact .activates hidle ⟨hshown, hshown⟩ ⟨hactive, rfl⟩ heq hstep
      | true =>
          obtain ⟨heq, hstep⟩ := callDeactivate_step
            (s := { s with controls := { s.controls with active := false } }) hidle
          exact .deactivates _ hidle (fun _ => rfl) heq hstep
  | proxy a => exact .proxy a hadm.1 ⟨hadm.2.1, rfl⟩ hadm.2.2 rfl rfl

/-- The program refines the proxy. -/
theorem refines_proxy (mfc : Mfc) :
    Refines (fun _ : State => True) (Step mfc) Proxy.Step State.proxy := by
  intro s a s' _ hstep
  cases step_cases hstep with
  | quiet a hidle hclick hproxy hphase hactive => exact .inr hproxy
  | activates hidle hphase hactive hproxy hcall => exact .inl ⟨_, hcall⟩
  | deactivates a hidle hactive hproxy hcall => exact .inl ⟨_, hcall⟩
  | proxy a hcall hproxy hcreates hphase hcontrols => exact .inl ⟨a, hproxy⟩

/-- What holds in every run of the server. -/
theorem server_states {mfc : Mfc} {P : CPOCOProxyServer ServiceKind → Prop}
    (hP : ∀ us, IsRun Server.Step .construct us → ∀ y ∈ states CPOCOProxyServer.construct us, P y)
    {ts : List (Transition State Action)} (hrun : IsRun (Step mfc) (.construct mfc) ts) :
    ∀ x ∈ states (State.construct mfc) ts, P x.proxy.server :=
  (refines_proxy mfc).transfer (P := fun y => P y.server) (fun _ _ _ _ _ => trivial) trivial
    (fun _ hus => Proxy.server_states hP hus) hrun

end PocoProxy.Emulator
