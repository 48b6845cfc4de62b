/-
The reactor down to the calls of the system.

A handler runs on a script; the other steps are those of `ReactorLoop`. Every step of this
reactor is a run of the one whose handlers are given outcomes that the sockets can give: what
has happened while a call waited comes first, and then the handler. And every outcome has its
script. So the two reactors come to the same states (`calls_exact`), and what holds in the states
of the one holds in those of the other.
-/
import PocoProxy.CallScripts
import PocoProxy.Forwarding
import PocoProxy.Lib.Refinement
import PocoProxy.Watching

set_option autoImplicit false

namespace PocoProxy.ReactorLoop

open PocoProxy.Program PocoProxy.Socket PocoProxy.Reactor PocoProxy.Session PocoProxy.Runs
open PocoProxy.SocketCalls

/-! ## The two reactors -/

/-- What a reading handler gets from its sockets is what Poco can make of the system's answers. -/
def SocketsGive (m : Machine) : Label → Prop
  | .notify o =>
    ∀ x ∈ m.calledSession, ∀ d ∈ readSide x.2, x.1.session.m_back_connected = true →
      CallsOk x.1.session d o
  | _ => True

def OutcomeStep (m : Machine) (l : Label) (m' : Machine) : Prop := Step m l m' ∧ SocketsGive m l

inductive CallLabel where
  /-- A step in which no session is called. -/
  | quiet (l : Label)
  /-- The next observer calls a method of a session, and meanwhile this happens. -/
  | notify (o : Outcomes) (script : List Happening)

/-- A session is called. -/
def isNotify : Label → Bool
  | .notify _ => true
  | _ => false

/-- The method of the session, run on the script. -/
def Machine.runCalls (m : Machine) (c : Cell) (method : Method) (o : Outcomes)
    (script : List Happening) : Except Interruption Unit × Process :=
  SocketCalls.handler method o ⟨c.world m.reactor, script, POCO_ENOERR⟩

/-- An exception leaves the loop over the observers. -/
def remainingCalls (result : Except Interruption Unit) (observers : List Observer) :
    List Observer :=
  match result with
  | .ok _ => observers
  | .error _ => []

/-- The method that the next observer calls runs on the session. -/
def Machine.onCalls (m : Machine) (i : ℕ) (method : Method) (o : Outcomes)
    (script : List Happening) : Machine :=
  match m.sessions[i]? with
  | none => m
  | some c =>
    let (result, s) := m.runCalls c method o script
    { m with
      sessions := m.sessions.set i (.ofWorld s.world)
      reactor := s.world.reactor
      observersToNotify := remainingCalls result m.observersToNotify.tail }

/-- The script is what has happened when the method has come to its end. -/
def AdmissibleCalls (m : Machine) : CallLabel → Prop
  | .quiet l => isNotify l = false ∧ Admissible m l
  | .notify o script =>
    isSessionCall m.nextCall = true ∧ ∀ x ∈ m.calledSession,
      (m.runCalls x.1 x.2 o script).1 ≠ .error .waiting ∧
        (m.runCalls x.1 x.2 o script).2.script = []

instance (m : Machine) : (l : CallLabel) → Decidable (AdmissibleCalls m l)
  | .quiet _ => inferInstanceAs (Decidable (_ ∧ _))
  | .notify _ _ => inferInstanceAs (Decidable (_ ∧ ∀ x ∈ m.calledSession, _))

def stepCalls (m : Machine) : CallLabel → Machine
  | .quiet l => step m l
  | .notify o script =>
    match m.nextCall with
    | some ⟨.session i, method⟩ => m.onCalls i method o script
    | _ => m

def CallStep (m : Machine) (l : CallLabel) (m' : Machine) : Prop :=
  AdmissibleCalls m l ∧ m' = stepCalls m l

/-! ## Outcomes -/

theorem dataOk_of_callsOk {s : ProxySession} {d : Side} {o : Outcomes} (h : CallsOk s d o) :
    DataOk s d o := by
  obtain ⟨hreceive, hsend⟩ := h
  unfold DataOk
  cases hr : o.receive with
  | bytes first rest =>
      rw [hr] at hreceive
      exact ⟨hreceive.1, hreceive.2, fun hkind => (hsend first rest hr hkind).1⟩
  | endOfStream => trivial
  | wouldBlock =>
      rw [hr] at hreceive
      exact hreceive
  | throws e =>
      rw [hr] at hreceive
      exact hreceive

theorem OutcomeStep.pocoStep {m m' : Machine} {l : Label} (h : OutcomeStep m l m') :
    PocoStep m l m' := by
  refine ⟨h.1, ?_⟩
  have hgive := h.2
  cases l with
  | notify o => exact fun x hx d hd hconnected => dataOk_of_callsOk (hgive x hx d hd hconnected)
  | _ => trivial

/-! ## What has happened while a call waited -/

/-- The session in place `i` has become that of `w`. -/
def Machine.put (m : Machine) (i : ℕ) (w : World) : Machine :=
  { m with sessions := m.sessions.set i (.ofWorld w), reactor := w.reactor }

theorem put_self {m : Machine} {i : ℕ} {c : Cell} (hc : m.sessions[i]? = some c) :
    m.put i (c.world m.reactor) = m := by
  obtain ⟨hi, rfl⟩ := List.getElem?_eq_some_iff.mp hc
  have hset : m.sessions.set i m.sessions[i] = m.sessions := List.set_getElem_self hi
  exact congrArg (fun cells => { m with sessions := cells }) hset

/-- The peers act as they have acted on the session. -/
theorem reaches_put {m : Machine} {i : ℕ} {c : Cell} (hc : m.sessions[i]? = some c) {w : World}
    (h : Meanwhile (c.world m.reactor) w) : Reaches OutcomeStep m (m.put i w) := by
  have hi := (List.getElem?_eq_some_iff.mp hc).1
  have hget : ∀ v, (m.put i v).sessions[i]? = some (.ofWorld v) :=
    fun v => List.getElem?_set_self hi
  have hon : ∀ v f, (m.put i v).onSession i f = m.put i (f v) := by
    intro v f
    unfold Machine.onSession
    rw [hget]
    exact congrArg (fun cells => ({ m with sessions := cells, reactor := (f v).reactor } : Machine))
      (List.set_set ..)
  induction h with
  | refl =>
      rw [put_self hc]
      exact Reaches.refl _ _
  | @tail v v' _ hlast ih =>
      cases hlast with
      | arrive d bs =>
          have heq := hon v fun v => Session.step v (.arrive d bs)
          refine ih.step (l := .arrive i d bs) ⟨⟨?_, heq.symm⟩, trivial⟩
          exact (List.getElem?_eq_some_iff.mp (hget _)).1
      | connectDone status hadm =>
          have heq := hon v fun v => Session.step v (.connectDone status)
          refine ih.step (l := .connectDone i status) ⟨⟨⟨?_, hadm.2⟩, heq.symm⟩, trivial⟩
          rw [hget]
          exact congrArg some hadm.1

/-! ## One step -/

theorem remainingCalls_mapError (r : Except Exception Unit) (observers : List Observer) :
    remainingCalls (r.mapError .thrown) observers = remaining r observers := by
  cases r <;> rfl

/-- The handler has come to what the session's handler comes to after the peers have acted. -/
theorem onCalls_eq {m : Machine} {i : ℕ} {c : Cell} (hc : m.sessions[i]? = some c)
    {method : Method} {o o' : Outcomes} {script : List Happening} {w : World}
    (hsame : Same (handler method o' w) (m.runCalls c method o script).1
      (m.runCalls c method o script).2) :
    m.onCalls i method o script = (m.put i w).onNotify i method o' := by
  have hget : (m.put i w).sessions[i]? = some (.ofWorld w) :=
    List.getElem?_set_self (List.getElem?_eq_some_iff.mp hc).1
  unfold Machine.onCalls Machine.onNotify
  rw [hc, hget]
  rcases hrun : m.runCalls c method o script with ⟨result, s⟩
  rcases hhandler : handler method o' w with ⟨r, w'⟩
  rw [hrun, hhandler] at hsame
  obtain ⟨rfl, rfl⟩ : result = r.mapError .thrown ∧ s.world = w' := hsame
  have hworld : (Cell.ofWorld w).world (m.put i w).reactor = w := rfl
  dsimp only
  rw [hworld, hrun, hhandler]
  dsimp only
  rw [remainingCalls_mapError]
  simp only [Machine.put, List.set_set]

/-- **A step over the system's calls is a run.** -/
theorem CallStep.reaches {m m' : Machine} {l : CallLabel} (hsafe : m.Safe)
    (hstream : ∀ c ∈ m.sessions, ∀ d,
      (c.session.socket d).received <+: (c.session.socket d).arrived)
    (h : CallStep m l m') : Reaches OutcomeStep m m' := by
  obtain ⟨hadm, rfl⟩ := h
  cases l with
  | quiet l =>
      refine (Reaches.refl _ m).step (l := l) ⟨⟨hadm.2, rfl⟩, ?_⟩
      cases l with
      | notify o => cases hadm.1
      | _ => trivial
  | notify o script =>
      obtain ⟨hcalled, hruns⟩ := hadm
      rw [stepCalls]
      rcases hcall : m.nextCall with _ | ⟨_ | i, method⟩
      · rw [hcall] at hcalled
        cases hcalled
      · rw [hcall] at hcalled
        cases hcalled
      obtain ⟨c, hc, halive, -, -⟩ := hsafe.alive hcall
      obtain ⟨hends, -⟩ := hruns _ (Machine.calledSession_eq hcall hc)
      have hworld : (c.world m.reactor).Alive := halive
      rcases handler_spec hworld method o (hstream c (List.mem_of_getElem? hc))
        ⟨c.world m.reactor, script, POCO_ENOERR⟩ rfl with hwaits | ⟨w, hw, q, q', hok, hsame⟩
      · exact absurd hwaits hends
      have hreactor : w.reactor = m.reactor := (Meanwhile.steady hw).reactor
      have hput := reaches_put hc hw
      dsimp only
      rw [onCalls_eq hc hsame]
      have hcall' : (m.put i w).nextCall = some ⟨.session i, method⟩ := by
        unfold Machine.nextCall Machine.put
        rw [hreactor]
        exact hcall
      have hget : (m.put i w).sessions[i]? = some (.ofWorld w) :=
        List.getElem?_set_self (List.getElem?_eq_some_iff.mp hc).1
      refine hput.step (l := .notify { o with receive := q, send := q' }) ⟨⟨?_, ?_⟩, ?_⟩
      · rw [Admissible, hcall']
        rfl
      · rw [step, hcall']
      · intro x hx d hd hconnected
        rw [Machine.calledSession_eq hcall' hget, Option.mem_some_iff] at hx
        subst hx
        exact hok d hd hconnected

/-- **Every outcome has its script.** -/
theorem OutcomeStep.calls {m m' : Machine} {l : Label} (hsafe : m.Safe)
    (hopen : ∀ c ∈ m.sessions, m.Live c →
      ∀ d, (c.session.socket d).sockfd ≠ POCO_INVALID_SOCKET)
    (h : OutcomeStep m l m') : ∃ l', CallStep m l' m' := by
  obtain ⟨⟨hadm, rfl⟩, hgive⟩ := h
  by_cases hnotify : isNotify l = false
  · exact ⟨.quiet l, ⟨hnotify, hadm⟩, rfl⟩
  cases l with
  | notify o =>
      rcases hcall : m.nextCall with _ | ⟨_ | i, method⟩
      · rw [Admissible, hcall] at hadm
        cases hadm
      · rw [Admissible, hcall] at hadm
        cases hadm
      obtain ⟨c, hc, halive, -, hall⟩ := hsafe.alive hcall
      have hcalled := Machine.calledSession_eq hcall hc
      have hlive : m.Live c := ⟨halive, fun hnil => by cases (hall .front).symm.trans hnil⟩
      have hworld : (c.world m.reactor).Alive := halive
      obtain ⟨script, hscript⟩ := handler_scripted hworld method o
        (hopen c (List.mem_of_getElem? hc) hlive) (fun d hd => hgive _ hcalled d hd)
      obtain ⟨err, hrun⟩ := hscript [] POCO_ENOERR
      rw [List.append_nil] at hrun
      have hruns : m.runCalls c method o script
          = ((handler method o (c.world m.reactor)).1.mapError .thrown,
            ⟨(handler method o (c.world m.reactor)).2, [], err⟩) := hrun
      have hsame : Same (handler method o (c.world m.reactor)) (m.runCalls c method o script).1
          (m.runCalls c method o script).2 := by
        rw [hruns]
        exact ⟨rfl, rfl⟩
      refine ⟨.notify o script, ⟨hadm, ?_⟩, ?_⟩
      · intro x hx
        rw [hcalled, Option.mem_some_iff] at hx
        subst hx
        rw [hruns]
        refine ⟨?_, rfl⟩
        cases (handler method o (c.world m.reactor)).1 with
        | ok a => exact fun heq => by cases heq
        | error e => exact fun heq => by cases heq
      · rw [step, stepCalls, hcall]
        dsimp only
        rw [onCalls_eq hc hsame, put_self hc]
  | _ => exact absurd rfl hnotify

/-! ## All the states -/

/-- What holds in the states that the reactor comes to. -/
theorem OutcomeStep.reachable {sockfd : Fd} {m : Machine}
    (h : Reaches OutcomeStep (Machine.listening sockfd) m) :
    m.Safe ∧ (∀ c ∈ m.sessions, Forwarded (c.world m.reactor)) ∧
      (sockfd ≠ POCO_INVALID_SOCKET → ∀ c ∈ m.sessions, m.Live c →
        ∀ d, (c.session.socket d).sockfd ≠ POCO_INVALID_SOCKET) := by
  obtain ⟨ts, hrun, rfl⟩ := h
  have hpoco := hrun.imp fun _ _ _ => OutcomeStep.pocoStep
  have hsteps := hrun.imp fun _ _ _ h => h.1
  have hlast := last_mem_states (Machine.listening sockfd) ts
  refine ⟨safe_of_isRun hsteps _ hlast, forwarded_sessions sockfd hpoco _ hlast, ?_⟩
  intro hvalid c hc hlive d
  exact (reachable_watching hvalid hsteps _ hlast).opened _ _ (watched_of_live hc hlive d)

/-- **The outcomes are exactly what Poco makes of the system's calls.** The reactor whose
handlers run down to the calls of the system, and the one whose handlers are given outcomes that
the sockets can give, come to the same states. -/
theorem calls_exact {sockfd : Fd} (hvalid : sockfd ≠ POCO_INVALID_SOCKET) (m : Machine) :
    Reaches CallStep (Machine.listening sockfd) m ↔
      Reaches OutcomeStep (Machine.listening sockfd) m := by
  constructor
  · refine Reaches.simulated fun m' l m'' hm' hstep => ?_
    obtain ⟨hsafe, hforwarded, -⟩ := OutcomeStep.reachable hm'
    exact hstep.reaches hsafe fun c hc => (hforwarded c hc).received
  · rintro ⟨ts, hrun, rfl⟩
    have hall := invariant_states
      (I := fun x => Reaches OutcomeStep (Machine.listening sockfd) x ∧
        Reaches CallStep (Machine.listening sockfd) x)
      (fun x l x' ⟨hx, hx'⟩ hstep => ?_) ⟨Reaches.refl _ _, Reaches.refl _ _⟩ hrun
    · exact (hall _ (last_mem_states _ ts)).2
    · obtain ⟨hsafe, -, hopen⟩ := OutcomeStep.reachable hx
      obtain ⟨l', hl'⟩ := hstep.calls hsafe (hopen hvalid)
      exact ⟨hx.step hstep, hx'.step hl'⟩

/-- One bypass session. The first `recv` is interrupted, the client sends while the second one
waits, and the back socket takes two bytes of three; what comes back is sent in two pieces. -/
def piecemeal : List CallLabel :=
  [.quiet (.poll (some [(0, ⟨true, false, false⟩)])), .quiet .dispatch,
   .quiet (.accept (some ⟨5, sampleSetup .byPass, {}⟩)), .quiet (.connectDone 0 .succeeded),
   .quiet (.poll (some [(2, ⟨false, true, false⟩), (1, ⟨true, false, false⟩)])),
   .quiet .dispatch, .notify {} [], .quiet .skip, .quiet .skip, .quiet .skip,
   .quiet .dispatch,
   .notify {} [.returns (-1) POCO_EINTR, .arrive .front [1, 2, 3], .returns 3 POCO_ENOERR,
     .arrive .back [7, 8], .returns 2 POCO_ENOERR],
   .quiet .skip, .quiet .skip,
   .quiet (.poll (some [(2, ⟨true, false, false⟩)])), .quiet .dispatch, .quiet .skip,
   .notify {} [.returns 2 POCO_ENOERR, .returns 1 POCO_ENOERR, .returns (-1) POCO_EINTR,
     .returns 1 POCO_ENOERR]]

/-- The state that it leads to. -/
def afterPiecemeal : Machine :=
  last (Machine.listening 3) (unroll stepCalls (Machine.listening 3) piecemeal)

theorem allowed_piecemeal : Allowed AdmissibleCalls stepCalls (Machine.listening 3) piecemeal := by
  decide +kernel

theorem calls_exact_piecemeal :
    afterPiecemeal.sessions.map (fun c => (c.session.m_back.accepted, c.session.m_front.accepted))
        = [([1, 2], [7, 8])] ∧
      Reaches OutcomeStep (Machine.listening 3) afterPiecemeal :=
  ⟨by decide +kernel, (calls_exact (by decide) afterPiecemeal).mp
    ⟨_, isRun_unroll allowed_piecemeal, rfl⟩⟩

end PocoProxy.ReactorLoop
