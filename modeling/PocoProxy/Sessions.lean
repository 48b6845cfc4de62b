/-
Every session on a reactor goes through a run of its own.

The results about single sessions are about runs of the system in `SessionRun`,
where notifications come in any order. A run of the reactor, looked at from one of
its sessions, is such a run (`sessions_simulated`): it starts with what
`createServiceHandler` has left, a step of the reactor is a step of the session or
one that happens elsewhere, and a session that was not registered is never
notified. So what holds of single sessions holds of all sessions on a reactor.
-/
import PocoProxy.CallbackOrder
import PocoProxy.ReactorRun

set_option autoImplicit false

namespace PocoProxy.ReactorLoop

open PocoProxy.Program PocoProxy.Socket PocoProxy.PollSet PocoProxy.Registry PocoProxy.Reactor
open PocoProxy.Session PocoProxy.Runs

/-! ## The steps of a reactor on sockets that behave -/

/-- What a reading handler gets from its sockets is what they can give. -/
def SocketsOk (m : Machine) : Label → Prop
  | .notify o =>
    ∀ x ∈ m.calledSession, ∀ d ∈ readSide x.2, x.1.session.m_back_connected = true →
      DataOk x.1.session d o
  | _ => True

instance (m : Machine) : (l : Label) → Decidable (SocketsOk m l)
  | .notify o => inferInstanceAs (Decidable (∀ x ∈ m.calledSession, ∀ d ∈ readSide x.2,
      x.1.session.m_back_connected = true → DataOk x.1.session d o))
  | .stop | .poll _ | .idle | .shutdown | .dispatch | .broadcast _ | .skip | .accept _
  | .arrive .. | .connectDone .. => .isTrue trivial

def PocoStep (m : Machine) (l : Label) (m' : Machine) : Prop := Step m l m' ∧ SocketsOk m l

/-! ## One step, seen from a session -/

/-- A session that is there before and after a step has made a step of its own, and
only a session with handlers has been notified. -/
def Stepped (m m' : Machine) (c c' : Cell) : Prop :=
  ∃ e, Session.Step (c.world m.reactor) e (c'.world m'.reactor) ∧
    ∀ method o, e = .notify method o → targets m.reactor c.session.m_front.id ≠ []

/-- A session that has come with the step is what `createServiceHandler` has left. -/
def Arrived (m m' : Machine) (i : ℕ) (c' : Cell) : Prop :=
  ∃ a, AcceptOk m a ∧ i = m.sessions.length ∧
    (createServiceHandler a.setup a.outcomes (.session i) (m.acceptConnection a.sockfd)
      (m.nextSocket + 1) m.reactor).2 = some (c'.world m'.reactor)

/-- Nothing has happened to the session, whatever has happened to the registry. -/
theorem stepped_elsewhere (m m' : Machine) (c : Cell) : Stepped m m' c c :=
  ⟨.elsewhere m'.reactor, ⟨trivial, rfl⟩, fun _ _ h => by cases h⟩

theorem getElem?_set_cases {cells : List Cell} {i j : ℕ} {c c' x : Cell}
    (hc : cells[i]? = some c) (hx : (cells.set i c')[j]? = some x) :
    j = i ∧ x = c' ∨ j ≠ i ∧ cells[j]? = some x := by
  by_cases hj : j = i
  · rw [hj, List.getElem?_set_self (List.getElem?_eq_some_iff.mp hc).1, Option.some.injEq] at hx
    exact .inl ⟨hj, hx.symm⟩
  · rw [List.getElem?_set_ne (Ne.symm hj)] at hx
    exact .inr ⟨hj, hx⟩

/-- A step that leaves the sessions as they are. -/
theorem sessions_same {m m' : Machine} (hsessions : m'.sessions = m.sessions) {i : ℕ} {c' : Cell}
    (hc' : m'.sessions[i]? = some c') :
    (∃ c, m.sessions[i]? = some c ∧ Stepped m m' c c') ∨ Arrived m m' i c' := by
  rw [hsessions] at hc'
  exact .inl ⟨c', hc', stepped_elsewhere m m' c'⟩

/-- A session's own event. -/
theorem onSession_stepped {m : Machine} {i : ℕ} {c : Cell} (hc : m.sessions[i]? = some c)
    {e : Event} (hadm : Session.Admissible (c.world m.reactor) e)
    (he : ∀ method o, e ≠ .notify method o) {j : ℕ} {c' : Cell}
    (hc' : (m.onSession i fun w => Session.step w e).sessions[j]? = some c') :
    ∃ c, m.sessions[j]? = some c ∧
      Stepped m (m.onSession i fun w => Session.step w e) c c' := by
  have heq : m.onSession i (fun w => Session.step w e) = { m with
      sessions := m.sessions.set i (.ofWorld (Session.step (c.world m.reactor) e))
      reactor := (Session.step (c.world m.reactor) e).reactor } := by
    unfold Machine.onSession
    rw [hc]
  rw [heq] at hc' ⊢
  rcases getElem?_set_cases hc hc' with ⟨rfl, rfl⟩ | ⟨-, hold⟩
  · exact ⟨c, hc, e, ⟨hadm, rfl⟩, fun method o h => absurd h (he method o)⟩
  · exact ⟨c', hold, stepped_elsewhere _ _ _⟩

/-- The session that is notified has run its handler; for the others it has happened
elsewhere. -/
theorem onNotify_stepped {m : Machine} (h : m.Safe) {i : ℕ} {method : Method} {o : Outcomes}
    (hcall : m.nextCall = some ⟨.session i, method⟩) (hok : SocketsOk m (.notify o)) {j : ℕ}
    {c' : Cell} (hc' : (m.onNotify i method o).sessions[j]? = some c') :
    ∃ c, m.sessions[j]? = some c ∧ Stepped m (m.onNotify i method o) c c' := by
  obtain ⟨c, hc, halive, ⟨d, hmethod⟩, hall⟩ := h.alive hcall
  have heq : m.onNotify i method o = { m with
      sessions := m.sessions.set i (.ofWorld (handler method o (c.world m.reactor)).2)
      reactor := (handler method o (c.world m.reactor)).2.reactor
      observersToNotify := remaining (handler method o (c.world m.reactor)).1
        m.observersToNotify.tail } := by
    unfold Machine.onNotify
    rw [hc]
  rw [heq] at hc' ⊢
  rcases getElem?_set_cases hc hc' with ⟨rfl, rfl⟩ | ⟨-, hold⟩
  · refine ⟨c, hc, .notify method o, ⟨⟨halive, ne_onAccept_of_mem hmethod, ?_⟩, rfl⟩, ?_⟩
    · intro d' hd'
      exact hok _ (Machine.calledSession_eq hcall hc) d' hd'
    · intro _ _ _ hnil
      cases (hall .front).symm.trans hnil
  · exact ⟨c', hold, stepped_elsewhere _ _ _⟩

/-- `onAccept` adds a session or none. -/
theorem onAccept_stepped {m : Machine} {a : Accepted} (hok : AcceptOk m a) {j : ℕ} {c' : Cell}
    (hc' : (m.onAccept a).sessions[j]? = some c') :
    (∃ c, m.sessions[j]? = some c ∧ Stepped m (m.onAccept a) c c') ∨
      Arrived m (m.onAccept a) j c' := by
  unfold Machine.onAccept at hc' ⊢
  rcases hcreate : createServiceHandler a.setup a.outcomes (.session m.sessions.length)
      (m.acceptConnection a.sockfd) (m.nextSocket + 1) m.reactor with ⟨result, session⟩
  rw [hcreate] at hc'
  cases session with
  | none => exact .inl ⟨c', hc', stepped_elsewhere _ _ _⟩
  | some w =>
      change (m.sessions ++ [Cell.ofWorld w])[j]? = some c' at hc'
      by_cases hj : j < m.sessions.length
      · rw [List.getElem?_append_left hj] at hc'
        exact .inl ⟨c', hc', stepped_elsewhere _ _ _⟩
      · have hlt := (List.getElem?_eq_some_iff.mp hc').1
        rw [List.length_append, List.length_singleton] at hlt
        have hj' : j = m.sessions.length := by omega
        rw [hj', List.getElem?_concat_length, Option.some.injEq] at hc'
        subst hj' hc'
        refine .inr ⟨a, hok, rfl, ?_⟩
        rw [hcreate]
        rfl

/-- **The step lemma**: each session that is there after a step has made a step of its
own or has just come. -/
theorem step_stepped {m m' : Machine} {l : Label} (h : m.Safe) (hstep : PocoStep m l m') {i : ℕ}
    {c' : Cell} (hc' : m'.sessions[i]? = some c') :
    (∃ c, m.sessions[i]? = some c ∧ Stepped m m' c c') ∨ Arrived m m' i c' := by
  obtain ⟨⟨hadm, rfl⟩, hok⟩ := hstep
  cases l with
  | stop => exact sessions_same (m := m) rfl hc'
  | poll result =>
      have hsame : (step m (.poll result)).sessions = m.sessions := rfl
      exact sessions_same hsame hc'
  | idle => exact sessions_same (m := m) rfl hc'
  | shutdown => exact sessions_same (m := m) rfl hc'
  | dispatch =>
      refine sessions_same (m := m) ?_ hc'
      unfold step
      dsimp only
      split
      · split <;> rfl
      · rfl
      · rfl
  | broadcast delegates =>
      refine sessions_same (m := m) ?_ hc'
      unfold step
      dsimp only
      split <;> rfl
  | skip => exact sessions_same (m := m) rfl hc'
  | accept connection =>
      cases connection with
      | none => exact sessions_same (m := m) rfl hc'
      | some a => exact onAccept_stepped (hadm.2 a rfl) hc'
  | notify o =>
      -- the calls on the acceptor are no notifications of this kind
      rcases hcall : m.nextCall with _ | ⟨_ | j, method⟩
      · rw [Admissible, hcall] at hadm
        cases hadm
      · rw [Admissible, hcall] at hadm
        cases hadm
      · have heq : step m (.notify o) = m.onNotify j method o := by
          unfold step
          rw [hcall]
        rw [heq] at hc' ⊢
        exact .inl (onNotify_stepped h hcall hok hc')
  | arrive j d bs =>
      obtain ⟨c, hj⟩ : ∃ c, m.sessions[j]? = some c := ⟨_, List.getElem?_eq_getElem hadm⟩
      exact .inl (onSession_stepped (e := .arrive d bs) hj trivial (fun _ _ h => by cases h) hc')
  | connectDone j status =>
      obtain ⟨c, hc, hpending⟩ := Option.map_eq_some_iff.mp hadm.1
      exact .inl (onSession_stepped (e := .connectDone status) hc ⟨hpending, hadm.2⟩
        (fun _ _ h => by cases h) hc')

/-! ## A whole run, seen from a session -/

/-- A run of its own has brought the session about: it starts with what
`createServiceHandler` has left, and if that is not registered, the reactor has no
handlers of it and notifies it of nothing. -/
def Simulated (m : Machine) (i : ℕ) (c : Cell) : Prop :=
  ∃ (u : Setup) (o : Outcomes) (front : SocketImpl) (backId : SocketId) (r : SocketReactor)
    (w : World) (ts : List (Transition World Event)),
    FrontOk front ∧ (createServiceHandler u o (.session i) front backId r).2 = some w ∧
      IsRun Session.Step w ts ∧ last w ts = c.world m.reactor ∧
      (¬ Registers u → targets m.reactor c.session.m_front.id = [] ∧
        ∀ t ∈ ts, ∀ method o, t.label ≠ .notify method o)

/-- What a step does to the handlers of a socket that exists: it leaves them there, or takes
them all out, but not the acceptor's. -/
theorem targets_step {m m' : Machine} {l : Label} (h : m.Safe) (hstep : Step m l m')
    {s : SocketId} (hs : s < m.nextSocket) :
    targets m'.reactor s = targets m.reactor s ∨ targets m'.reactor s = [] ∧ s ≠ m.server.id := by
  cases step_effect h hstep with
  | quiet hclose hserver hnext hfaces hreactor hsnapshot => exact .inl (by rw [hreactor])
  | polled hclose hserver hnext hfaces hreactor hsnapshot =>
      left
      rw [hreactor]
      rfl
  | unregistered f hclose hnew hopen hserver hnext hfaces hreactor hsnapshot =>
      exact .inl (by rw [hreactor])
  | refused hclose hserver hnext hfaces hreactor hsnapshot => exact .inl (by rw [hreactor])
  | torn i w hclose hserver hnext hw halive hold hall hfaces hreactor hsnapshot =>
      -- the two sockets of the session lose all their handlers
      rw [hreactor, (h.torn_becomes hw hold hall).view]
      by_cases hback : s = w.session.m_back.id
      · rw [hback, Function.update_self]
        exact .inr ⟨rfl, (h.socket_lt i _ .back hw).1⟩
      · rw [Function.update_of_ne hback]
        by_cases hfront : s = w.session.m_front.id
        · rw [hfront, Function.update_self]
          exact .inr ⟨rfl, (h.socket_lt i _ .front hw).1⟩
        · rw [Function.update_of_ne hfront]
          exact .inl rfl
  | registered a status service w hclose hok hconnect hw hserver hnext hfaces hreactor hsnapshot =>
      left
      rw [hreactor, hw, (h.started_becomes a.sockfd a.setup.backFd status service _).view,
        update_pair_of_lt hs]

/-- A socket without handlers gets none by a step, unless it is a new one. -/
theorem targets_nil_step {m m' : Machine} {l : Label} (h : m.Safe) (hstep : Step m l m')
    {s : SocketId} (hs : s < m.nextSocket) (hnil : targets m.reactor s = []) :
    targets m'.reactor s = [] := by
  rcases targets_step h hstep hs with heq | ⟨hgone, -⟩
  · rw [heq, hnil]
  · exact hgone

/-- The sockets of a session stay the same objects. -/
theorem socket_id_step {w w' : World} {e : Event} (hstep : Session.Step w e w') (d : Side) :
    (w'.session.socket d).id = (w.session.socket d).id := by
  obtain ⟨hadm, rfl⟩ := hstep
  have hface : ∀ {v : World}, SameFace w v → (v.session.socket d).id = (w.session.socket d).id :=
    fun hv => congrArg (fun f : Face => f.socket d) hv.1
  cases e with
  | arrive d' bs => exact hface (arrive_sameFace w d' bs)
  | connectDone status => exact hface (connectDone_sameFace w status)
  | elsewhere r => rfl
  | notify method o =>
      rw [step_notify hadm.1]
      rcases handle_face method o w with ⟨-, hv⟩ | ⟨-, v, hv, heq⟩
      · exact hface hv
      · rw [heq, ← hface hv]
        exact congrArg (fun f : Face => f.socket d) (torn_face v)

/-- A session that has just come has had no run yet. -/
theorem Arrived.simulated {m m' : Machine} (h : m.Safe) {i : ℕ} {c' : Cell}
    (harrived : Arrived m m' i c') : Simulated m' i c' := by
  obtain ⟨a, hok, rfl, hcreate⟩ := harrived
  have hfront : FrontOk (m.acceptConnection a.sockfd) := ⟨hok.1.1, rfl, rfl, rfl, rfl⟩
  refine ⟨_, _, _, _, _, _, [], hfront, hcreate, trivial, rfl, ?_⟩
  intro hreg
  refine ⟨?_, fun t ht => by cases ht⟩
  have hfree : targets m.reactor m.nextSocket = [] := h.targets_new le_rfl
  rcases createServiceHandler_leaves hcreate with
    ⟨status, service, hservice, hconnect, -⟩ | ⟨-, heq | ⟨service, heq⟩⟩
  · exact absurd ⟨⟨service, hservice⟩, status, hconnect⟩ hreg
  · have hreactor : m'.reactor = m.reactor := congrArg World.reactor heq
    have hid : c'.session.m_front.id = m.nextSocket :=
      congrArg (fun w : World => w.session.m_front.id) heq
    rw [hreactor, hid, hfree]
  · have hreactor : m'.reactor = m.reactor := congrArg World.reactor heq
    have hid : c'.session.m_front.id = m.nextSocket :=
      congrArg (fun w : World => w.session.m_front.id) heq
    rw [hreactor, hid, hfree]

/-- A step of the reactor adds at most one step to the run of a session. -/
theorem Simulated.step {m m' : Machine} {l : Label} (h : m.Safe) (hstep : PocoStep m l m') {i : ℕ}
    {c c' : Cell} (hc : m.sessions[i]? = some c) (hsim : Simulated m i c)
    (hstepped : Stepped m m' c c') : Simulated m' i c' := by
  obtain ⟨u, o, front, backId, r, w, ts, hfront, hcreate, hrun, hlast, hnot⟩ := hsim
  obtain ⟨e, he, hcalled⟩ := hstepped
  have hrun' := isRun_concat hrun (hlast ▸ he)
  refine ⟨u, o, front, backId, r, w, _, hfront, hcreate, hrun', last_concat w ts _, ?_⟩
  intro hreg
  obtain ⟨hnil, hquiet⟩ := hnot hreg
  constructor
  · -- the front socket is still the same one
    have hid : c'.session.m_front.id = c.session.m_front.id := socket_id_step he .front
    have hlt := (h.socket_lt i _ .front (Machine.faces_of_some hc)).2
    rw [hid]
    exact targets_nil_step h hstep.1 hlt hnil
  · intro t ht method o' heq
    rcases List.mem_append.mp ht with ht | ht
    · exact hquiet t ht method o' heq
    · rw [List.mem_singleton] at ht
      subst ht
      exact hcalled method o' heq hnil

/-- **Every session on a reactor has gone through a run of its own.** -/
theorem sessions_simulated (sockfd : Fd) {ts : List (Transition Machine Label)}
    (hrun : IsRun PocoStep (Machine.listening sockfd) ts) :
    ∀ m ∈ states (Machine.listening sockfd) ts, ∀ (i : ℕ) c, m.sessions[i]? = some c →
      Simulated m i c := by
  have hstep : ∀ m l m', (m.Safe ∧ ∀ (i : ℕ) c, m.sessions[i]? = some c → Simulated m i c) →
      PocoStep m l m' → m'.Safe ∧ ∀ (i : ℕ) c, m'.sessions[i]? = some c → Simulated m' i c := by
    rintro m l m' ⟨hsafe, hsim⟩ hstep
    refine ⟨safe_step hsafe hstep.1, ?_⟩
    intro i c' hc'
    rcases step_stepped hsafe hstep hc' with ⟨c, hc, hstepped⟩ | harrived
    · exact (hsim i c hc).step hsafe hstep hc hstepped
    · exact harrived.simulated hsafe
  have hstart : (Machine.listening sockfd).Safe ∧ ∀ (i : ℕ) c,
      (Machine.listening sockfd).sessions[i]? = some c →
        Simulated (Machine.listening sockfd) i c :=
    ⟨listening_safe sockfd, fun i c hc => by cases hc⟩
  have hall := invariant_states
    (I := fun m => m.Safe ∧ ∀ (i : ℕ) c, m.sessions[i]? = some c → Simulated m i c)
    hstep hstart hrun
  exact fun m hm => (hall m hm).2

/-- **The rule for all sessions.** What `createServiceHandler` always leaves, and every step of
a session keeps, holds of every session on a reactor. -/
theorem invariant_sessions {P : World → Prop} (hP : Invariant P)
    (hcreate : ∀ u o this front backId r w, FrontOk front →
      (createServiceHandler u o this front backId r).2 = some w → P w)
    (sockfd : Fd) {ts : List (Transition Machine Label)}
    (hrun : IsRun PocoStep (Machine.listening sockfd) ts) :
    ∀ m ∈ states (Machine.listening sockfd) ts, ∀ c ∈ m.sessions, P (c.world m.reactor) := by
  intro m hm c hc
  obtain ⟨i, hi⟩ := List.getElem?_of_mem hc
  obtain ⟨u, o, front, backId, r, w, ts', hfront, hw, hrun', hlast, -⟩ :=
    sessions_simulated sockfd hrun m hm i c hi
  have hstart : P w := hcreate _ _ _ _ _ _ _ hfront hw
  have hall := invariant_states (I := P) (fun _ _ _ h hstep => hP.step h hstep) hstart hrun'
  exact hlast ▸ hall _ (last_mem_states w ts')

/-! ## The callbacks of all services -/

/-- **The order of the callbacks.** In every run of the reactor, whatever is thrown,
the calls on a service are at every time the beginning of a `CallbackWord`. -/
theorem callback_order (sockfd : Fd) {ts : List (Transition Machine Label)}
    (hrun : IsRun PocoStep (Machine.listening sockfd) ts) :
    ∀ m ∈ states (Machine.listening sockfd) ts, ∀ c ∈ m.sessions, ∀ v,
      c.session.m_service = some v →
        (∃ word, CallbackWord word ∧ v.trace <+: word) ∧
          ∀ e, ¬ IsData e → v.trace.count e ≤ 1 := by
  intro m hm c hc v hv
  obtain ⟨i, hi⟩ := List.getElem?_of_mem hc
  obtain ⟨u, o, front, backId, r, w, ts', -, hcreate, hrun', hlast, hnot⟩ :=
    sessions_simulated sockfd hrun m hm i c hi
  have hmem : c.world m.reactor ∈ states w ts' := hlast ▸ last_mem_states w ts'
  exact order_of_run hcreate hrun' (fun hreg => (hnot hreg).2) _ hmem v hv

/-- A user's class: a data callback throws, the `Close` that follows is stopped by
its log statement, another data callback comes, and no end. -/
def interrupted : List Label :=
  [.poll (some [(0, ⟨true, false, false⟩)]), .dispatch,
   .accept (some ⟨5, sampleSetup .custom, {}⟩), .connectDone 0 .succeeded, .arrive 0 .front [1, 2],
   .poll (some [(2, ⟨false, true, false⟩), (1, ⟨true, false, false⟩)]),
   .dispatch, .notify {}, .skip, .skip, .skip,
   .dispatch, .notify
     { receive := .bytes 1 [], callback := some .poco,
       logging := true, peerFails := (· == .closingFront) },
   .poll (some [(1, ⟨true, false, false⟩)]), .dispatch, .notify { receive := .bytes 2 [] }]

theorem allowed_interrupted :
    Allowed (fun m l => Admissible m l ∧ SocketsOk m l) step (Machine.listening 3) interrupted := by
  decide +kernel

theorem isRun_interrupted :
    IsRun PocoStep (Machine.listening 3) (unroll step (Machine.listening 3) interrupted) :=
  (isRun_unroll allowed_interrupted).imp fun _ _ _ h => ⟨⟨h.1.1, h.2⟩, h.1.2⟩

theorem callback_order_interrupted :
    IsRun PocoStep (Machine.listening 3) (unroll step (Machine.listening 3) interrupted) ∧
      ∀ m ∈ states (Machine.listening 3) (unroll step (Machine.listening 3) interrupted),
        ∀ c ∈ m.sessions, ∀ v, c.session.m_service = some v →
          (∃ word, CallbackWord word ∧ v.trace <+: word) ∧
            ∀ e, ¬ IsData e → v.trace.count e ≤ 1 :=
  ⟨isRun_interrupted, callback_order 3 isRun_interrupted⟩

end PocoProxy.ReactorLoop
