/-
What has become of every session.

When no log statement on a way to `Close` throws, there are three things that can have
become of a session: it is open and registered, it has been torn down, or it has never been
registered, because setting it up has failed. Every step of the reactor keeps it so
(`account_step`).

The broadcast of `onShutdown` then finds nobody whom it could not close. When `run` returns,
only the acceptor is registered, and every session has been torn down unless it was stranded
before (`Settled.finished`).
-/
import PocoProxy.Isolation
import PocoProxy.Shutdown

set_option autoImplicit false

namespace PocoProxy.ReactorLoop

open PocoProxy.Program PocoProxy.Socket PocoProxy.PollSet PocoProxy.Registry PocoProxy.Reactor
open PocoProxy.Session PocoProxy.Runs

/-! ## The account of a session -/

/-- A session that a failed setup has left behind: nobody will call or delete it. -/
structure Stranded (w : World) : Prop where
  alive : w.Alive
  opened : w.session.m_closed = false
  unknown : targets w.reactor w.session.m_front.id = []
  silent : ∀ v, w.session.m_service = some v → v.trace = []

/-- What can have become of a session. -/
inductive Account (w : World) : Prop
  | serving (horderly : Orderly w) (halive : w.Alive) (hopen : w.session.m_closed = false)
      (hregistered : targets w.reactor w.session.m_front.id ≠ [])
  | gone (horderly : Orderly w) (htorn : TornDown w)
  | stranded (hstranded : Stranded w)

/-- No log statement on a way to `Close` throws. -/
def LogsPassing (m : Machine) : Label → Prop
  | .notify o => ∀ x ∈ m.calledSession, LogsPass (x.1.world m.reactor) (.notify x.2 o)
  | _ => True

/-- The steps of a reactor in which no such log statement throws. -/
def PassingStep (m : Machine) (l : Label) (m' : Machine) : Prop :=
  PocoStep m l m' ∧ LogsPassing m l

instance (w : World) (method : Method) (o : Outcomes) :
    Decidable (LogsPass w (.notify method o)) :=
  inferInstanceAs (Decidable (∀ way ∈ wayToClose method o w.session,
    handlerLogPasses o w.session way = true ∧ closeLogThrows o w.session = false))

instance (m : Machine) : (l : Label) → Decidable (LogsPassing m l)
  | .notify o => inferInstanceAs (Decidable (∀ x ∈ m.calledSession,
      LogsPass (x.1.world m.reactor) (.notify x.2 o)))
  | .stop | .poll _ | .idle | .shutdown | .dispatch | .broadcast _ | .skip | .accept _
  | .arrive .. | .connectDone .. => .isTrue trivial

/-! ## One step -/

/-- The step of its own that a session makes in a step of the reactor: a handler of it runs only
if the reactor calls it. -/
def OwnStep (m : Machine) (l : Label) (m' : Machine) (c c' : Cell) : Prop :=
  ∃ e, Session.Step (c.world m.reactor) e (c'.world m'.reactor) ∧
    ∀ method o, e = .notify method o → l = .notify o ∧ m.calledSession = some (c, method) ∧
      targets m.reactor c.session.m_front.id ≠ []

theorem ownStep_elsewhere (m : Machine) (l : Label) (m' : Machine) (c : Cell) :
    OwnStep m l m' c c :=
  ⟨.elsewhere m'.reactor, ⟨trivial, rfl⟩, fun _ _ h => by cases h⟩

/-- The session of index `j` makes the step, and for the others it happens elsewhere. -/
theorem ownStep_of_set {m m' : Machine} {l : Label} {j : ℕ} {cj : Cell} {e : Event}
    (hj : m.sessions[j]? = some cj)
    (hsessions : m'.sessions
      = m.sessions.set j (.ofWorld (Session.step (cj.world m.reactor) e)))
    (hreactor : m'.reactor = (Session.step (cj.world m.reactor) e).reactor)
    (hadm : Session.Admissible (cj.world m.reactor) e)
    (hcalled : ∀ method o, e = .notify method o → l = .notify o ∧
      m.calledSession = some (cj, method) ∧ targets m.reactor cj.session.m_front.id ≠ [])
    {i : ℕ} {c c' : Cell} (hc : m.sessions[i]? = some c) (hc' : m'.sessions[i]? = some c') :
    OwnStep m l m' c c' := by
  rw [hsessions] at hc'
  rcases getElem?_set_cases hj hc' with ⟨rfl, rfl⟩ | ⟨-, hold⟩
  · obtain rfl := Option.some.inj (hc.symm.trans hj)
    refine ⟨e, ⟨hadm, ?_⟩, hcalled⟩
    rw [hreactor]
    rfl
  · obtain rfl := Option.some.inj (hc.symm.trans hold)
    exact ownStep_elsewhere m l m' c

/-- **What a step of the reactor is for a session.** -/
theorem ownStep {m m' : Machine} {l : Label} (h : m.Safe) (hstep : PocoStep m l m') {i : ℕ}
    {c c' : Cell} (hc : m.sessions[i]? = some c) (hc' : m'.sessions[i]? = some c') :
    OwnStep m l m' c c' := by
  obtain ⟨⟨hadm, rfl⟩, hok⟩ := hstep
  have hsame : (step m l).sessions = m.sessions → OwnStep m l (step m l) c c' := by
    intro heq
    rw [heq] at hc'
    obtain rfl := Option.some.inj (hc.symm.trans hc')
    exact ownStep_elsewhere m l _ c
  cases l with
  | arrive j d bs =>
      obtain ⟨cj, hj⟩ : ∃ cj, m.sessions[j]? = some cj := ⟨_, List.getElem?_eq_getElem hadm⟩
      refine ownStep_of_set (e := .arrive d bs) hj (onSession_sessions hj _) ?_ trivial
        (fun _ _ he => by cases he) hc hc'
      change (m.onSession j _).reactor = _
      unfold Machine.onSession
      rw [hj]
  | connectDone j status =>
      obtain ⟨cj, hj, hpending⟩ := Option.map_eq_some_iff.mp hadm.1
      refine ownStep_of_set (e := .connectDone status) hj (onSession_sessions hj _) ?_
        ⟨hpending, hadm.2⟩ (fun _ _ he => by cases he) hc hc'
      change (m.onSession j _).reactor = _
      unfold Machine.onSession
      rw [hj]
  | notify o =>
      rcases hcall : m.nextCall with _ | ⟨_ | j, method⟩
      · rw [Admissible, hcall] at hadm
        cases hadm
      · rw [Admissible, hcall] at hadm
        cases hadm
      · obtain ⟨cj, hj, halive, ⟨d, hmethod⟩, hall⟩ := h.alive hcall
        have hcalled := Machine.calledSession_eq hcall hj
        have heq : step m (.notify o) = m.onNotify j method o := by
          unfold step
          rw [hcall]
        rw [heq] at hc' ⊢
        refine ownStep_of_set (e := .notify method o) hj (onNotify_sessions hj method o) ?_
          ⟨halive, ne_onAccept_of_mem hmethod, fun d' hd' => hok _ hcalled d' hd'⟩ ?_ hc hc'
        · unfold Machine.onNotify
          rw [hj]
          rfl
        · rintro _ _ ⟨rfl, rfl⟩
          refine ⟨rfl, hcalled, fun hnil => ?_⟩
          exact sideTargets_ne_nil _ _ ((hall .front).symm.trans hnil)
  | accept connection =>
      cases connection with
      | none => exact hsame rfl
      | some a =>
          obtain ⟨cells, hcells, -⟩ := onAccept_sessions m a
          change (m.onAccept a).sessions[i]? = some c' at hc'
          rw [hcells, List.getElem?_append_left (List.getElem?_eq_some_iff.mp hc).1] at hc'
          obtain rfl := Option.some.inj (hc.symm.trans hc')
          exact ownStep_elsewhere m _ _ c
  | _ => exact hsame (sessions_of_quiet (by simp) (by simp) (by simp) (by simp))

/-- A session loses its handlers only when it is torn down. -/
theorem registered_step {m m' : Machine} {l : Label} (h : m.Safe) (hstep : Step m l m') {i : ℕ}
    {c c' : Cell} (hc : m.sessions[i]? = some c) (hc' : m'.sessions[i]? = some c')
    (halive : c'.deletions = 0) (hregistered : targets m.reactor c.session.m_front.id ≠ []) :
    targets m'.reactor c.session.m_front.id ≠ [] := by
  have hlt : c.session.m_front.id < m.nextSocket :=
    (h.socket_lt i _ .front (Machine.faces_of_some hc)).2
  cases step_effect h hstep with
  | quiet hclose hserver hnext hfaces hreactor hsnapshot => exact hreactor ▸ hregistered
  | polled hclose hserver hnext hfaces hreactor hsnapshot =>
      rw [hreactor]
      exact hregistered
  | unregistered f hclose hnew hopen hserver hnext hfaces hreactor hsnapshot =>
      exact hreactor ▸ hregistered
  | refused hclose hserver hnext hfaces hreactor hsnapshot => exact hreactor ▸ hregistered
  | torn j w hclose hserver hnext hw hwalive hold hall hfaces hreactor hsnapshot =>
      by_cases hji : j = i
      · -- it is this one, and has been deleted
        subst hji
        have hface := Machine.faces_of_some hc'
        rw [hfaces, List.getElem?_set_self (List.getElem?_eq_some_iff.mp hw).1,
          Option.some.injEq] at hface
        have hdel : w.deletions + 1 = c'.deletions := congrArg Face.deletions hface
        omega
      · have hother : ∀ d, c.session.m_front.id ≠ (w.session.socket d).id := by
          intro d heq
          exact hji (h.socket_inj i j _ _ .front d (Machine.faces_of_some hc) hw heq).1.symm
        have hback : c.session.m_front.id ≠ w.session.m_back.id := hother .back
        have hfront : c.session.m_front.id ≠ w.session.m_front.id := hother .front
        rw [hreactor, (h.torn_becomes hw hold hall).view, Function.update_of_ne hback,
          Function.update_of_ne hfront]
        exact hregistered
  | registered a status service w hclose hok hconnect hw hserver hnext hfaces hreactor hsnapshot =>
      rw [hreactor, hw, (h.started_becomes a.sockfd a.setup.backFd status service _).view,
        update_pair_of_lt hlt]
      exact hregistered

/-- What happens between the handlers leaves a stranded session stranded. -/
theorem Stranded.step {w w' : World} {e : Event} (h : Stranded w)
    (hstep : Session.Step w e w') (hnot : ∀ method o, e ≠ .notify method o)
    (hunknown : targets w'.reactor w.session.m_front.id = []) : Stranded w' := by
  obtain ⟨hadm, rfl⟩ := hstep
  cases e with
  | notify method o => exact absurd rfl (hnot method o)
  | arrive d bs => cases d <;> exact ⟨h.alive, h.opened, hunknown, h.silent⟩
  | connectDone status => exact ⟨h.alive, h.opened, hunknown, h.silent⟩
  | elsewhere r => exact ⟨h.alive, h.opened, hunknown, h.silent⟩

theorem closed_of_not_notify {w w' : World} {e : Event} (hstep : Session.Step w e w')
    (hnot : ∀ method o, e ≠ .notify method o) : w'.session.m_closed = w.session.m_closed := by
  obtain ⟨hadm, rfl⟩ := hstep
  cases e with
  | notify method o => exact absurd rfl (hnot method o)
  | arrive d bs => cases d <;> rfl
  | connectDone status => rfl
  | elsewhere r => rfl

/-- **The step lemma** for a session that is there. -/
theorem account_step {m m' : Machine} {l : Label} (h : m.Safe) (hstep : PassingStep m l m')
    {i : ℕ} {c c' : Cell} (hc : m.sessions[i]? = some c) (hc' : m'.sessions[i]? = some c')
    (haccount : Account (c.world m.reactor)) : Account (c'.world m'.reactor) := by
  obtain ⟨hstep, hlogs⟩ := hstep
  obtain ⟨e, he, hcalled⟩ := ownStep h hstep hc hc'
  have hpass : LogsPass (c.world m.reactor) e := by
    cases e with
    | notify method o =>
        obtain ⟨rfl, hmem, -⟩ := hcalled method o rfl
        exact hlogs _ hmem
    | _ => trivial
  have horderly' : Orderly (c.world m.reactor) → Orderly (c'.world m'.reactor) := by
    intro horderly
    refine ⟨sound_invariant.step horderly.1 he, inOrder_invariant.step horderly.2.1 he, ?_⟩
    exact ((step_allOrNothing_iff horderly he).mpr hpass).1
  cases haccount with
  | serving horderly halive hopen hregistered =>
      have hnext := horderly' horderly
      rcases hnext.2.2 with hopen' | htorn
      · have halive' : (c'.world m'.reactor).Alive := by
          by_contra hdead
          rw [hnext.1.closed hdead] at hopen'
          cases hopen'
        have hid : c'.session.m_front.id = c.session.m_front.id := socket_id_step he .front
        refine .serving hnext halive' hopen' ?_
        rw [show (c'.world m'.reactor).session.m_front.id = _ from hid]
        exact registered_step h hstep.1 hc hc' halive' hregistered
      · exact .gone hnext htorn
  | gone horderly htorn =>
      -- what has been deleted is not called
      have hnot : ∀ method o, e ≠ .notify method o := by
        rintro method o rfl
        have halive : (c.world m.reactor).deletions = 0 := he.1.1
        rw [htorn.deleted] at halive
        cases halive
      have hnext := horderly' horderly
      rcases hnext.2.2 with hopen' | htorn'
      · rw [closed_of_not_notify he hnot, htorn.closed] at hopen'
        cases hopen'
      · exact .gone hnext htorn'
  | stranded hstranded =>
      -- nor is what is not registered
      have hnot : ∀ method o, e ≠ .notify method o :=
        fun method o heq => (hcalled method o heq).2.2 hstranded.unknown
      have hlt := (h.socket_lt i _ .front (Machine.faces_of_some hc)).2
      exact .stranded
        (hstranded.step he hnot (targets_nil_step h hstep.1 hlt hstranded.unknown))

/-- A session that has just come is registered, or stranded. -/
theorem Arrived.account {m m' : Machine} (h : m.Safe) {i : ℕ} {c' : Cell}
    (harrived : Arrived m m' i c') : Account (c'.world m'.reactor) := by
  obtain ⟨a, hok, rfl, hcreate⟩ := harrived
  have hfree : targets m.reactor m.nextSocket = [] := h.targets_new le_rfl
  generalize c'.world m'.reactor = w at hcreate ⊢
  rcases createServiceHandler_leaves hcreate with
    ⟨status, service, hservice, hconnect, rfl⟩ | ⟨-, rfl | ⟨service, rfl⟩⟩
  · have hfront : FrontOk (m.acceptConnection a.sockfd) := ⟨hok.1.1, rfl, rfl, rfl, rfl⟩
    have hback := hok.2.2
    rw [hconnect] at hback
    refine .serving (started_orderly ?_) rfl rfl ?_
    · exact ⟨_, _, _, _, _, _, _, hfront, hback.1, hback.2, rfl⟩
    · change targets _ m.nextSocket ≠ []
      rw [(h.started_becomes a.sockfd a.setup.backFd status service _).view, update_pair_front]
      exact sideTargets_ne_nil _ _
  · exact .stranded ⟨rfl, rfl, hfree, fun v hv => by cases hv⟩
  · refine .stranded ⟨rfl, rfl, hfree, fun v hv => ?_⟩
    obtain ⟨kind, -, rfl⟩ := Option.map_eq_some_iff.mp hv
    rfl

/-- Each session on the reactor has an account. -/
def Accounts (m : Machine) : Prop :=
  ∀ (i : ℕ) c, m.sessions[i]? = some c → Account (c.world m.reactor)

theorem accounts_step {m m' : Machine} {l : Label} (h : m.Safe) (haccounts : Accounts m)
    (hstep : PassingStep m l m') : Accounts m' := by
  intro i c' hc'
  rcases step_stepped h hstep.1 hc' with ⟨c, hc, -⟩ | harrived
  · exact account_step h hstep hc hc' (haccounts i c hc)
  · exact harrived.account h

/-- A live session is open, and its service has been called in order. -/
theorem Accounts.live {m : Machine} (h : Accounts m) {i : ℕ} {c : Cell}
    (hc : m.sessions[i]? = some c) (hlive : m.Live c) :
    c.session.m_closed = false ∧ InOrder (c.world m.reactor) := by
  cases h i c hc with
  | serving horderly halive hopen hregistered => exact ⟨hopen, horderly.2.1⟩
  | gone horderly htorn =>
      have hdel : c.deletions = 1 := htorn.deleted
      rw [hlive.1] at hdel
      cases hdel
  | stranded hstranded => exact absurd hstranded.unknown hlive.2

/-! ## The end of a reactor -/

/-- The two flags of `run` change by one step each. -/
theorem flags_step (m : Machine) (l : Label) : (l ≠ .stop → (step m l).stop = m.stop) ∧
    (l ≠ .shutdown → (step m l).shuttingDown = m.shuttingDown) := by
  have hsame : ∀ {m' : Machine}, m'.stop = m.stop → m'.shuttingDown = m.shuttingDown →
      (l ≠ .stop → m'.stop = m.stop) ∧ (l ≠ .shutdown → m'.shuttingDown = m.shuttingDown) :=
    fun hstop hshutting => ⟨fun _ => hstop, fun _ => hshutting⟩
  have hsession : ∀ j (f : World → World),
      (m.onSession j f).stop = m.stop ∧ (m.onSession j f).shuttingDown = m.shuttingDown := by
    intro j f
    unfold Machine.onSession
    split <;> exact ⟨rfl, rfl⟩
  cases l with
  | stop => exact ⟨fun hne => absurd rfl hne, fun _ => rfl⟩
  | shutdown => exact ⟨fun _ => rfl, fun hne => absurd rfl hne⟩
  | arrive j d bs => exact hsame (hsession j _).1 (hsession j _).2
  | connectDone j status => exact hsame (hsession j _).1 (hsession j _).2
  | dispatch =>
      unfold step
      dsimp only
      split
      · split <;> exact hsame rfl rfl
      · exact hsame rfl rfl
      · exact hsame rfl rfl
  | broadcast delegates =>
      unfold step
      dsimp only
      split <;> exact hsame rfl rfl
  | accept connection =>
      cases connection with
      | none => exact hsame rfl rfl
      | some a =>
          unfold step Machine.onAccept
          dsimp only
          generalize createServiceHandler a.setup a.outcomes (.session m.sessions.length)
            (m.acceptConnection a.sockfd) (m.nextSocket + 1) m.reactor = left
          obtain ⟨result, session⟩ := left
          cases session <;> exact hsame rfl rfl
  | notify o =>
      unfold step
      dsimp only
      split
      · unfold Machine.onNotify
        split <;> exact hsame rfl rfl
      · exact hsame rfl rfl
  | _ => exact hsame rfl rfl

/-- The handlers that the broadcast calls are on a way to `Close`. -/
theorem logsQuiet_of_passing {m : Machine} (hdrain : Draining m) {l : Label}
    (hlogs : LogsPassing m l) : LogsQuiet m l := by
  cases l with
  | notify o =>
      rintro ⟨c, method⟩ hx
      have hkind : method.kind = .shutdown := by
        rcases hcall : m.nextCall with _ | ⟨_ | j, method'⟩
        · rw [Machine.calledSession, hcall] at hx
          cases hx
        · rw [Machine.calledSession, hcall] at hx
          cases hx
        · obtain ⟨c', -, heq⟩ : ∃ c', m.sessions[j]? = some c' ∧ (c', method') = (c, method) := by
            rw [Machine.calledSession, hcall] at hx
            exact Option.map_eq_some_iff.mp hx
          obtain ⟨-, rfl⟩ := Prod.mk.inj heq
          cases hobs : m.observersToNotify with
          | nil =>
              rw [Machine.nextCall, hobs] at hcall
              cases hcall
          | cons ob rest =>
              rw [hdrain.nextCall hobs] at hcall
              split at hcall
              · next hcond =>
                  have haccepts := hcond.2
                  rw [Observer.accepts, Option.some.inj hcall] at haccepts
                  exact beq_iff_eq.mp haccepts
              · cases hcall
      have hway : wayToClose method o c.session = some .notified := by
        cases method <;> first | rfl | cases hkind
      obtain ⟨hlog, hclose⟩ := hlogs _ hx .notified hway
      refine ⟨?_, fun _ => hclose⟩
      rwa [handlerLogPasses, Bool.not_eq_true'] at hlog
  | _ => trivial

/-- What holds of a reactor in every state. -/
structure Settled (m : Machine) : Prop where
  safe : m.Safe
  ids : Ids m.reactor
  acceptor : targets m.reactor m.server.id = [Machine.acceptTarget]
  accounts : Accounts m
  /-- The broadcast has begun in some state, and is going on. -/
  drains : m.shuttingDown = true → ∃ m₀, m₀.Safe ∧ Accounts m₀ ∧ Drains m₀ m

theorem settled_listening (sockfd : Fd) : Settled (Machine.listening sockfd) where
  safe := listening_safe sockfd
  ids := listening_ids sockfd
  acceptor := acceptor_listening sockfd
  accounts _ _ h := by cases h
  drains h := by cases h

theorem settled_step {m m' : Machine} {l : Label} (h : Settled m) (hstep : PassingStep m l m') :
    Settled m' where
  safe := safe_step h.safe hstep.1.1
  ids := (ids_step ⟨h.safe, h.ids⟩ hstep.1.1).2
  acceptor := (acceptor_step ⟨h.safe, h.acceptor⟩ hstep.1.1).2
  accounts := accounts_step h.safe h.accounts hstep
  drains hshutting := by
    by_cases hbefore : m.shuttingDown = true
    · obtain ⟨m₀, hsafe₀, haccounts₀, hdrains⟩ := h.drains hbefore
      exact ⟨m₀, hsafe₀, haccounts₀,
        drains_step hdrains ⟨hstep.1, logsQuiet_of_passing hdrains.draining hstep.2⟩⟩
    · obtain ⟨hadm, rfl⟩ := hstep.1.1
      by_cases hl : l = .shutdown
      · subst hl
        exact ⟨m, h.safe, h.accounts, drains_start h.safe h.ids hadm⟩
      · rw [(flags_step m l).2 hl] at hshutting
        exact absurd hshutting hbefore

/-- What is left when `run` has returned. -/
structure Deserted (m : Machine) : Prop where
  /-- Nobody but the acceptor is registered. -/
  others : ∀ s, s ≠ m.server.id → targets m.reactor s = []
  sessions : ∀ c ∈ m.sessions, TornDown (c.world m.reactor) ∨ Stranded (c.world m.reactor)

/-- **The end**: at the end of the broadcast nobody is left. -/
theorem Settled.finished {m : Machine} (h : Settled m) (hshutting : m.shuttingDown = true)
    (hfinished : Finished m) : Deserted m := by
  obtain ⟨m₀, hsafe₀, haccounts₀, hdrains⟩ := h.drains hshutting
  have hdrained : Drained m₀ m := drained_of_finished hdrains hsafe₀ h.acceptor
    (fun i c hc hlive => (haccounts₀.live hc hlive).2) hfinished
  have hopen : ∀ c ∈ m₀.sessions, m₀.Live c → c.session.m_closed = false := by
    intro c hc hlive
    obtain ⟨i, hi⟩ := List.getElem?_of_mem hc
    exact (haccounts₀.live hi hlive).1
  refine ⟨hdrained.others hopen, fun c hc => ?_⟩
  obtain ⟨i, hi⟩ := List.getElem?_of_mem hc
  cases h.accounts i c hi with
  | serving horderly halive hopen' hregistered =>
      exact absurd ⟨halive, hregistered⟩ (hdrained.live hopen c hc)
  | gone horderly htorn => exact .inl htorn
  | stranded hstranded => exact .inr hstranded

end PocoProxy.ReactorLoop
