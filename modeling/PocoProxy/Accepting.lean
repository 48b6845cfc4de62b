/-
What becomes of a connection that cannot be set up.

`createServiceHandler` makes a session with `new`, asks the creator for a service,
connects to the back server, registers the session and calls `OnFrontConnect`. An
exception of the constructor takes the session with it. A later one leaves the
function, and nobody deletes what has been made (`accept_released_iff`).

The accepted socket is a counted object, so it stays open as long as a session, the
map of notifiers or the poll set refers to it.
-/
import PocoProxy.PollEntries

set_option autoImplicit false

namespace PocoProxy.PollSet.PollSetImpl

open PocoProxy.Socket

/-! ## Sockets that the poll set refers to -/

theorem holdsFor_add {p : PollSetImpl} {socket : SocketImpl} {mode : PollMode} {s : SocketId}
    (h : (p.add socket mode).HoldsFor s) : p.HoldsFor s ∨ s = socket.id := by
  -- both maps get an entry under the descriptor
  rcases h with ⟨fd, hfd⟩ | ⟨fd, a, ha, hs⟩ | hpoll
  · change (p.socketMap.insert socket.sockfd socket.id).lookup fd = some s at hfd
    by_cases e : fd = socket.sockfd
    · rw [e, AList.lookup_insert, Option.some.injEq] at hfd
      exact .inr hfd.symm
    · rw [AList.lookup_insert_ne e] at hfd
      exact .inl (.inl ⟨fd, hfd⟩)
  · change (p.addMap.insert socket.sockfd ⟨mode, socket.id⟩).lookup fd = some a at ha
    by_cases e : fd = socket.sockfd
    · rw [e, AList.lookup_insert, Option.some.injEq] at ha
      right
      rw [← hs, ← ha]
    · rw [AList.lookup_insert_ne e] at ha
      exact .inl (.inr (.inl ⟨fd, a, ha, hs⟩))
  · exact .inl (.inr (.inr hpoll))

theorem holdsFor_remove {p : PollSetImpl} {socket : SocketImpl} {s : SocketId}
    (h : (p.remove socket).HoldsFor s) : p.HoldsFor s := by
  rcases h with ⟨fd, hfd⟩ | ⟨fd, a, ha, hs⟩ | hpoll
  · change (p.socketMap.erase socket.sockfd).lookup fd = some s at hfd
    by_cases e : fd = socket.sockfd
    · rw [e, AList.lookup_erase] at hfd
      cases hfd
    · rw [AList.lookup_erase_ne e] at hfd
      exact .inl ⟨fd, hfd⟩
  · change (p.addMap.erase socket.sockfd).lookup fd = some a at ha
    by_cases e : fd = socket.sockfd
    · rw [e, AList.lookup_erase] at ha
      cases ha
    · rw [AList.lookup_erase_ne e] at ha
      exact .inr (.inl ⟨fd, a, ha, hs⟩)
  · exact .inr (.inr hpoll)

theorem holdsFor_update {p : PollSetImpl} {socket : SocketImpl} {mode : PollMode} {s : SocketId}
    (h : (p.update socket mode).HoldsFor s) : p.HoldsFor s := by
  rcases h with hmap | hadd | ⟨e, he, hs⟩
  · exact .inl hmap
  · exact .inr (.inl hadd)
  · -- an entry keeps its owner
    obtain ⟨e', he', rfl⟩ := List.mem_map.mp he
    refine .inr (.inr ⟨e', he', ?_⟩)
    rw [← hs]
    split <;> rfl

theorem holdsFor_prepare {p : PollSetImpl} {s : SocketId} (h : p.prepare.HoldsFor s) :
    p.HoldsFor s := by
  rcases h with hmap | ⟨fd, a, ha, -⟩ | ⟨e, he, hs⟩
  · exact .inl hmap
  · cases ha
  · -- an entry was there before, or it was one of the additions
    rcases List.mem_append.mp he with he | he
    · exact .inr (.inr ⟨e, (List.mem_filter.mp he).1, hs⟩)
    · obtain ⟨a, ha, rfl⟩ := List.mem_map.mp he
      exact .inr (.inl ⟨a.1, a.2, AList.mem_lookup_iff.mpr ha, hs⟩)

end PocoProxy.PollSet.PollSetImpl

namespace PocoProxy.Reactor

open PocoProxy.Socket PocoProxy.PollSet PocoProxy.PollSet.PollSetImpl

/-! ## Sockets that the reactor refers to -/

/-- The map of notifiers or the poll set has the socket. -/
def Refers (r : SocketReactor) (s : SocketId) : Prop :=
  (r.getNotifier s).isSome = true ∨ r.pollSet.HoldsFor s

theorem refers_addEventHandler {r : SocketReactor} {socket : SocketImpl} {t : Target}
    {s : SocketId} (h : Refers (r.addEventHandler socket t) s) :
    Refers r s ∨ s = socket.id := by
  have hmake : (r.getOrMakeNotifier socket.id).2.pollSet = r.pollSet :=
    getOrMakeNotifier_pollSet r socket.id
  rcases h with hnotifier | hpoll
  · -- the map of notifiers has at most the socket more
    by_cases e : s = socket.id
    · exact .inr e
    refine .inl (.inl ?_)
    have hhandlers : ∀ r' : SocketReactor,
        r'.handlers = (r.getOrMakeNotifier socket.id).2.handlers →
          r'.getNotifier s = r.getNotifier s := by
      intro r' hr'
      rw [SocketReactor.getNotifier, hr', SocketReactor.getOrMakeNotifier]
      split
      · rfl
      · exact AList.lookup_insert_ne e
    rw [hhandlers] at hnotifier
    · exact hnotifier
    · unfold SocketReactor.addEventHandler
      dsimp only
      split <;> split <;> rfl
  · rcases addEventHandler_pollSet r socket t with heq | ⟨mode, heq⟩
    · rw [heq] at hpoll
      exact .inl (.inr hpoll)
    · rw [heq] at hpoll
      exact (holdsFor_add hpoll).imp_left .inr

theorem refers_removeEventHandler {r : SocketReactor} {socket : SocketImpl} {t : Target}
    {s : SocketId} (h : Refers (r.removeEventHandler socket t) s) : Refers r s := by
  -- the map of notifiers and the poll set lose something at most
  have hsub : ∀ r' : SocketReactor, (r'.handlers = r.handlers ∨
      r'.handlers = r.handlers.erase socket.id) → (r'.pollSet.HoldsFor s → r.pollSet.HoldsFor s) →
      Refers r' s → Refers r s := by
    rintro r' hhandlers hpoll (hnotifier | hp)
    · left
      rcases hhandlers with heq | heq
      · rwa [SocketReactor.getNotifier, heq] at hnotifier
      · rw [SocketReactor.getNotifier, heq] at hnotifier
        by_cases e : s = socket.id
        · rw [e, AList.lookup_erase] at hnotifier
          cases hnotifier
        · rwa [AList.lookup_erase_ne e] at hnotifier
    · exact .inr (hpoll hp)
  have hremoval := removeEventHandler_removal r socket t
  generalize r.removeEventHandler socket t = r' at h hremoval
  cases hremoval with
  | unregistered hs => exact h
  | unobserved hs hobs => exact h
  | @last p hs hobs hone pollSet hpoll =>
      have hholds : pollSet.HoldsFor s → r.pollSet.HoldsFor s := by
        rcases hpoll with rfl | ⟨mode, rfl⟩
        · exact holdsFor_remove
        · exact fun hp => holdsFor_remove (holdsFor_update hp)
      exact hsub _ (.inr rfl) hholds h
  | @further p hs hobs hone pollSet hpoll =>
      have hholds : pollSet.HoldsFor s → r.pollSet.HoldsFor s := by
        rcases hpoll with rfl | ⟨mode, rfl⟩
        · exact id
        · exact holdsFor_update
      exact hsub { r.removeObserver p t with pollSet := pollSet } (.inl rfl) hholds h

end PocoProxy.Reactor

namespace PocoProxy.Session

open PocoProxy.Program PocoProxy.Socket PocoProxy.PollSet PocoProxy.Reactor

theorem refers_addHandlers {r : SocketReactor} {socket : SocketImpl} {object : ObjectId}
    {ms : List Method} {s : SocketId} (h : Refers (addHandlers r socket object ms) s) :
    Refers r s ∨ s = socket.id := by
  induction ms generalizing r with
  | nil => exact .inl h
  | cons m ms ih =>
      rcases ih h with hfirst | heq
      · exact refers_addEventHandler hfirst
      · exact .inr heq

theorem refers_removeHandlers {r : SocketReactor} {socket : SocketImpl} {object : ObjectId}
    {ms : List Method} {s : SocketId} (h : Refers (removeHandlers r socket object ms) s) :
    Refers r s := by
  induction ms generalizing r with
  | nil => exact h
  | cons m ms ih => exact refers_removeEventHandler (ih h)

/-! ## `createServiceHandler`, with its exceptions -/

/-- What `OnFrontConnect` throws: only a user's class does. -/
def frontConnectThrows (o : Outcomes) : Option ServiceKind → Option Exception
  | some .custom => o.callback
  | _ => none

/-- Nothing throws after the constructor of the session. -/
structure SetsUp (u : Setup) (o : Outcomes) : Prop where
  service : ∃ service, u.service = .ok service
  connect : ∃ status, u.connect = .ok status
  callback : ∀ service, u.service = .ok service → frontConnectThrows o service = none

/-- `SetService` throws what `OnFrontConnect` throws, when `connectNB` returns. -/
theorem setService_result {w : World} (h : w.Alive) {u : Setup} {status : ConnectStatus}
    (o : Outcomes) (service : Option ServiceKind) (hu : u.connect = .ok status) :
    (setService u o service w).1 = outcomeOf (frontConnectThrows o service) := by
  rw [setService, assign_bind h, Prog.bind_of_ok (connectNB_run (by exact h) hu),
    Prog.bind_of_ok (registerHandler_run (by exact h)),
    callService_connect (by exact h) o (.inl rfl)]
  cases service with
  | none => rfl
  | some kind => cases kind <;> rfl

section

variable (u : Setup) (o : Outcomes) (this : ObjectId) (front : SocketImpl) (backId : SocketId)
  (r : SocketReactor)

/-- An exception of the constructor leaves nothing. -/
theorem createServiceHandler_refused (hlog : logThrows o .constructed front = true) :
    createServiceHandler u o this front backId r = (.error .poco, none) := by
  have hrun := log_front_run (w := World.constructed this front backId r) rfl o .constructed
  rw [show (World.constructed this front backId r).session.m_front = front from rfl,
    if_pos hlog] at hrun
  simp only [createServiceHandler, hrun]

theorem createServiceHandler_attached (hlog : logThrows o .constructed front = false) :
    createServiceHandler u o this front backId r =
      ((attachService u o (World.constructed this front backId r)).1,
        some (attachService u o (World.constructed this front backId r)).2) := by
  have hrun := log_front_run (w := World.constructed this front backId r) rfl o .constructed
  rw [show (World.constructed this front backId r).session.m_front = front from rfl, hlog] at hrun
  simp only [createServiceHandler, hrun, Bool.false_eq_true, if_false]

end

/-- After the constructor, an exception leaves `createServiceHandler` unless all three calls
return. -/
theorem attachService_ok_iff {w : World} (h : w.Alive) (u : Setup) (o : Outcomes) :
    (attachService u o w).1 = .ok () ↔ SetsUp u o := by
  unfold attachService
  -- one case for each of the three calls that can throw
  cases hservice : u.service with
  | error e =>
      refine iff_of_false (fun hok => by cases hok) fun hsets => ?_
      obtain ⟨service, hs⟩ := hsets.service
      rw [hservice] at hs
      cases hs
  | ok service =>
      dsimp only
      cases hconnect : u.connect with
      | error e =>
          have hset : (setService u o service w).1 = .error e := by
            rw [setService, assign_bind h,
              Prog.bind_of_error (connectNB_error (by exact h) hconnect)]
          rw [hset]
          refine iff_of_false (fun hok => by cases hok) fun hsets => ?_
          obtain ⟨status, hs⟩ := hsets.connect
          rw [hconnect] at hs
          cases hs
      | ok status =>
          rw [setService_result h o service hconnect]
          constructor
          · intro hok
            refine ⟨⟨service, hservice⟩, ⟨status, hconnect⟩, fun service' hs => ?_⟩
            obtain rfl := Except.ok.inj (hservice.symm.trans hs)
            cases hthrows : frontConnectThrows o service with
            | none => rfl
            | some e =>
                rw [hthrows] at hok
                cases hok
          · intro hsets
            rw [hsets.callback service hservice]
            rfl

end PocoProxy.Session

namespace PocoProxy.ReactorLoop

open PocoProxy.Program PocoProxy.Socket PocoProxy.PollSet PocoProxy.Registry PocoProxy.Reactor
open PocoProxy.Session PocoProxy.Runs

/-! ## What is left of a connection -/

namespace Machine

/-- What leaves `createServiceHandler` when this connection is accepted. -/
def setupResult (m : Machine) (a : Accepted) : Except Exception Unit :=
  (createServiceHandler a.setup a.outcomes (.session m.sessions.length)
    (m.acceptConnection a.sockfd) (m.nextSocket + 1) m.reactor).1

/-- Some object keeps the socket open: a session that has not closed it, or the reactor. -/
def KeepsOpen (m : Machine) (s : SocketId) : Prop :=
  (∃ c ∈ m.sessions, c.deletions = 0 ∧
      ∃ d, (c.session.socket d).id = s ∧ (c.session.socket d).sockfd ≠ POCO_INVALID_SOCKET) ∨
    Refers m.reactor s

/-- Nothing in `m'` is left of what has been made for the connection accepted in `m`. -/
structure Released (m m' : Machine) : Prop where
  session : ∀ i c, m.sessions.length ≤ i → m'.sessions[i]? = some c → c.deletions ≠ 0
  service : ∀ i c v, m.sessions.length ≤ i → m'.sessions[i]? = some c →
    c.session.m_service = some v → .deleted ∈ v.trace
  observers : ∀ s, ∀ t ∈ targets m'.reactor s, t.object ≠ .session m.sessions.length
  socket : ¬ m'.KeepsOpen m.nextSocket

/-- The reactor refers to no socket that does not exist yet. -/
def Known (m : Machine) : Prop := ∀ s, Refers m.reactor s → s < m.nextSocket

end Machine

theorem known_step {m m' : Machine} {l : Label} (h : m.Safe ∧ m.Known) (hstep : Step m l m') :
    m'.Safe ∧ m'.Known := by
  obtain ⟨hsafe, hknown⟩ := h
  refine ⟨safe_step hsafe hstep, fun s hs => ?_⟩
  cases step_effect hsafe hstep with
  | quiet hclose hserver hnext hfaces hreactor hsnapshot =>
      rw [hnext]
      exact hknown s (hreactor ▸ hs)
  | polled hclose hserver hnext hfaces hreactor hsnapshot =>
      rw [hreactor] at hs
      rw [hnext]
      exact hknown s (hs.imp_right PollSetImpl.holdsFor_prepare)
  | unregistered f hclose hnew hopen hserver hnext hfaces hreactor hsnapshot =>
      rw [hnext]
      exact Nat.lt_add_right 2 (hknown s (hreactor ▸ hs))
  | refused hclose hserver hnext hfaces hreactor hsnapshot =>
      rw [hnext]
      exact Nat.lt_add_right 2 (hknown s (hreactor ▸ hs))
  | torn i w hclose hserver hnext hw halive hold hall hfaces hreactor hsnapshot =>
      rw [hreactor, torn_reactor] at hs
      rw [hnext]
      exact hknown s (hold ▸ refers_removeHandlers (refers_removeHandlers hs))
  | registered a status service w hclose hok hconnect hw hserver hnext hfaces hreactor hsnapshot =>
      rw [hreactor, hw, started_reactor] at hs
      rw [hnext]
      -- the two sockets of the session are the only new ones
      rcases refers_addHandlers hs with hfront | rfl
      · rcases refers_addHandlers hfront with hold | rfl
        · exact Nat.lt_add_right 2 (hknown s hold)
        · exact Nat.lt_add_of_pos_right (by decide)
      · exact Nat.lt_succ_self _

theorem listening_known (sockfd : Fd) : (Machine.listening sockfd).Known := by
  intro s hs
  rcases refers_addEventHandler hs with hnone | rfl
  · rcases hnone with hnotifier | ⟨fd, hfd⟩ | ⟨fd, a, ha, -⟩ | ⟨e, he, -⟩
    · cases hnotifier
    · cases hfd
    · cases ha
    · cases he
  · exact Nat.one_pos

/-- When the constructor throws, nothing has been made. -/
theorem released_of_refused {m : Machine} (h : m.Safe ∧ m.Known) {a : Accepted}
    (hlog : logThrows a.outcomes .constructed (m.acceptConnection a.sockfd) = true) :
    m.Released (step m (.accept (some a))) := by
  obtain ⟨hsafe, hknown⟩ := h
  have heq : step m (.accept (some a))
      = { m with nextSocket := m.nextSocket + 2, observersToNotify := [] } := by
    unfold step Machine.onAccept
    dsimp only
    rw [createServiceHandler_refused _ _ _ _ _ _ hlog]
    rfl
  rw [heq]
  -- the list of the sessions and the reactor are as they were
  refine ⟨?_, ?_, ?_, ?_⟩
  · intro i c hi hc
    rw [List.getElem?_eq_none hi] at hc
    cases hc
  · intro i c v hi hc
    rw [List.getElem?_eq_none hi] at hc
    cases hc
  · -- an observer belongs to the acceptor or to an older session
    intro s t ht hobject
    rcases hsafe.registered s t ht with ⟨-, rfl⟩ | ⟨i, f, d, hf, -, -, hmem⟩
    · cases hobject
    · obtain ⟨method, -, rfl⟩ := List.mem_map.mp hmem
      have hi : i = m.sessions.length := ObjectId.session.inj hobject
      have hlt := (List.getElem?_eq_some_iff.mp hf).1
      rw [Machine.faces, List.length_map] at hlt
      exact absurd hi (Nat.ne_of_lt hlt)
  · -- the sockets of the older sessions have smaller numbers
    rintro (⟨c, hc, -, d, hid, -⟩ | hrefers)
    · obtain ⟨i, hi⟩ := List.getElem?_of_mem hc
      have hlt := (hsafe.socket_lt i _ d (Machine.faces_of_some hi)).2
      exact absurd hid (Nat.ne_of_lt hlt)
    · exact absurd (hknown _ hrefers) (Nat.lt_irrefl _)

/-- Later, the session is there whatever has been thrown. -/
theorem session_left {m : Machine} {a : Accepted}
    (hlog : logThrows a.outcomes .constructed (m.acceptConnection a.sockfd) = false) :
    ∃ c, (step m (.accept (some a))).sessions[m.sessions.length]? = some c ∧ c.deletions = 0 := by
  have hcreate := createServiceHandler_attached a.setup a.outcomes (.session m.sessions.length)
    (m.acceptConnection a.sockfd) (m.nextSocket + 1) m.reactor hlog
  have hsessions : (step m (.accept (some a))).sessions = m.sessions ++
      [.ofWorld (attachService a.setup a.outcomes (World.constructed
        (.session m.sessions.length) (m.acceptConnection a.sockfd) (m.nextSocket + 1)
        m.reactor)).2] := by
    unfold step Machine.onAccept
    dsimp only
    rw [hcreate]
    rfl
  -- none of the three ways out of `createServiceHandler` deletes it
  refine ⟨_, hsessions ▸ List.getElem?_concat_length, ?_⟩
  rcases createServiceHandler_leaves (congrArg Prod.snd hcreate) with
    ⟨status, service, -, -, heq⟩ | ⟨-, heq | ⟨service, heq⟩⟩
  · rw [heq]
    rfl
  · rw [heq]
    rfl
  · rw [heq]
    rfl

/-- **A connection that cannot be set up is released**, exactly if the exception comes from
the constructor of the session, or if there is none. -/
theorem accept_released_iff (sockfd : Fd) {ts : List (Transition Machine Label)}
    (hrun : IsRun Step (Machine.listening sockfd) ts) :
    ∀ m ∈ states (Machine.listening sockfd) ts, ∀ a, Admissible m (.accept (some a)) →
      (((∃ e, m.setupResult a = .error e) → m.Released (step m (.accept (some a)))) ↔
        logThrows a.outcomes .constructed (m.acceptConnection a.sockfd) = true ∨
          SetsUp a.setup a.outcomes) := by
  intro m hm a _
  have hinv : m.Safe ∧ m.Known :=
    invariant_states (I := fun m => m.Safe ∧ m.Known) (fun _ _ _ => known_step)
      ⟨listening_safe sockfd, listening_known sockfd⟩ hrun m hm
  by_cases hlog : logThrows a.outcomes .constructed (m.acceptConnection a.sockfd) = true
  · exact iff_of_true (fun _ => released_of_refused hinv hlog) (.inl hlog)
  rw [Bool.not_eq_true] at hlog
  have hcreate := createServiceHandler_attached a.setup a.outcomes (.session m.sessions.length)
    (m.acceptConnection a.sockfd) (m.nextSocket + 1) m.reactor hlog
  have hiff := attachService_ok_iff (w := World.constructed (.session m.sessions.length)
    (m.acceptConnection a.sockfd) (m.nextSocket + 1) m.reactor) rfl a.setup a.outcomes
  have hresult : m.setupResult a = .ok () ↔ SetsUp a.setup a.outcomes := by
    rw [Machine.setupResult, hcreate, hiff]
  rw [hlog]
  constructor
  · intro hreleased
    right
    apply hresult.mp
    cases hr : m.setupResult a with
    | ok u => rfl
    | error e =>
        -- the session has not been deleted
        obtain ⟨c, hc, hdel⟩ := session_left hlog
        exact absurd hdel ((hreleased ⟨e, hr⟩).session _ c le_rfl hc)
  · rintro (hfalse | hsets) ⟨e, he⟩
    · cases hfalse
    · rw [hresult.mpr hsets] at he
      cases he

/-- The back server cannot be reached. -/
def unreachable : Accepted :=
  ⟨5, { service := .ok (some .byPass), backFd := 7, connect := .error .poco }, {}⟩

/-- A connection comes in. -/
def oneConnection : List Label := [.poll (some [(0, ⟨true, false, false⟩)]), .dispatch]

theorem isRun_oneConnection :
    IsRun Step (Machine.listening 3) (unroll step (Machine.listening 3) oneConnection) :=
  isRun_unroll (by decide +kernel)

/-- The reactor is about to accept it. -/
def connected : Machine := oneConnection.foldl step (Machine.listening 3)

theorem connected_mem_states :
    connected ∈ states (Machine.listening 3) (unroll step (Machine.listening 3) oneConnection) :=
  mem_states.mpr (.inr ⟨_, List.mem_of_getLast? rfl, rfl⟩)

theorem accept_released_iff_unreachable :
    ((∃ e, connected.setupResult unreachable = .error e) →
        connected.Released (step connected (.accept (some unreachable)))) ↔
      logThrows unreachable.outcomes .constructed (connected.acceptConnection 5) = true ∨
        SetsUp unreachable.setup unreachable.outcomes :=
  accept_released_iff 3 isRun_oneConnection connected connected_mem_states unreachable
    (by decide +kernel)

/-- The session and its service stay. -/
theorem accept_not_released :
    ¬ ∀ ts, IsRun Step (Machine.listening 3) ts → ∀ m ∈ states (Machine.listening 3) ts, ∀ a,
      Admissible m (.accept (some a)) → (∃ e, m.setupResult a = .error e) →
        m.Released (step m (.accept (some a))) := by
  intro h
  have hreleased := h _ isRun_oneConnection connected connected_mem_states unreachable
    (by decide +kernel) ⟨.poco, rfl⟩
  exact absurd rfl (hreleased.session 0 _ le_rfl rfl)

end PocoProxy.ReactorLoop
