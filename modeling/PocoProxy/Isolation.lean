/-
The sessions on a reactor do not get into each other's way.

What a session does depends on how its connection was accepted, on what arrives on its own two
sockets, and on what comes of its own calls. The registry of handlers is shared by all sessions,
but a handler only writes to it; the objects' addresses are used for nothing but that, and of a
descriptor it only matters whether it is one. So two sessions with the same history, in two runs
with any other sessions and in any interleaving, are the same up to these addresses and descriptors
(`sessions_isolated`).
-/
import PocoProxy.Lib.Component
import PocoProxy.Sessions

set_option autoImplicit false

namespace PocoProxy.Socket

/-! ## Descriptors -/

/-- Every descriptor is as good as another one. -/
def Fd.anonymous (fd : Fd) : Fd := if fd = POCO_INVALID_SOCKET then POCO_INVALID_SOCKET else 0

theorem Fd.anonymous_eq_invalid_iff (fd : Fd) :
    Fd.anonymous fd = POCO_INVALID_SOCKET ↔ fd = POCO_INVALID_SOCKET := by
  unfold anonymous
  split
  · next hfd => exact iff_of_true rfl hfd
  · next hfd => exact iff_of_false (by decide) hfd

@[simp] theorem Fd.anonymous_anonymous (fd : Fd) :
    Fd.anonymous (Fd.anonymous fd) = Fd.anonymous fd := by
  by_cases hfd : fd = POCO_INVALID_SOCKET
  · rw [hfd]
    rfl
  · rw [show Fd.anonymous fd = 0 from if_neg hfd]
    rfl

namespace SocketImpl

/-- The socket without its address and its descriptor. -/
def anonymous (s : SocketImpl) : SocketImpl := { s with id := 0, sockfd := Fd.anonymous s.sockfd }

@[simp] theorem anonymous_anonymous (s : SocketImpl) : s.anonymous.anonymous = s.anonymous := by
  simp [anonymous]

/-- Whether it is open can still be seen. -/
@[simp] theorem isConnected_anonymous (s : SocketImpl) :
    s.anonymous.isConnected = s.isConnected := by
  have hfd : (s.anonymous.sockfd != POCO_INVALID_SOCKET) = (s.sockfd != POCO_INVALID_SOCKET) := by
    rw [Bool.eq_iff_iff, bne_iff_ne, bne_iff_ne]
    exact not_congr (Fd.anonymous_eq_invalid_iff s.sockfd)
  rw [isConnected, hfd]
  rfl

end SocketImpl

end PocoProxy.Socket

namespace PocoProxy.Session

open PocoProxy.Program PocoProxy.Socket PocoProxy.Reactor

/-! ## Addresses and the registry -/

/-- The session without the addresses of its objects, and without its descriptors. -/
def ProxySession.anonymous (s : ProxySession) : ProxySession :=
  { s with
    this := .acceptor
    m_front := s.m_front.anonymous
    m_back := s.m_back.anonymous }

/-- And without the registry. -/
def World.anonymous (w : World) : World := { w with session := w.session.anonymous, reactor := {} }

@[simp] theorem World.anonymous_anonymous (w : World) : w.anonymous.anonymous = w.anonymous := by
  simp [World.anonymous, ProxySession.anonymous]

/-- What a log statement does is the same. -/
@[simp] theorem logThrows_anonymous (o : Outcomes) (site : AddressSite) (s : SocketImpl) :
    logThrows o site s.anonymous = logThrows o site s := by
  rw [logThrows, addressThrows, SocketImpl.isConnected_anonymous, logThrows, addressThrows]

@[simp] theorem closeLogThrows_anonymous (o : Outcomes) (s : ProxySession) :
    closeLogThrows o s.anonymous = closeLogThrows o s := by
  simp [closeLogThrows, addressThrows, ProxySession.anonymous]

/-- So a method calls `Close` in the same cases. -/
theorem callsClose_anonymous (m : Method) (o : Outcomes) (s : ProxySession) :
    callsClose m o s.anonymous = callsClose m o s := by
  have hfront : s.anonymous.m_front = s.m_front.anonymous := rfl
  have hback : s.anonymous.m_back = s.m_back.anonymous := rfl
  have hservice : s.anonymous.m_service = s.m_service := rfl
  have hconnected : s.anonymous.m_back_connected = s.m_back_connected := rfl
  have hcatches : ∀ thrown, catches o s.anonymous thrown = catches o s thrown := by
    intro thrown
    cases thrown <;> simp [catches, hfront]
  cases m <;> simp [callsClose, readCloses, connectThrows, callbackThrows, dataThrows, hcatches,
    hfront, hback, hservice, hconnected]

theorem connected_anonymous (w : World) : w.connected.anonymous = w.anonymous.connected := rfl

theorem relayed_anonymous (w : World) (d : Side) (o : Outcomes) (bs : List Byte) :
    ((w.received d bs).relayed o d bs).anonymous
      = (w.anonymous.received d bs).relayed o d bs := by
  cases d <;> rfl

/-- What a method does before `Close`. -/
theorem moved_anonymous (m : Method) (o : Outcomes) (w : World) :
    (w.moved m o).anonymous = w.anonymous.moved m o := by
  have hread : ∀ d, (w.readMoved d o).anonymous = w.anonymous.readMoved d o := by
    intro d
    unfold World.readMoved
    rw [apply_ite World.anonymous]
    cases o.receive with
    | bytes first rest => rw [relayed_anonymous]; rfl
    | _ => rfl
  cases m with
  | onFrontReadable => exact hread .front
  | onBackReadable => exact hread .back
  | onBackWritable =>
      change w.connectMoved.anonymous = w.anonymous.connectMoved
      unfold World.connectMoved
      rw [apply_ite World.anonymous, connected_anonymous]
      rfl
  | _ => rfl

theorem closing_anonymous (o : Outcomes) (w : World) :
    (w.closing o).anonymous = (w.anonymous.closing o).anonymous := by
  have hcloses : closeLogThrows o w.anonymous.session = closeLogThrows o w.session :=
    closeLogThrows_anonymous o w.session
  have hclosed : w.anonymous.session.m_closed = w.session.m_closed := rfl
  have hmarked : w.anonymous.marked = w.marked.anonymous := rfl
  unfold World.closing
  rw [hcloses, hclosed, hmarked]
  split
  · exact (World.anonymous_anonymous w).symm
  · split
    · exact (World.anonymous_anonymous w.marked).symm
    · rfl

/-- **Methods do not look at addresses**, nor at the registry. -/
theorem handle_anonymous (m : Method) (o : Outcomes) (w : World) :
    (w.handle m o).anonymous = (w.anonymous.handle m o).anonymous := by
  rw [handle_eq, handle_eq,
    show callsClose m o w.anonymous.session = callsClose m o w.session from
      callsClose_anonymous m o w.session]
  split
  · rw [closing_anonymous, moved_anonymous]
  · rw [moved_anonymous, moved_anonymous, World.anonymous_anonymous]

/-- What `createServiceHandler` leaves, as an equation. -/
theorem createServiceHandler_after (u : Setup) (o : Outcomes) (this : ObjectId)
    (front : SocketImpl) (backId : SocketId) (r : SocketReactor) :
    (createServiceHandler u o this front backId r).2
      = if logThrows o .constructed front then none
        else some (match u.service, u.connect with
          | .error _, _ => World.constructed this front backId r
          | .ok service, .error _ =>
            (World.constructed this front backId r).unattached u.backFd service
          | .ok service, .ok status => started u.backFd status service this front backId r) := by
  have hrun := log_front_run (w := World.constructed this front backId r) rfl o .constructed
  rw [show (World.constructed this front backId r).session.m_front = front from rfl] at hrun
  by_cases hlog : logThrows o .constructed front = true
  · rw [if_pos hlog] at hrun ⊢
    simp only [createServiceHandler, hrun]
  · rw [if_neg hlog] at hrun ⊢
    cases hservice : u.service with
    | error e => simp only [createServiceHandler, hrun, attachService, hservice]; rfl
    | ok service =>
        cases hconnect : u.connect with
        | ok status =>
            exact createServiceHandler_started u o this front backId r (by simpa using hlog)
              hservice hconnect
        | error e =>
            have hset : setService u o service (World.constructed this front backId r)
                = (.error e,
                  (World.constructed this front backId r).unattached u.backFd service) := by
              rw [setService, assign_bind (by exact rfl)]
              exact Prog.bind_of_error (connectNB_error (by exact rfl) hconnect)
            simp only [createServiceHandler, hrun, attachService, hservice, hset]

def Setup.anonymous (u : Setup) : Setup := { u with backFd := Fd.anonymous u.backFd }

/-- Setting a session up does not look at them either. -/
theorem createServiceHandler_anonymous (u : Setup) (o : Outcomes) (this : ObjectId)
    (front : SocketImpl) (backId : SocketId) (r : SocketReactor) :
    (createServiceHandler u o this front backId r).2.map World.anonymous
      = (createServiceHandler u.anonymous o .acceptor front.anonymous 0 {}).2.map
          World.anonymous := by
  obtain ⟨service, backFd, connect⟩ := u
  rw [createServiceHandler_after, createServiceHandler_after, logThrows_anonymous]
  split
  · rfl
  · refine congrArg some ?_
    cases service with
    | error e =>
        simp [World.anonymous, ProxySession.anonymous, World.constructed, ProxySession.construct,
          SocketImpl.anonymous, SocketImpl.unopened, Setup.anonymous]
    | ok service =>
        cases connect <;> simp [World.anonymous, ProxySession.anonymous, World.constructed,
          ProxySession.construct, SocketImpl.anonymous, SocketImpl.unopened, Setup.anonymous,
          World.unattached, started, World.attached]

/-- A session's own step, up to the addresses and descriptors. -/
theorem step_anonymous {w : World} {e : Event}
    (halive : ∀ method o, e = .notify method o → w.Alive) :
    (step w e).anonymous = (step w.anonymous e).anonymous := by
  cases e with
  | arrive d bs =>
      cases d <;> simp [step, World.anonymous, ProxySession.anonymous, ProxySession.setSocket,
        SocketImpl.anonymous]
  | connectDone status =>
      simp [step, World.anonymous, ProxySession.anonymous, ProxySession.setSocket,
        SocketImpl.anonymous]
  | elsewhere r => simp [step, World.anonymous, ProxySession.anonymous]
  | notify method o =>
      have ha : w.Alive := halive method o rfl
      have ha' : w.anonymous.Alive := ha
      rw [step_notify ha, step_notify ha', handle_anonymous]

end PocoProxy.Session

namespace PocoProxy.ReactorLoop

open PocoProxy.Program PocoProxy.Socket PocoProxy.Reactor PocoProxy.Session PocoProxy.Runs

/-! ## A session as a component of the reactor -/

def Cell.anonymous (c : Cell) : Cell := { c with session := c.session.anonymous }

/-- The session's part in a step of the reactor. -/
def ownEvent (i : ℕ) (m : Machine) : Label → Option Event
  | .notify o =>
    match m.nextCall with
    | some ⟨.session j, method⟩ => if j = i then some (.notify method o) else none
    | _ => none
  | .arrive j d bs => if j = i then some (.arrive d bs) else none
  | .connectDone j status => if j = i then some (.connectDone status) else none
  | _ => none

/-- A connection without its descriptors. -/
def Accepted.anonymous (a : Accepted) : Accepted :=
  { a with sockfd := Fd.anonymous a.sockfd, setup := a.setup.anonymous }

def Label.anonymous : Label → Label
  | .accept (some a) => .accept (some a.anonymous)
  | l => l

/-- What `onAccept` makes of a connection, without the addresses and descriptors. -/
def Cell.accepted (a : Accepted) : Option Cell :=
  (createServiceHandler a.anonymous.setup a.outcomes .acceptor
    ⟨0, a.anonymous.sockfd, true, .succeeded, [], [], []⟩ 0 {}).2.map fun w => .ofWorld w.anonymous

@[simp] theorem Cell.accepted_anonymous (a : Accepted) :
    Cell.accepted a.anonymous = Cell.accepted a := by
  simp [Cell.accepted, Accepted.anonymous, Setup.anonymous]

/-- The session with this index. -/
def sessionOf (i : ℕ) : Component Machine Label Cell Event where
  view m := m.sessions[i]?.map Cell.anonymous
  event m l := ownEvent i m l
  born
    | .accept (some a) => Cell.accepted a
    | _ => none
  step c e := .ofWorld (Session.step (c.world {}) e).anonymous

theorem anonymous_step {c : Cell} (r : SocketReactor) {e : Event}
    (halive : ∀ method o, e = .notify method o → (c.world r).Alive) (i : ℕ) :
    (Cell.ofWorld (Session.step (c.world r) e)).anonymous = (sessionOf i).step c.anonymous e :=
  congrArg Cell.ofWorld (step_anonymous halive)

/-- A step in which no session has a part. -/
theorem sessions_of_quiet {m : Machine} {l : Label} (hnotify : ∀ o, l ≠ .notify o)
    (haccept : ∀ a, l ≠ .accept (some a)) (harrive : ∀ j d bs, l ≠ .arrive j d bs)
    (hconnect : ∀ j status, l ≠ .connectDone j status) : (step m l).sessions = m.sessions := by
  cases l with
  | notify o => exact absurd rfl (hnotify o)
  | arrive j d bs => exact absurd rfl (harrive j d bs)
  | connectDone j status => exact absurd rfl (hconnect j status)
  | accept connection =>
      cases connection with
      | none => rfl
      | some a => exact absurd rfl (haccept a)
  | dispatch =>
      unfold step
      dsimp only
      split
      · split <;> rfl
      · rfl
      · rfl
  | broadcast delegates =>
      unfold step
      dsimp only
      split <;> rfl
  | stop => rfl
  | poll result => rfl
  | idle => rfl
  | shutdown => rfl
  | skip => rfl

/-- One session's cell is changed. -/
theorem getElem?_set_eq (cells : List Cell) (i j : ℕ) {c c' : Cell} (hc : cells[i]? = some c) :
    (cells.set i c')[j]? = if i = j then some c' else cells[j]? := by
  by_cases hij : i = j
  · rw [if_pos hij, ← hij, List.getElem?_set_self (List.getElem?_eq_some_iff.mp hc).1]
  · rw [if_neg hij, List.getElem?_set_ne hij]

theorem onSession_sessions {m : Machine} {i : ℕ} {c : Cell} (hc : m.sessions[i]? = some c)
    (f : World → World) :
    (m.onSession i f).sessions = m.sessions.set i (.ofWorld (f (c.world m.reactor))) := by
  unfold Machine.onSession
  rw [hc]

theorem onNotify_sessions {m : Machine} {i : ℕ} {c : Cell} (hc : m.sessions[i]? = some c)
    (method : Method) (o : Outcomes) :
    (m.onNotify i method o).sessions
      = m.sessions.set i (.ofWorld (handler method o (c.world m.reactor)).2) := by
  unfold Machine.onNotify
  rw [hc]

/-- The sessions that are there stay where they are when one is added. -/
theorem onAccept_sessions (m : Machine) (a : Accepted) :
    ∃ cells, (m.onAccept a).sessions = m.sessions ++ cells ∧
      cells = ((createServiceHandler a.setup a.outcomes (.session m.sessions.length)
        (m.acceptConnection a.sockfd) (m.nextSocket + 1) m.reactor).2.map Cell.ofWorld).toList := by
  refine ⟨_, ?_, rfl⟩
  unfold Machine.onAccept
  rcases createServiceHandler a.setup a.outcomes (.session m.sessions.length)
      (m.acceptConnection a.sockfd) (m.nextSocket + 1) m.reactor with ⟨result, session⟩
  cases session with
  | none => exact (List.append_nil _).symm
  | some w => rfl

/-- **One step**: a session moves by its own event, or not at all. -/
theorem sessionOf_moves {m : Machine} {l : Label} (h : m.Safe) (hadm : Admissible m l) {i : ℕ}
    {c : Cell} (hc : m.sessions[i]? = some c) :
    (sessionOf i).view (step m l)
      = some (((ownEvent i m l).map ((sessionOf i).step c.anonymous)).getD c.anonymous) := by
  -- the session of index `j` makes the step `e`
  have hmove : ∀ {cells : List Cell} {j : ℕ} {cj : Cell} {e : Event}, m.sessions[j]? = some cj →
      cells = m.sessions.set j (.ofWorld (Session.step (cj.world m.reactor) e)) →
      (∀ method o, e = .notify method o → (cj.world m.reactor).Alive) →
      cells[i]?.map Cell.anonymous
        = some (((if j = i then some e else none).map ((sessionOf i).step c.anonymous)).getD
            c.anonymous) := by
    intro cells j cj e hj heq halive
    rw [heq, getElem?_set_eq _ _ _ hj]
    by_cases hji : j = i
    · subst hji
      rw [hc, Option.some.injEq] at hj
      subst hj
      rw [if_pos rfl, if_pos rfl, Option.map_some, anonymous_step m.reactor halive j]
      rfl
    · rw [if_neg hji, if_neg hji, hc]
      rfl
  have hquiet : (step m l).sessions = m.sessions →
      (sessionOf i).view (step m l) = some c.anonymous := by
    intro hsame
    change (step m l).sessions[i]?.map Cell.anonymous = _
    rw [hsame, hc, Option.map_some]
  cases l with
  | arrive j d bs =>
      obtain ⟨cj, hj⟩ : ∃ cj, m.sessions[j]? = some cj := ⟨_, List.getElem?_eq_getElem hadm⟩
      exact hmove hj (onSession_sessions hj _) fun _ _ he => by cases he
  | connectDone j status =>
      obtain ⟨cj, hj, -⟩ := Option.map_eq_some_iff.mp hadm.1
      exact hmove hj (onSession_sessions hj _) fun _ _ he => by cases he
  | notify o =>
      rcases hcall : m.nextCall with _ | ⟨_ | j, method⟩
      · rw [Admissible, hcall] at hadm
        cases hadm
      · rw [Admissible, hcall] at hadm
        cases hadm
      · obtain ⟨cj, hj, halive, -⟩ := h.alive hcall
        have hstep : step m (.notify o) = m.onNotify j method o := by
          unfold step
          rw [hcall]
        have hevent : ownEvent i m (.notify o)
            = if j = i then some (.notify method o) else none := by
          unfold ownEvent
          rw [hcall]
        rw [hstep, hevent]
        exact hmove hj (onNotify_sessions hj method o) fun _ _ _ => halive
  | accept connection =>
      cases connection with
      | none => exact hquiet rfl
      | some a =>
          obtain ⟨cells, hcells, -⟩ := onAccept_sessions m a
          change (m.onAccept a).sessions[i]?.map Cell.anonymous = _
          rw [hcells, List.getElem?_append_left (List.getElem?_eq_some_iff.mp hc).1, hc]
          rfl
  | _ => exact hquiet (sessions_of_quiet (by simp) (by simp) (by simp) (by simp))

/-- Only an accepted connection makes a new session. -/
theorem length_of_not_accept {m : Machine} {l : Label} (haccept : ∀ a, l ≠ .accept (some a)) :
    (step m l).sessions.length = m.sessions.length := by
  have hsession : ∀ j (f : World → World),
      (m.onSession j f).sessions.length = m.sessions.length := by
    intro j f
    unfold Machine.onSession
    split
    · rfl
    · exact List.length_set
  cases l with
  | arrive j d bs => exact hsession j _
  | connectDone j status => exact hsession j _
  | notify o =>
      unfold step
      dsimp only
      split
      · unfold Machine.onNotify
        split
        · rfl
        · exact List.length_set
      · rfl
  | accept connection =>
      cases connection with
      | none => rfl
      | some a => exact absurd rfl (haccept a)
  | _ => exact congrArg List.length (sessions_of_quiet (by simp) (by simp) (by simp) (by simp))

/-- **One step**: a session comes as what its connection makes of it. -/
theorem sessionOf_comes {m : Machine} {l : Label} {i : ℕ} {c : Cell}
    (hnone : (sessionOf i).view m = none) (hsome : (sessionOf i).view (step m l) = some c) :
    (sessionOf i).born l = some c := by
  have hlength : m.sessions.length ≤ i :=
    List.getElem?_eq_none_iff.mp (Option.map_eq_none_iff.mp hnone)
  obtain ⟨c', hc', rfl⟩ := Option.map_eq_some_iff.mp hsome
  by_cases haccept : ∃ a, l = .accept (some a)
  · obtain ⟨a, rfl⟩ := haccept
    obtain ⟨cells, hcells, hnew⟩ := onAccept_sessions m a
    change (m.onAccept a).sessions[i]? = some c' at hc'
    rw [hcells, List.getElem?_append_right hlength] at hc'
    -- what has been added is what `createServiceHandler` has left
    have hcreated := createServiceHandler_anonymous a.setup a.outcomes
      (.session m.sessions.length) (m.acceptConnection a.sockfd) (m.nextSocket + 1) m.reactor
    cases hw : (createServiceHandler a.setup a.outcomes (.session m.sessions.length)
        (m.acceptConnection a.sockfd) (m.nextSocket + 1) m.reactor).2 with
    | none =>
        rw [hnew, hw] at hc'
        cases hc'
    | some w =>
        rw [hnew, hw] at hc'
        obtain rfl : c' = .ofWorld w := by simpa using List.mem_of_getElem? hc'
        rw [hw, Option.map_some] at hcreated
        exact ((congrArg (Option.map Cell.ofWorld) hcreated).trans (Option.map_map _ _ _)).symm
  · have hsame := length_of_not_accept (m := m) fun a ha => haccept ⟨a, ha⟩
    rw [List.getElem?_eq_none (hsame ▸ hlength)] at hc'
    cases hc'

theorem sessionOf_separate (i : ℕ) : (sessionOf i).Separate Machine.Safe Step where
  comes _ _ _ _ _ hstep hnone hsome := by
    obtain ⟨-, rfl⟩ := hstep
    exact sessionOf_comes hnone hsome
  moves _ _ _ _ h hstep hc := by
    obtain ⟨hadm, rfl⟩ := hstep
    obtain ⟨c, hcell, rfl⟩ := Option.map_eq_some_iff.mp hc
    exact sessionOf_moves h hadm hcell

/-! ## Runs -/

/-- A session, after any run, is what it would be alone. -/
theorem session_alone (sockfd : Fd) {ts : List (Transition Machine Label)}
    (hrun : IsRun Step (Machine.listening sockfd) ts) (i : ℕ) :
    (last (Machine.listening sockfd) ts).sessions[i]?.map Cell.anonymous
      = (sessionOf i).alone ((sessionOf i).origin ts) ((sessionOf i).events ts) :=
  (sessionOf_separate i).view_last (fun _ _ _ h hstep => safe_step h hstep)
    (listening_safe sockfd) rfl hrun

/-- The descriptors of the connection that it comes with do not matter. -/
theorem alone_anonymous (i : ℕ) (origin : Option Label) (events : List Event) :
    (sessionOf i).alone (origin.map Label.anonymous) events
      = (sessionOf i).alone origin events := by
  have hborn : ∀ l : Label, (sessionOf i).born l.anonymous = (sessionOf i).born l := by
    intro l
    rcases l with _ | _ | _ | _ | _ | _ | _ | (_ | a) | _ | _ | _ <;> try rfl
    exact Cell.accepted_anonymous a
  rw [Component.alone, Component.alone]
  cases origin with
  | none => rfl
  | some l => rw [Option.map_some, Option.bind_some, Option.bind_some, hborn]

/-- **Sessions are isolated.** Of two runs of a reactor, with any other sessions on it, take a
session of each. If their connections were accepted in the same way, up to the descriptors, and the
same has happened to them, in the same order, then they are the same, up to the descriptors and the
addresses of their objects. -/
theorem sessions_isolated {sockfd sockfd' : Fd} {ts ts' : List (Transition Machine Label)}
    (hrun : IsRun Step (Machine.listening sockfd) ts)
    (hrun' : IsRun Step (Machine.listening sockfd') ts') {i i' : ℕ}
    (horigin : ((sessionOf i).origin ts).map Label.anonymous
      = ((sessionOf i').origin ts').map Label.anonymous)
    (hevents : (sessionOf i).events ts = (sessionOf i').events ts') :
    (last (Machine.listening sockfd) ts).sessions[i]?.map Cell.anonymous
      = (last (Machine.listening sockfd') ts').sessions[i']?.map Cell.anonymous := by
  rw [session_alone sockfd hrun i, session_alone sockfd' hrun' i', ← alone_anonymous i,
    ← alone_anonymous i', horigin, hevents]
  rfl

/-- One bypass session, which hands on two bytes. -/
def oneSession : List Label :=
  [.poll (some [(0, ⟨true, false, false⟩)]), .dispatch,
   .accept (some ⟨5, sampleSetup .byPass, {}⟩),
   .connectDone 0 .succeeded, .arrive 0 .front [1, 2],
   .poll (some [(2, ⟨false, true, false⟩), (1, ⟨true, false, false⟩)]),
   .dispatch, .notify {}, .skip, .skip, .skip,
   .dispatch, .notify { receive := .bytes 1 [2], send := .accepts 2 }]

/-- The same session, with other descriptors, as the second one of a reactor, and an error on the
first one in between. -/
def sameSession : List Label :=
  [.poll (some [(0, ⟨true, false, false⟩)]), .dispatch,
   .accept (some ⟨6, { service := .ok (some .custom), backFd := 8 }, {}⟩),
   .poll (some [(0, ⟨true, false, false⟩)]), .dispatch,
   .accept (some ⟨9, { sampleSetup .byPass with backFd := 10 }, {}⟩),
   .connectDone 1 .succeeded, .arrive 0 .front [9], .arrive 1 .front [1, 2],
   .poll (some [(4, ⟨false, true, false⟩), (1, ⟨false, false, true⟩), (3, ⟨true, false, false⟩)]),
   .dispatch, .notify {}, .skip, .skip, .skip,
   .dispatch, .skip, .skip, .notify {},
   .dispatch, .notify { receive := .bytes 1 [2], send := .accepts 2 }, .skip]

theorem allowed_oneSession : Allowed Admissible step (Machine.listening 3) oneSession := by
  decide +kernel

theorem allowed_sameSession : Allowed Admissible step (Machine.listening 4) sameSession := by
  decide +kernel

theorem sessions_isolated_sameSession :
    ((sessionOf 0).origin (unroll step (Machine.listening 3) oneSession)).isSome = true ∧
      (last (Machine.listening 3) (unroll step (Machine.listening 3) oneSession)).sessions[0]?.map
          Cell.anonymous
        = (last (Machine.listening 4)
            (unroll step (Machine.listening 4) sameSession)).sessions[1]?.map Cell.anonymous :=
  ⟨by decide +kernel, sessions_isolated (isRun_unroll allowed_oneSession)
    (isRun_unroll allowed_sameSession) (by rfl) (by rfl)⟩

end PocoProxy.ReactorLoop
