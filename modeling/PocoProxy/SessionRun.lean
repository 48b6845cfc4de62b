/-
The runs of one session.

A run starts when `createServiceHandler` has registered the session, and goes on
with notifications in any order, one at a time, as long as the session has not
been deleted. In between, bytes arrive on the two sockets, the connect of the
back socket completes, and other sessions change the reactor's registry.

`Admissible` is where Poco and the system come in: it says what the calls in a
handler can come to. Nothing else is assumed of them; in particular a log
statement may throw at any place, and notifications are not tied to what the
sockets are ready for.
-/
import PocoProxy.SessionSpec
import PocoProxy.Lib.Runs
import Mathlib.Data.List.Infix

set_option autoImplicit false

namespace PocoProxy.Session

open PocoProxy.Program PocoProxy.Socket PocoProxy.Reactor PocoProxy.Runs

/-! ## What the calls can come to -/

/-- `sendBytes` of `length` bytes: a blocking socket takes them all, a
non-blocking one takes some or throws `wouldBlock`; a call that throws has not
taken them all. -/
def SendOk (s : SocketImpl) (length : ℕ) : SendOutcome → Prop
  | .accepts count => 1 ≤ count ∧ count ≤ length ∧ (s.blocking = true → count = length)
  | .throws count e => count < length ∧ (e = .poco ∨ e = .wouldBlock ∧ s.blocking = false)

/-- `receiveBytes` on the socket of side `d`, and on the other one `sendBytes` of
the bytes received, which only the bypass handler calls. -/
def DataOk (s : ProxySession) (d : Side) (o : Outcomes) : Prop :=
  match o.receive with
  | .bytes first rest =>
    (first :: rest).length ≤ m_buffer_len ∧
      (s.socket d).received ++ first :: rest <+: (s.socket d).arrived ∧
      (s.m_service.map Service.kind = some .byPass →
        SendOk (s.socket d.other) (first :: rest).length o.send)
  | .endOfStream => True
  | .wouldBlock => (s.socket d).blocking = false
  | .throws e => e = .poco

instance (s : SocketImpl) (length : ℕ) : (o : SendOutcome) → Decidable (SendOk s length o)
  | .accepts _ => inferInstanceAs (Decidable (_ ∧ _ ∧ (_ → _)))
  | .throws _ _ => inferInstanceAs (Decidable (_ ∧ (_ ∨ _ ∧ _)))

instance (s : ProxySession) (d : Side) (o : Outcomes) : Decidable (DataOk s d o) := by
  unfold DataOk
  split <;> infer_instance

/-- The side that a method reads from. -/
def readSide : Method → Option Side
  | .onFrontReadable => some .front
  | .onBackReadable => some .back
  | _ => none

/-! ## Steps -/

inductive Event where
  /-- The peer of that side sends. -/
  | arrive (d : Side) (bs : List Byte)
  /-- The non-blocking connect of the back socket completes. -/
  | connectDone (status : ConnectStatus)
  /-- The acceptor or another session changes the registry. -/
  | elsewhere (r : SocketReactor)
  /-- The reactor calls a method. -/
  | notify (m : Method) (o : Outcomes)

def Admissible (w : World) : Event → Prop
  | .arrive _ _ => True
  | .connectDone status =>
    w.session.m_back.connect = .pending ∧ (status = .succeeded ∨ status = .failed)
  | .elsewhere _ => True
  | .notify m o =>
    w.Alive ∧ m ≠ .onAccept ∧
      ∀ d, readSide m = some d → w.session.m_back_connected = true → DataOk w.session d o

instance (w : World) : (e : Event) → Decidable (Admissible w e)
  | .arrive _ _ => inferInstanceAs (Decidable True)
  | .connectDone _ => inferInstanceAs (Decidable (_ ∧ (_ ∨ _)))
  | .elsewhere _ => inferInstanceAs (Decidable True)
  | .notify m o =>
    match h : readSide m with
    | none => decidable_of_iff (w.Alive ∧ m ≠ .onAccept) (by simp [Admissible, h])
    | some d => decidable_of_iff (w.Alive ∧ m ≠ .onAccept ∧
        (w.session.m_back_connected = true → DataOk w.session d o)) (by simp [Admissible, h])

def step (w : World) : Event → World
  | .arrive d bs => { w with
      session := w.session.setSocket d fun k => { k with arrived := k.arrived ++ bs } }
  | .connectDone status => { w with
      session := w.session.setSocket .back fun k => { k with connect := status } }
  | .elsewhere r => { w with reactor := r }
  | .notify m o => (handler m o w).2

def Step (w : World) (e : Event) (w' : World) : Prop := Admissible w e ∧ w' = step w e

theorem step_notify {w : World} (h : w.Alive) (m : Method) (o : Outcomes) :
    step w (.notify m o) = w.handle m o := handler_after h m o

/-! ## The start of a run -/

/-- A socket that `acceptConnection` returns. -/
structure FrontOk (s : SocketImpl) : Prop where
  open_ : s.sockfd ≠ POCO_INVALID_SOCKET
  blocking : s.blocking = true
  connected : s.connect = .succeeded
  received : s.received = []
  accepted : s.accepted = []

/-- The service and the connecting back socket are in place, and the handlers
are registered. -/
def World.attached (backFd : Fd) (status : ConnectStatus) (service : Option ServiceKind)
    (w : World) : World :=
  let back := { w.session.m_back with sockfd := backFd, blocking := false, connect := status }
  { w with
    session := { w.session with
      m_back := back
      m_service := service.map fun kind => ⟨kind, [.call .onFrontConnect]⟩ }
    reactor := addHandlers (addHandlers w.reactor w.session.m_front w.session.this frontMethods)
      back w.session.this backMethods }

/-- The service is in place, and `connectNB` has thrown. -/
def World.unattached (backFd : Fd) (service : Option ServiceKind) (w : World) : World :=
  { w with session := { w.session with
      m_back := { w.session.m_back with sockfd := backFd, blocking := false }
      m_service := service.map fun kind => ⟨kind, []⟩ } }

/-- The world in which `createServiceHandler` leaves a session that it has
registered. -/
def started (backFd : Fd) (status : ConnectStatus) (service : Option ServiceKind)
    (this : ObjectId) (front : SocketImpl) (backId : SocketId) (r : SocketReactor) : World :=
  (World.constructed this front backId r).attached backFd status service

theorem registerHandler_run {w : World} (h : w.Alive) :
    registerHandler w = (.ok (), { w with
      reactor := addHandlers (addHandlers w.reactor w.session.m_front w.session.this frontMethods)
        w.session.m_back w.session.this backMethods }) := by
  rw [registerHandler, self_bind h]
  rfl

theorem connectNB_run {w : World} (h : w.Alive) {u : Setup} {status : ConnectStatus}
    (hu : u.connect = .ok status) :
    connectNB u w = (.ok (), { w with session := { w.session with
      m_back := { w.session.m_back with
        sockfd := u.backFd, blocking := false, connect := status } } }) := by
  rw [connectNB, hu, assign_bind h]
  exact assign_run (by exact h) _

theorem connectNB_error {w : World} (h : w.Alive) {u : Setup} {e : Exception}
    (hu : u.connect = .error e) :
    connectNB u w = (.error e, { w with session := { w.session with
      m_back := { w.session.m_back with sockfd := u.backFd, blocking := false } } }) := by
  rw [connectNB, hu, assign_bind h]
  rfl

/-- `SetService`, when `connectNB` does not throw. Whether `OnFrontConnect` throws
makes no difference to what is left. -/
theorem setService_after {w : World} (h : w.Alive) {u : Setup} {status : ConnectStatus}
    (o : Outcomes) (service : Option ServiceKind) (hu : u.connect = .ok status) :
    (setService u o service w).2 = w.attached u.backFd status service := by
  rw [setService, assign_bind h, Prog.bind_of_ok (connectNB_run (by exact h) hu),
    Prog.bind_of_ok (registerHandler_run (by exact h)),
    callService_connect (by exact h) o (.inl rfl)]
  simp only [World.called, ProxySession.recorded, World.attached, Option.map_map]
  rfl

/-- `createServiceHandler`, when the log statement of the constructor, the
handler creator and `connectNB` do not throw. -/
theorem createServiceHandler_started (u : Setup) (o : Outcomes) {status : ConnectStatus}
    {service : Option ServiceKind} (this : ObjectId) (front : SocketImpl) (backId : SocketId)
    (r : SocketReactor) (hlog : logThrows o .constructed front = false)
    (hservice : u.service = .ok service) (hconnect : u.connect = .ok status) :
    (createServiceHandler u o this front backId r).2
      = some (started u.backFd status service this front backId r) := by
  have hrun := log_front_run (w := World.constructed this front backId r) rfl o .constructed
  rw [show (World.constructed this front backId r).session.m_front = front from rfl, hlog] at hrun
  simp only [createServiceHandler, hrun, Bool.false_eq_true, if_false, attachService, hservice]
  exact congrArg some (setService_after (by exact rfl) o service hconnect)

/-- The handler creator and `connectNB` return, so that `SetService` gets to
`RegisterHandler`. -/
def Registers (u : Setup) : Prop :=
  (∃ service, u.service = .ok service) ∧ ∃ status, u.connect = .ok status

/-- **What `createServiceHandler` leaves**, when it leaves a session at all: one
that is registered, or one that has got as far as the handler creator or
`connectNB`, one of which has thrown. -/
theorem createServiceHandler_leaves {u : Setup} {o : Outcomes} {this : ObjectId}
    {front : SocketImpl} {backId : SocketId} {r : SocketReactor} {w : World}
    (h : (createServiceHandler u o this front backId r).2 = some w) :
    (∃ status service, u.service = .ok service ∧ u.connect = .ok status ∧
        w = started u.backFd status service this front backId r) ∨
      (¬ Registers u ∧ (w = World.constructed this front backId r ∨
        ∃ service, w = (World.constructed this front backId r).unattached u.backFd service)) := by
  have hrun := log_front_run (w := World.constructed this front backId r) rfl o .constructed
  rw [show (World.constructed this front backId r).session.m_front = front from rfl] at hrun
  by_cases hlog : logThrows o .constructed front = true
  · -- the constructor throws, and the object is gone
    rw [if_pos hlog] at hrun
    simp only [createServiceHandler, hrun, reduceCtorEq] at h
  rw [if_neg hlog] at hrun
  cases hservice : u.service with
  | error e =>
      -- nothing has been done yet but the construction
      simp only [createServiceHandler, hrun, attachService, hservice, Option.some.injEq] at h
      refine .inr ⟨fun hreg => ?_, .inl h.symm⟩
      obtain ⟨⟨service, hs⟩, -⟩ := hreg
      rw [hservice] at hs
      cases hs
  | ok service =>
      cases hconnect : u.connect with
      | ok status =>
          have hstarted := createServiceHandler_started u o this front backId r
            (by simpa using hlog) hservice hconnect
          rw [hstarted, Option.some.injEq] at h
          exact .inl ⟨status, service, rfl, rfl, h.symm⟩
      | error e =>
          -- the service is there, and no handler has been registered
          have hset : setService u o service (World.constructed this front backId r)
              = (.error e,
                (World.constructed this front backId r).unattached u.backFd service) := by
            rw [setService, assign_bind (by exact rfl)]
            exact Prog.bind_of_error (connectNB_error (by exact rfl) hconnect)
          simp only [createServiceHandler, hrun, attachService, hservice, hset,
            Option.some.injEq] at h
          refine .inr ⟨fun hreg => ?_, .inr ⟨service, h.symm⟩⟩
          obtain ⟨-, status, hs⟩ := hreg
          rw [hconnect] at hs
          cases hs

/-- The reactor knows nothing of a session that is not registered, and its
service, if it has one, has not been called. -/
theorem createServiceHandler_cases {u : Setup} {o : Outcomes} {this : ObjectId}
    {front : SocketImpl} {backId : SocketId} {r : SocketReactor} {w : World}
    (h : (createServiceHandler u o this front backId r).2 = some w) :
    (∃ status service, u.service = .ok service ∧ u.connect = .ok status ∧
        w = started u.backFd status service this front backId r) ∨
      (¬ Registers u ∧ w.reactor = r ∧ ∀ v, w.session.m_service = some v → v.trace = []) := by
  rcases createServiceHandler_leaves h with hstarted | ⟨hreg, rfl | ⟨service, rfl⟩⟩
  · exact .inl hstarted
  · refine .inr ⟨hreg, rfl, ?_⟩
    intro v hv
    cases hv
  · refine .inr ⟨hreg, rfl, ?_⟩
    intro v hv
    obtain ⟨kind, -, rfl⟩ := Option.map_eq_some_iff.mp hv
    rfl

/-- The session of `w` has just been registered. -/
def Started (w : World) : Prop :=
  ∃ backFd status service this front backId r,
    FrontOk front ∧ backFd ≠ POCO_INVALID_SOCKET ∧
      (status = .pending ∨ status = .succeeded) ∧
      w = started backFd status service this front backId r

/-- A socket that has been accepted, on descriptor 5. -/
def sampleFront : SocketImpl := ⟨1, 5, true, .succeeded, [], [], []⟩

/-- A set-up that succeeds, with the back socket on descriptor 7. -/
def sampleSetup (kind : ServiceKind) : Setup := { service := .ok (some kind), backFd := 7 }

/-- The session that it leaves, with nothing else in the reactor. -/
def sample (kind : ServiceKind) : World :=
  started 7 .pending (some kind) (.session 0) sampleFront 2 {}

theorem started_sample (kind : ServiceKind) : Started (sample kind) :=
  ⟨7, .pending, some kind, .session 0, _, 2, {}, ⟨by decide, rfl, rfl, rfl, rfl⟩, by decide,
    .inl rfl, rfl⟩

/-- The session has a service of this class. -/
def HasService (kind : ServiceKind) (w : World) : Prop :=
  ∃ trace, w.session.m_service = some ⟨kind, trace⟩

theorem HasService.kind {kind : ServiceKind} {w : World} (h : HasService kind w) :
    w.session.m_service.map Service.kind = some kind := by
  obtain ⟨trace, hs⟩ := h
  rw [hs]
  rfl

theorem hasService_sample (kind : ServiceKind) : HasService kind (sample kind) :=
  ⟨[.call .onFrontConnect], rfl⟩

end PocoProxy.Session
