/-
The reactor's loop, with all the sessions on one reactor.

`SocketReactor::run` polls, dispatches what the poll has returned, and ends with
the shutdown broadcast. It is cut here into the steps between which the state can
be looked at: a round begins, a dispatch finds the notifier of a socket and takes
a snapshot of its observers, one observer of the snapshot is notified. So a
`Machine` holds, besides the reactor and the sessions, what `run` has on its
stack: the dispatches that are still to come and the rest of the snapshot.

A socket's `SocketImpl` lives as long as anything refers to it, the snapshots
included; so addresses are never used again here, and `nextSocket` is the next
new one. What a poll returns, which of the calls throw, the order of the map of
notifiers, and the descriptors that the system hands out are up to the label of
a step.
-/
import PocoProxy.SessionRun
import PocoProxy.ReactorSpec

set_option autoImplicit false

namespace PocoProxy.ReactorLoop

open PocoProxy.Program PocoProxy.Socket PocoProxy.PollSet PocoProxy.Reactor PocoProxy.Session

/-! ## The state -/

/-- A session object. The reactor is the machine's. -/
structure Cell where
  session : ProxySession
  deletions : ℕ
  touched : Bool

def Cell.world (c : Cell) (r : SocketReactor) : World := ⟨c.session, c.deletions, c.touched, r⟩

def Cell.ofWorld (w : World) : Cell := ⟨w.session, w.deletions, w.touched⟩

/-- The three functions called `dispatch`. -/
inductive Task where
  /-- `dispatch(it->first, …)`, for an entry of the poll result. -/
  | socket (socket : SocketId) (kind : NotificationKind)
  /-- `dispatch(*it, …)`, for a notifier of a broadcast. -/
  | notifier (p : NotifierPtr) (kind : NotificationKind)
  /-- `dispatch(pNotification)`, which is `onTimeout`, `onIdle` or `onShutdown`. -/
  | broadcast (kind : NotificationKind)
  deriving DecidableEq, Repr

def Task.isBroadcast : Task → Bool
  | .socket _ _ => false
  | .notifier _ _ => false
  | .broadcast _ => true

structure Machine where
  reactor : SocketReactor
  /-- The listening socket. -/
  server : SocketImpl
  sessions : List Cell
  nextSocket : SocketId
  /-- What the current round still has to dispatch. -/
  tasks : List Task
  /-- What is left of `observersToNotify`. -/
  observersToNotify : List Observer
  /-- The notification that they are notified of. -/
  notification : NotificationKind
  stop : Bool
  /-- The shutdown broadcast has begun, and `run` does not go round again. -/
  shuttingDown : Bool

namespace Machine

/-- The `SocketAcceptor`'s observer. -/
def acceptTarget : Target := ⟨.acceptor, .onAccept⟩

/-- The machine after the constructor of `SocketAcceptor`, when `run` is called. -/
def listening (sockfd : Fd) : Machine where
  reactor := ({} : SocketReactor).addEventHandler { SocketImpl.unopened 0 with sockfd := sockfd }
    acceptTarget
  server := { SocketImpl.unopened 0 with sockfd := sockfd }
  sessions := []
  nextSocket := 1
  tasks := []
  observersToNotify := []
  notification := .idle
  stop := false
  shuttingDown := false

/-- The loop stands at `while (!_stop)`. -/
def BetweenRounds (m : Machine) : Prop :=
  m.tasks = [] ∧ m.observersToNotify = [] ∧ m.shuttingDown = false

instance (m : Machine) : Decidable m.BetweenRounds := inferInstanceAs (Decidable (_ ∧ _ ∧ _))

/-- `SocketReactor::hasSocketHandlers`. -/
def hasSocketHandlers (m : Machine) : Bool :=
  !m.reactor.pollSet.socketMap.entries.isEmpty &&
    m.reactor.handlers.entries.any fun e => (m.reactor.notifiers e.2).mode.nonzero

/-- The call that the next observer of the snapshot makes: none if the observer
has been disabled or does not accept the notification. -/
def nextCall (m : Machine) : Option Target :=
  match m.observersToNotify with
  | [] => none
  | o :: _ =>
    if o.id ∉ m.reactor.disabled ∧ o.accepts m.notification then some o.target else none

/-- The session and the method that it calls. -/
def calledSession (m : Machine) : Option (Cell × Method) :=
  match m.nextCall with
  | some ⟨.session i, method⟩ => m.sessions[i]?.map fun c => (c, method)
  | _ => none

/-- The descriptors in use. -/
def openFds (m : Machine) : List Fd :=
  m.server.sockfd :: m.sessions.flatMap fun c => [c.session.m_front.sockfd, c.session.m_back.sockfd]

/-- A descriptor that the system can hand out. -/
def Fresh (m : Machine) (fd : Fd) : Prop := fd ≠ POCO_INVALID_SOCKET ∧ fd ∉ m.openFds

instance (m : Machine) (fd : Fd) : Decidable (m.Fresh fd) := inferInstanceAs (Decidable (_ ∧ _))

end Machine

/-! ## Steps -/

/-- A connection that `acceptConnection` returns, and what comes of the calls in
`createServiceHandler`. -/
structure Accepted where
  sockfd : Fd
  setup : Setup
  outcomes : Outcomes

inductive Label where
  /-- `SocketReactor::stop`, from another thread. -/
  | stop
  /-- `_pollSet.poll(_timeout)` returns this map, or throws. -/
  | poll (result : Option (List (SocketId × PollMode)))
  | idle
  | shutdown
  /-- The first task, if it is for a socket or a notifier. -/
  | dispatch
  /-- The first task, if it is a broadcast: the notifiers, in the order of the map. -/
  | broadcast (delegates : List NotifierPtr)
  /-- The next observer does nothing. -/
  | skip
  /-- The next observer calls `onAccept`; `acceptConnection` throws if there is no
  connection. -/
  | accept (connection : Option Accepted)
  /-- The next observer calls a method of a session. -/
  | notify (o : Outcomes)
  /-- The peer of a session's socket sends. -/
  | arrive (i : ℕ) (d : Side) (bs : List Byte)
  /-- The connect of a session's back socket completes. -/
  | connectDone (i : ℕ) (status : ConnectStatus)

/-- The dispatches for one entry of the poll result. -/
def entryTasks (e : SocketId × PollMode) : List Task :=
  (if e.2.read then [.socket e.1 .readable] else []) ++
    (if e.2.write then [.socket e.1 .writable] else []) ++
    (if e.2.error then [.socket e.1 .error] else [])

/-- The dispatches of one round. -/
def roundTasks (result : List (SocketId × PollMode)) : List Task :=
  result.flatMap entryTasks ++
    if result.any fun e => e.2.read then [] else [.broadcast .timeout]

/-- An exception leaves the loop over the observers. -/
def remaining (result : Except Exception Unit) (observers : List Observer) : List Observer :=
  match result with
  | .ok _ => observers
  | .error _ => []

namespace Machine

/-- A session's own step. -/
def onSession (m : Machine) (i : ℕ) (f : World → World) : Machine :=
  match m.sessions[i]? with
  | none => m
  | some c =>
    let w := f (c.world m.reactor)
    { m with sessions := m.sessions.set i (.ofWorld w), reactor := w.reactor }

/-- `pNotifier->dispatch(pNotification)`, up to the copy of the observers. -/
def post (m : Machine) (p : NotifierPtr) (kind : NotificationKind) : Machine :=
  { m with observersToNotify := (m.reactor.notifiers p).observers, notification := kind }

/-- The socket that `acceptConnection` returns. -/
def acceptConnection (m : Machine) (sockfd : Fd) : SocketImpl :=
  ⟨m.nextSocket, sockfd, true, .succeeded, [], [], []⟩

/-- A session, and its sockets, are there or not, and the registry is what its
construction has left. -/
def addSession (m : Machine) : Option World → Machine
  | none => { m with nextSocket := m.nextSocket + 2 }
  | some w =>
    { m with
      sessions := m.sessions ++ [.ofWorld w]
      reactor := w.reactor
      nextSocket := m.nextSocket + 2 }

/-- `SocketAcceptor::onAccept`, after `acceptConnection` has returned. -/
def onAccept (m : Machine) (a : Accepted) : Machine :=
  let (result, session) := createServiceHandler a.setup a.outcomes (.session m.sessions.length)
    (m.acceptConnection a.sockfd) (m.nextSocket + 1) m.reactor
  { m.addSession session with
    observersToNotify := remaining result m.observersToNotify.tail }

/-- The method that the next observer calls runs on the session. -/
def onNotify (m : Machine) (i : ℕ) (method : Method) (o : Outcomes) : Machine :=
  match m.sessions[i]? with
  | none => m
  | some c =>
    let (result, w) := handler method o (c.world m.reactor)
    { m with
      sessions := m.sessions.set i (.ofWorld w)
      reactor := w.reactor
      observersToNotify := remaining result m.observersToNotify.tail }

end Machine

/-- The descriptors of the two sockets are new ones, and a connect that does not
throw has opened its socket. -/
def AcceptOk (m : Machine) (a : Accepted) : Prop :=
  m.Fresh a.sockfd ∧
    (a.setup.backFd ≠ POCO_INVALID_SOCKET → m.Fresh a.setup.backFd ∧ a.setup.backFd ≠ a.sockfd) ∧
    match a.setup.connect with
    | .ok status => a.setup.backFd ≠ POCO_INVALID_SOCKET ∧ (status = .pending ∨ status = .succeeded)
    | .error _ => True

instance (m : Machine) (a : Accepted) : Decidable (AcceptOk m a) := by
  unfold AcceptOk
  split <;> infer_instance

/-- The target is a method of a session. -/
def isSessionCall : Option Target → Bool
  | some ⟨.session _, _⟩ => true
  | _ => false

def Admissible (m : Machine) : Label → Prop
  | .stop => True
  | .poll _ => m.BetweenRounds ∧ m.stop = false ∧ m.hasSocketHandlers = true
  | .idle => m.BetweenRounds ∧ m.stop = false ∧ m.hasSocketHandlers = false
  | .shutdown => m.BetweenRounds ∧ m.stop = true
  | .dispatch => m.observersToNotify = [] ∧ m.tasks.head?.map Task.isBroadcast = some false
  | .broadcast delegates =>
    m.observersToNotify = [] ∧ m.tasks.head?.map Task.isBroadcast = some true ∧
      delegates.Perm (m.reactor.handlers.entries.map Sigma.snd)
  | .skip => m.observersToNotify ≠ [] ∧ m.nextCall = none
  | .accept connection => m.nextCall = some Machine.acceptTarget ∧ ∀ a ∈ connection, AcceptOk m a
  | .notify _ => isSessionCall m.nextCall = true
  | .arrive i _ _ => i < m.sessions.length
  | .connectDone i status =>
    m.sessions[i]?.map (fun c => c.session.m_back.connect) = some .pending ∧
      (status = .succeeded ∨ status = .failed)

instance (m : Machine) (l : Label) : Decidable (Admissible m l) := by
  cases l <;> unfold Admissible <;> infer_instance

def step (m : Machine) : Label → Machine
  | .stop => { m with stop := true }
  | .poll result =>
    { m with
      reactor := { m.reactor with pollSet := m.reactor.pollSet.prepare }
      tasks := (result.map roundTasks).getD [] }
  | .idle => { m with tasks := [.broadcast .idle] }
  | .shutdown => { m with tasks := [.broadcast .shutdown], shuttingDown := true }
  | .dispatch =>
    match m.tasks with
    | .socket s kind :: tasks =>
      match m.reactor.getNotifier s with
      | some p => { m with tasks := tasks }.post p kind
      | none => { m with tasks := tasks }
    | .notifier p kind :: tasks => { m with tasks := tasks }.post p kind
    | _ => m
  | .broadcast delegates =>
    match m.tasks with
    | .broadcast kind :: tasks => { m with tasks := delegates.map (.notifier · kind) ++ tasks }
    | _ => m
  | .skip => { m with observersToNotify := m.observersToNotify.tail }
  | .accept none => { m with observersToNotify := [] }
  | .accept (some a) => m.onAccept a
  | .notify o =>
    match m.nextCall with
    | some ⟨.session i, method⟩ => m.onNotify i method o
    | _ => m
  | .arrive i d bs => m.onSession i fun w => Session.step w (.arrive d bs)
  | .connectDone i status => m.onSession i fun w => Session.step w (.connectDone status)

def Step (m : Machine) (l : Label) (m' : Machine) : Prop := Admissible m l ∧ m' = step m l

end PocoProxy.ReactorLoop
