/-
The reactor's registry: which object is called for which notification on which
socket.

`SocketReactor` has one `SocketNotifier` for every socket with handlers, found
by the socket's pointer. A notifier has the list of its observers, each of them
an object and a method, and the multiset of the events somebody waits for, from
which the poll mode of the socket is computed.

Notifiers and observers are reference-counted objects, and a dispatch holds on
to those it has taken a snapshot of. So a notifier is an index into a heap that
only grows, and an observer has an `id` of its own; `removeObserver` sets the
observer's object to null, which is being in `disabled` here.
-/
import PocoProxy.PollSet
import Mathlib.Logic.Function.Basic

set_option autoImplicit false

namespace PocoProxy.Reactor

open PocoProxy.Socket PocoProxy.PollSet

/-- The notification classes that a reactor dispatches. -/
inductive NotificationKind where
  | readable
  | writable
  | error
  | timeout
  | idle
  | shutdown
  deriving DecidableEq, Repr

/-- The methods that are registered as callbacks: the acceptor's, and the seven
of a session. -/
inductive Method where
  | onAccept
  | onFrontReadable
  | onFrontShutdown
  | onFrontError
  | onBackWritable
  | onBackReadable
  | onBackShutdown
  | onBackError
  deriving DecidableEq, Repr

/-- The notification class in the parameter type of a method. -/
def Method.kind : Method → NotificationKind
  | .onAccept => .readable
  | .onFrontReadable => .readable
  | .onFrontShutdown => .shutdown
  | .onFrontError => .error
  | .onBackWritable => .writable
  | .onBackReadable => .readable
  | .onBackShutdown => .shutdown
  | .onBackError => .error

/-- The objects with callbacks. Sessions are numbered as they are created. -/
inductive ObjectId where
  | acceptor
  | session (index : ℕ)
  deriving DecidableEq, Repr

/-- What `Observer::equals` compares. -/
structure Target where
  object : ObjectId
  method : Method
  deriving DecidableEq, Repr

/-- A `Poco::Observer` in a notification center. -/
structure Observer where
  id : ℕ
  target : Target
  deriving DecidableEq, Repr

/-- `Observer::accepts`: the `dynamic_cast` to the parameter type succeeds. -/
def Observer.accepts (o : Observer) (kind : NotificationKind) : Bool :=
  o.target.method.kind == kind

/-! ## One socket's notifier -/

structure SocketNotifier where
  observers : List Observer := []
  events : List NotificationKind := []

namespace SocketNotifier

/-- The notifications that `_events` counts. -/
def counted : NotificationKind → Bool
  | .readable => true
  | .writable => true
  | .error => true
  | .timeout => true
  | .idle => false
  | .shutdown => false

def hasObserver (n : SocketNotifier) (t : Target) : Bool := n.observers.any (·.target = t)

def countObservers (n : SocketNotifier) : ℕ := n.observers.length

def accepts (n : SocketNotifier) (kind : NotificationKind) : Bool := n.events.contains kind

def addObserver (n : SocketNotifier) (o : Observer) : SocketNotifier where
  observers := n.observers ++ [o]
  events := if counted o.target.method.kind then o.target.method.kind :: n.events else n.events

def removeObserver (n : SocketNotifier) (t : Target) : SocketNotifier where
  observers := n.observers.eraseP (·.target = t)
  events := n.events.erase t.method.kind

/-- The mode that `addEventHandler` and `removeEventHandler` compute. -/
def mode (n : SocketNotifier) : PollMode :=
  ⟨n.accepts .readable, n.accepts .writable, n.accepts .error⟩

end SocketNotifier

/-! ## The registry -/

/-- A `NotifierPtr`: an index into the heap of notifiers. -/
abbrev NotifierPtr := ℕ

structure SocketReactor where
  handlers : AList (fun _ : SocketId => NotifierPtr) := ∅
  notifiers : NotifierPtr → SocketNotifier := fun _ => {}
  nextNotifier : NotifierPtr := 0
  nextObserver : ℕ := 0
  /-- The observers whose object has been set to null. -/
  disabled : Finset ℕ := ∅
  pollSet : PollSetImpl := {}

namespace SocketReactor

/-- `getNotifier(socket)`. -/
def getNotifier (r : SocketReactor) (socket : SocketId) : Option NotifierPtr :=
  r.handlers.lookup socket

/-- `getNotifier(socket, true)`. -/
def getOrMakeNotifier (r : SocketReactor) (socket : SocketId) : NotifierPtr × SocketReactor :=
  match r.getNotifier socket with
  | some p => (p, r)
  | none => (r.nextNotifier,
      { r with
        handlers := r.handlers.insert socket r.nextNotifier
        notifiers := Function.update r.notifiers r.nextNotifier {}
        nextNotifier := r.nextNotifier + 1 })

/-- `pNotifier->addObserver(this, observer)`; the clone gets a new `id`. -/
def addObserver (r : SocketReactor) (p : NotifierPtr) (t : Target) : SocketReactor :=
  { r with
    notifiers := Function.update r.notifiers p ((r.notifiers p).addObserver ⟨r.nextObserver, t⟩)
    nextObserver := r.nextObserver + 1 }

/-- `pNotifier->removeObserver(this, observer)`: the first equal observer is
disabled and leaves the list. -/
def removeObserver (r : SocketReactor) (p : NotifierPtr) (t : Target) : SocketReactor :=
  { r with
    notifiers := Function.update r.notifiers p ((r.notifiers p).removeObserver t)
    disabled := match (r.notifiers p).observers.find? (·.target = t) with
      | some o => insert o.id r.disabled
      | none => r.disabled }

/-- `SocketReactor::addEventHandler`. -/
def addEventHandler (r : SocketReactor) (socket : SocketImpl) (t : Target) : SocketReactor :=
  let (p, r) := r.getOrMakeNotifier socket.id
  let r := if (r.notifiers p).hasObserver t then r else r.addObserver p t
  let mode := (r.notifiers p).mode
  if mode.nonzero then { r with pollSet := r.pollSet.add socket mode } else r

/-- `SocketReactor::removeEventHandler`. A descriptor is an unsigned number on
Windows, so that the invalid one is greater than zero. -/
def removeEventHandler (r : SocketReactor) (socket : SocketImpl) (t : Target) : SocketReactor :=
  match r.getNotifier socket.id with
  | none => r
  | some p =>
    if (r.notifiers p).hasObserver t then
      let r := if (r.notifiers p).countObservers = 1 then
          { r with
            handlers := r.handlers.erase socket.id
            pollSet := r.pollSet.remove socket }
        else r
      let r := r.removeObserver p t
      if 0 < (r.notifiers p).countObservers ∧ 0 < socket.sockfd then
        { r with pollSet := r.pollSet.update socket (r.notifiers p).mode }
      else r
    else r

end SocketReactor

end PocoProxy.Reactor
