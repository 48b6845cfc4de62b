/-
The poll set of the reactor, in its implementation for Windows.

`PollSetImpl` keeps its entries by descriptor: a map from descriptors to
sockets, the modes that wait to be added, the descriptors that wait to be
removed, and the array that is handed to `WSAPoll`. Every operation takes the
descriptor from the socket when it is called. The array and the map of pending
modes say in `owner` for which socket an entry was made; the code has no such
field and nothing here branches on it.
-/
import PocoProxy.Socket
import Mathlib.Data.List.AList
import Mathlib.Data.Finset.Basic

set_option autoImplicit false

namespace PocoProxy.PollSet

open PocoProxy.Socket

/-- The bits `POLL_READ`, `POLL_WRITE` and `POLL_ERROR`. -/
structure PollMode where
  read : Bool
  write : Bool
  error : Bool
  deriving DecidableEq, Repr

/-- `if (mode)`. -/
def PollMode.nonzero (mode : PollMode) : Bool := mode.read || mode.write || mode.error

/-- `POLLIN` and `POLLOUT` of a `pollfd`. -/
structure PollEvents where
  pollIn : Bool
  pollOut : Bool
  deriving DecidableEq, Repr

structure PollFd where
  fd : Fd
  events : PollEvents
  owner : SocketId
  deriving DecidableEq, Repr

structure PendingAdd where
  mode : PollMode
  owner : SocketId
  deriving DecidableEq, Repr

structure PollSetImpl where
  socketMap : AList (fun _ : Fd => SocketId) := ∅
  wantPollOut : Finset Fd := ∅
  addMap : AList (fun _ : Fd => PendingAdd) := ∅
  removeSet : Finset Fd := ∅
  pollfds : List PollFd := []

namespace PollSetImpl

/-- `PollSetImpl::add`. -/
def add (p : PollSetImpl) (socket : SocketImpl) (mode : PollMode) : PollSetImpl :=
  let fd := socket.sockfd
  { p with
    addMap := p.addMap.insert fd ⟨mode, socket.id⟩
    removeSet := p.removeSet.erase fd
    socketMap := p.socketMap.insert fd socket.id }

/-- `PollSetImpl::remove`. -/
def remove (p : PollSetImpl) (socket : SocketImpl) : PollSetImpl :=
  let fd := socket.sockfd
  { p with
    removeSet := insert fd p.removeSet
    addMap := p.addMap.erase fd
    socketMap := p.socketMap.erase fd }

/-- `PollSetImpl::setMode`, what it sets in a `pollfd` and what it does to the
descriptors whose `POLLOUT` is wanted. -/
def eventsOf (mode : PollMode) : PollEvents := ⟨mode.read, true⟩

def setMode (want : Finset Fd) (fd : Fd) (mode : PollMode) : Finset Fd :=
  if mode.write then insert fd want else want.erase fd

/-- `PollSetImpl::update`. -/
def update (p : PollSetImpl) (socket : SocketImpl) (mode : PollMode) : PollSetImpl :=
  let fd := socket.sockfd
  { p with
    pollfds := p.pollfds.map fun e => if e.fd = fd then { e with events := eventsOf mode } else e
    wantPollOut := if p.pollfds.any (·.fd = fd) then setMode p.wantPollOut fd mode
      else p.wantPollOut }

/-- What `PollSetImpl::poll` does to the set before it waits: the entries to be
removed leave the array and the pending ones enter it. They enter it with the
newest first, where the `std::map` goes by the descriptors; nothing depends on the
order of the array. -/
def prepare (p : PollSetImpl) : PollSetImpl :=
  { p with
    pollfds := p.pollfds.filter (fun e => e.fd ∉ p.removeSet)
      ++ p.addMap.entries.map fun a => ⟨a.1, eventsOf a.2.mode, a.2.owner⟩
    wantPollOut := p.addMap.entries.foldl (fun want a => setMode want a.1 a.2.mode) p.wantPollOut
    removeSet := ∅
    addMap := ∅ }

/-- The descriptors that have an entry of any kind. -/
def Holds (p : PollSetImpl) (fd : Fd) : Prop :=
  fd ∈ p.socketMap ∨ fd ∈ p.addMap ∨ ∃ e ∈ p.pollfds, e.fd = fd

/-- An entry of any kind was made for the socket. -/
def HoldsFor (p : PollSetImpl) (socket : SocketId) : Prop :=
  (∃ fd, p.socketMap.lookup fd = some socket) ∨
    (∃ fd a, p.addMap.lookup fd = some a ∧ a.owner = socket) ∨
    ∃ e ∈ p.pollfds, e.owner = socket

end PollSetImpl

end PocoProxy.PollSet
