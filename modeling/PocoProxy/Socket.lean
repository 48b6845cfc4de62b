/-
Sockets, and what the calls on them may come to.

A `StreamSocket` of the source is a handle on a `SocketImpl`; two handles are the
same socket when they point to the same object, and the reactor keeps its
handlers by that pointer. A `SocketImpl` here has the pointer as its `id`, the
descriptor, the blocking mode, what became of its connect, and the three byte
sequences of its life: what the peer has sent on it so far, how much of that
`receiveBytes` has handed out, and what `sendBytes` has accepted.

What a call on a socket comes to is not decided by the program. An `Outcomes`
holds one answer for every place of one handler at which the program asks; the
names of the fields are the places. `Admissible` in `SessionRun` says which
answers Poco and the system can give.
-/
import Mathlib.Algebra.Group.Nat.Defs

set_option autoImplicit false

namespace PocoProxy.Socket

abbrev Byte := UInt8

/-- The address of a `SocketImpl`, which is what `Socket::operator ==` and
`Socket::operator <` compare. -/
abbrev SocketId := ℕ

/-- `poco_socket_t`. -/
abbrev Fd := ℕ

/-- `POCO_INVALID_SOCKET`, the largest value of the unsigned `SOCKET`. -/
def POCO_INVALID_SOCKET : Fd := 2 ^ 64 - 1

/-- What is thrown. Only the first two are `Poco::Exception`s. -/
inductive Exception where
  /-- `IOException` with "Operation would block". -/
  | wouldBlock
  /-- Any other `Poco::Exception`. -/
  | poco
  /-- An exception that is not a `Poco::Exception`, from a user's callback. -/
  | other
  deriving DecidableEq, Repr

/-- Whether `catch (Poco::Exception& e)` takes the exception. -/
def Exception.isPoco : Exception → Bool
  | .wouldBlock => true
  | .poco => true
  | .other => false

/-- The two sockets of a session. -/
inductive Side where
  | front
  | back
  deriving DecidableEq, Repr

/-- The socket that the bypass handler writes to what it has read from this one. -/
def Side.other : Side → Side
  | .front => .back
  | .back => .front

theorem Side.both {P : Side → Prop} (front : P .front) (back : P .back) : ∀ d, P d
  | .front => front
  | .back => back

@[simp] theorem Side.other_other (d : Side) : d.other.other = d := by cases d <;> rfl

/-- What has become of the connect of a socket. An accepted socket has
succeeded. -/
inductive ConnectStatus where
  | unconnected
  | pending
  | succeeded
  | failed
  deriving DecidableEq, Repr

structure SocketImpl where
  id : SocketId
  sockfd : Fd
  blocking : Bool
  connect : ConnectStatus
  /-- All that the peer has sent so far. -/
  arrived : List Byte
  /-- What `receiveBytes` has returned of it. -/
  received : List Byte
  /-- What `sendBytes` has accepted. -/
  accepted : List Byte
  deriving DecidableEq, Repr

namespace SocketImpl

/-- A default-constructed `StreamSocket`: an object, but no descriptor yet. -/
def unopened (id : SocketId) : SocketImpl where
  id := id
  sockfd := POCO_INVALID_SOCKET
  blocking := true
  connect := .unconnected
  arrived := []
  received := []
  accepted := []

/-- `SocketImpl::close`. -/
def close (s : SocketImpl) : SocketImpl := { s with sockfd := POCO_INVALID_SOCKET }

/-- Whether `getpeername` can find a peer at all. -/
def isConnected (s : SocketImpl) : Bool :=
  s.sockfd != POCO_INVALID_SOCKET && s.connect == .succeeded

end SocketImpl

/-- The places at which a session calls `front_address` or `back_address`, all of
them arguments of a log statement. -/
inductive AddressSite where
  /-- `ProxySession::ProxySession`. -/
  | constructed
  /-- `onFrontShutdown`, `onFrontError`, `onBackShutdown`, `onBackError`. -/
  | notified
  /-- `onBackWritable`, after `OnBackConnect`. -/
  | connected
  /-- The `catch` of a handler. -/
  | caught
  /-- `Close`, the front socket. -/
  | closingFront
  /-- `Close`, the back socket. -/
  | closingBack
  deriving DecidableEq, Repr

/-- What `receiveBytes` comes to. A number of bytes greater than zero, zero and
minus one are three different ends, so the bytes are never the empty list. -/
inductive ReceiveOutcome where
  | bytes (first : Byte) (rest : List Byte)
  | endOfStream
  | wouldBlock
  | throws (e : Exception)
  deriving DecidableEq, Repr

/-- What `sendBytes` comes to. Bytes may be accepted also when it throws: on a
blocking socket it is a loop of `send` calls, and the last one failed. -/
inductive SendOutcome where
  | accepts (count : ℕ)
  | throws (count : ℕ) (e : Exception)
  deriving DecidableEq, Repr

/-- How many bytes were accepted. -/
def SendOutcome.count : SendOutcome → ℕ
  | .accepts count => count
  | .throws count _ => count

/-- What was thrown. -/
def SendOutcome.thrown : SendOutcome → Option Exception
  | .accepts _ => none
  | .throws _ e => some e

/-- The answers to the calls that one handler makes. -/
structure Outcomes where
  /-- Whether plog has a logger, so that the arguments of `LOGI` and `LOGE` are
  evaluated. -/
  logging : Bool := false
  /-- Where `peerAddress` throws although the socket is connected. -/
  peerFails : AddressSite → Bool := fun _ => false
  receive : ReceiveOutcome := .wouldBlock
  send : SendOutcome := .accepts 0
  /-- What a connect or data callback of a user's handler throws. -/
  callback : Option Exception := none

end PocoProxy.Socket
