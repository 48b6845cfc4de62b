/-
The calls of the system under a session's calls of Poco.

`Session` has an answer ready for every call on a socket. Here these calls are what Poco makes
of the system's: `SocketImpl::receiveBytes` and `SocketImpl::sendBytes` repeat a call that was
interrupted, `StreamSocketImpl::sendBytes` goes on sending as long as the socket blocks, and a
code of the system becomes an exception. What the system does is a script, which says what
happens while a call waits and what it returns. A call for which the script has no return, or
one that `recv` and `send` are not documented to give, goes on waiting.

No timeout is ever set on a socket, so `checkBrokenTimeout` has nothing to do.
-/
import PocoProxy.Lib.Triple
import PocoProxy.SessionRun
import Mathlib.Logic.Relation

set_option autoImplicit false

namespace PocoProxy.SocketCalls

open PocoProxy.Program PocoProxy.Socket PocoProxy.Reactor PocoProxy.Session

/-! ## The system -/

/-- What `WSAGetLastError` returns. -/
abbrev ErrorCode := ℕ

def POCO_ENOERR : ErrorCode := 0
def POCO_EINTR : ErrorCode := 10004
def POCO_EWOULDBLOCK : ErrorCode := 10035
def POCO_EAGAIN : ErrorCode := 10035
def POCO_ECONNRESET : ErrorCode := 10054
def POCO_ETIMEDOUT : ErrorCode := 10060

inductive Happening where
  /-- The peer of that side sends. -/
  | arrive (d : Side) (bs : List Byte)
  /-- The non-blocking connect of the back socket completes. -/
  | connectDone (status : ConnectStatus)
  /-- The call that waits returns, with this as the last error. -/
  | returns (rc : ℤ) (err : ErrorCode)
  deriving DecidableEq, Repr

/-- The program, and what the system is going to do. -/
structure Process where
  world : World
  script : List Happening
  lastError : ErrorCode

/-- Why a method has not come to its end. -/
inductive Interruption where
  | thrown (e : Exception)
  /-- A call of the system has not returned. -/
  | waiting
  deriving DecidableEq, Repr

/-- Whether `catch (Poco::Exception& e)` takes it. -/
def Interruption.isPoco : Interruption → Bool
  | .thrown e => e.isPoco
  | .waiting => false

/-- The methods, down to the calls of the system. -/
abbrev CallAct := Prog Interruption Process

/-- A part of a method that makes no such call. -/
def act {α : Type} (x : Act α) : CallAct α := fun s =>
  ((x s.world).1.mapError .thrown, { s with world := (x s.world).2 })

/-- `SocketImpl::lastError`. -/
def lastError : CallAct ErrorCode := fun s => (.ok s.lastError, s)

/-- The world when the call returns, what it returns, and the rest of the script. -/
def await : World → List Happening → World × Option (ℤ × ErrorCode) × List Happening
  | w, [] => (w, none, [])
  | w, .arrive d bs :: rest => await (step w (.arrive d bs)) rest
  | w, .connectDone status :: rest =>
    if Admissible w (.connectDone status) then await (step w (.connectDone status)) rest
    else (w, none, rest)
  | w, .returns rc err :: rest => (w, some (rc, err), rest)

/-- A call that may return a number between `least` and `most`, or minus one and an error: that
it would block only if the socket does not block. -/
def Documented (s : SocketImpl) (least most : ℕ) (rc : ℤ) (err : ErrorCode) : Prop :=
  (least ≤ rc ∧ rc ≤ most) ∨
    rc = -1 ∧ err ≠ POCO_ENOERR ∧ (err = POCO_EWOULDBLOCK → s.blocking = false)

instance (s : SocketImpl) (least most : ℕ) (rc : ℤ) (err : ErrorCode) :
    Decidable (Documented s least most rc err) := inferInstanceAs (Decidable (_ ∨ _))

/-- A call on the socket of side `d`. It returns as it may, and `effect` is what it has done. -/
def systemCall (d : Side) (least : ℕ) (most : SocketImpl → ℕ) (effect : ℤ → World → World) :
    CallAct ℤ := fun s =>
  match await s.world s.script with
  | (w, some (rc, err), rest) =>
    if Documented (w.session.socket d) least (most (w.session.socket d)) rc err then
      (.ok rc, ⟨effect rc w, rest, err⟩)
    else (.error .waiting, ⟨w, rest, s.lastError⟩)
  | (w, none, rest) => (.error .waiting, ⟨w, rest, s.lastError⟩)

/-- What has arrived and has not been received. -/
def pending (s : SocketImpl) : List Byte := s.arrived.drop s.received.length

/-- The next bytes that have arrived are in the buffer. -/
def recvEffect (d : Side) (rc : ℤ) (w : World) : World :=
  if 0 < rc then w.received d ((pending (w.session.socket d)).take rc.toNat) else w

/-- `::recv` into the buffer of that side. -/
def recv (d : Side) (length : ℕ) : CallAct ℤ :=
  systemCall d 0 (fun s => min length (pending s).length) (recvEffect d)

/-- The first bytes of `p` have been taken. -/
def sendEffect (d : Side) (p : List Byte) (rc : ℤ) (w : World) : World :=
  if 0 < rc then w.accepted d (p.take rc.toNat) else w

/-- `::send` of the bytes at `p`. -/
def send (d : Side) (p : List Byte) : CallAct ℤ :=
  systemCall d 1 (fun _ => p.length) (sendEffect d p)

/-! ## `SocketImpl` and `StreamSocketImpl` -/

/-- `SocketImpl::error`. All that is thrown is a `Poco::Exception`. -/
def error (code : ErrorCode) : CallAct Unit :=
  if code = POCO_ENOERR then pure ()
  else if code = POCO_EWOULDBLOCK then Prog.throw (.thrown .wouldBlock)
  else Prog.throw (.thrown .poco)

/-- A round of the `do` loop around `::recv` and `::send`. -/
def attempt (d : Side) (call : CallAct ℤ) : CallAct (Unit ⊕ ℤ) := do
  let s ← act self
  if (s.socket d).sockfd = POCO_INVALID_SOCKET then
    Prog.throw (.thrown .poco)
  else do
    let rc ← call
    let err ← lastError
    if (s.socket d).blocking = true ∧ rc < 0 ∧ err = POCO_EINTR then
      return .inl ()
    else
      return .inr rc

/-- The `do` loop. Every round uses something up of the script. -/
def retrying (d : Side) (call : CallAct ℤ) : CallAct ℤ := fun s =>
  Prog.loop .waiting (fun _ => attempt d call) (s.script.length + 1) () s

/-- What `receiveBytes` does when the call has failed. -/
def receiveFailed (d : Side) (rc : ℤ) : CallAct ℤ := do
  let err ← lastError
  let s ← act self
  if err = POCO_EAGAIN ∧ (s.socket d).blocking = false then
    return rc
  else if err = POCO_EAGAIN ∨ err = POCO_ETIMEDOUT then
    Prog.throw (.thrown .poco)
  else do
    error err
    return rc

/-- `SocketImpl::receiveBytes`. -/
def receiveBytes (d : Side) (length : ℕ) : CallAct ℤ := do
  let rc ← retrying d (recv d length)
  if rc < 0 then
    receiveFailed d rc
  else
    return rc

namespace SocketImpl

/-- `SocketImpl::sendBytes`. -/
def sendBytes (d : Side) (buffer : List Byte) : CallAct ℤ := do
  let rc ← retrying d (send d buffer)
  if rc < 0 then do
    let err ← lastError
    error err
    return rc
  else
    return rc

end SocketImpl

/-- The variables of the `while` loop of `StreamSocketImpl::sendBytes`: what `p` points to,
`remaining` bytes, and how many have been sent. -/
structure Sending where
  p : List Byte
  sent : ℤ

/-- A round of the loop. -/
def sendRound (d : Side) (blocking : Bool) (x : Sending) : CallAct (Sending ⊕ ℤ) :=
  if 0 < x.p.length then do
    let n ← SocketImpl.sendBytes d x.p
    let x : Sending := ⟨x.p.drop n.toNat, x.sent + n⟩
    if blocking = true ∧ 0 < x.p.length then
      return .inl x
    else
      return .inr x.sent
  else
    return .inr x.sent

/-- `StreamSocketImpl::sendBytes`. -/
def sendBytes (d : Side) (buffer : List Byte) : CallAct ℤ := fun s =>
  (do
    let session ← act self
    Prog.loop .waiting (sendRound d (session.socket d).blocking) (s.script.length + 1)
      ⟨buffer, 0⟩) s

/-! ## The methods of the session that call them -/

/-- The body of the method that a virtual call selects. -/
def callbackBody (o : Outcomes) : ServiceKind → Callback → CallAct Unit
  | .byPass, .onFrontReadable buffer => do
    let _ ← sendBytes .back buffer
  | .byPass, .onBackReadable buffer => do
    let _ ← sendBytes .front buffer
  | kind, c => act (Session.callbackBody o kind c)

def callService (o : Outcomes) (c : Callback) : CallAct Unit := do
  let s ← act self
  match s.m_service with
  | none => pure ()
  | some v => do
    act (assign fun s => s.recorded (.call c))
    callbackBody o v.kind c

/-- `onFrontReadable` and `onBackReadable`. -/
def onReadable (d : Side) (o : Outcomes) : CallAct Unit :=
  Prog.tryCatch Interruption.isPoco
    (do
      let s ← act self
      if s.m_back_connected = false then
        pure ()
      else do
        let n ← receiveBytes d m_buffer_len
        if n ≤ 0 then
          act (close o)
        else do
          let s ← act self
          callService o (.onReadable d (bufferContent (s.buffer d) n)))
    (fun _ => act (caught o))

/-- The session's method that an observer calls. Of `o` it takes the answers to the other calls. -/
def handler : Method → Outcomes → CallAct Unit
  | .onFrontReadable, o => onReadable .front o
  | .onBackReadable, o => onReadable .back o
  | method, o => act (Session.handler method o)

end PocoProxy.SocketCalls
