/-
`ProxySession` and its service, as `CPOCOProxyServer.cpp` has them.

A session owns the accepted socket, the socket to the back server and the
service object, is called by the reactor through seven methods, and deletes
itself at the end of `Close`. Each method is a program over a `World`: the
session's members, how often the object has been deleted, whether a member was
used after that, and the reactor. An exception leaves a method with the members
as they are at that point.

The texts of the log statements are left out; their arguments are not, because
evaluating `front_address()` or `back_address()` may throw. They are evaluated
only when plog has a logger.
-/
import PocoProxy.Lib.Program
import PocoProxy.Reactor

set_option autoImplicit false

namespace PocoProxy.Session

open PocoProxy.Program PocoProxy.Socket PocoProxy.Reactor

/-! ## The objects -/

/-- The virtual methods of `CPOCOProxyHandler`, with the bytes that the data
callbacks get. -/
inductive Callback where
  | onFrontConnect
  | onFrontDisconnect
  | onFrontReadable (buffer : List Byte)
  | onBackConnect
  | onBackDisconnect
  | onBackReadable (buffer : List Byte)
  deriving DecidableEq, Repr

/-- What happens to a service object: its methods are called, and it is
deleted. -/
inductive ServiceEvent where
  | call (c : Callback)
  | deleted
  deriving DecidableEq, Repr

/-- The class of a service object. -/
inductive ServiceKind where
  /-- `CPOCOProxyHandler` itself, whose methods do nothing. -/
  | plain
  /-- `CPOCOProxyByPassHandler`. -/
  | byPass
  /-- A user's class; its connect and data callbacks may throw. -/
  | custom
  deriving DecidableEq, Repr

structure Service where
  kind : ServiceKind
  /-- What has happened to the object, in order. -/
  trace : List ServiceEvent
  deriving DecidableEq, Repr

structure ProxySession where
  this : ObjectId
  m_front : SocketImpl
  m_back : SocketImpl
  m_front_buffer : Option (List Byte)
  m_back_buffer : Option (List Byte)
  m_service : Option Service
  m_back_connected : Bool
  m_closed : Bool
  deriving DecidableEq, Repr

/-- `m_buffer_len`. -/
def m_buffer_len : ℕ := 1024 * 2

namespace ProxySession

/-- `m_front` or `m_back`. -/
def socket (s : ProxySession) : Side → SocketImpl
  | .front => s.m_front
  | .back => s.m_back

def setSocket (s : ProxySession) (d : Side) (f : SocketImpl → SocketImpl) : ProxySession :=
  match d with
  | .front => { s with m_front := f s.m_front }
  | .back => { s with m_back := f s.m_back }

/-- `m_front_buffer` or `m_back_buffer`. -/
def buffer (s : ProxySession) : Side → Option (List Byte)
  | .front => s.m_front_buffer
  | .back => s.m_back_buffer

def setBuffer (s : ProxySession) (d : Side) (b : Option (List Byte)) : ProxySession :=
  match d with
  | .front => { s with m_front_buffer := b }
  | .back => { s with m_back_buffer := b }

/-- The entry of the service's trace that `e` adds. -/
def recorded (s : ProxySession) (e : ServiceEvent) : ProxySession :=
  { s with m_service := s.m_service.map fun v => { v with trace := v.trace ++ [e] } }

end ProxySession

structure World where
  session : ProxySession
  /-- How often `delete this` has run. -/
  deletions : ℕ
  /-- A member was used after the object had been deleted. -/
  touched : Bool
  reactor : SocketReactor

namespace World

/-- A member of the session is used. -/
def touch (w : World) : World := { w with touched := w.touched || w.deletions != 0 }

/-- The session has not been deleted. -/
def Alive (w : World) : Prop := w.deletions = 0

instance (w : World) : Decidable w.Alive := inferInstanceAs (Decidable (_ = _))

end World

/-- The methods of the session, and what they call. -/
abbrev Act := Prog Exception World

/-- Reads the members. -/
def self : Act ProxySession := fun w => (.ok w.session, w.touch)

/-- Assigns to members. -/
def assign (f : ProxySession → ProxySession) : Act Unit :=
  Prog.modify fun w => { w.touch with session := f w.session }

/-! ## Poco calls -/

/-- `Socket::peerAddress`. -/
def peerAddress (o : Outcomes) (site : AddressSite) (s : SocketImpl) : Act Unit :=
  if s.isConnected && !o.peerFails site then pure () else Prog.throw .poco

/-- `StreamSocket::receiveBytes` into the buffer of that side. -/
def receiveBytes (d : Side) (o : Outcomes) : Act ℤ :=
  match o.receive with
  | .bytes first rest => do
    let bs := first :: rest
    assign fun s => (s.setSocket d fun k => { k with received := k.received ++ bs }).setBuffer d bs
    return bs.length
  | .endOfStream => return 0
  | .wouldBlock => return -1
  | .throws e => Prog.throw e

/-- `StreamSocket::sendBytes`. -/
def sendBytes (d : Side) (o : Outcomes) (buffer : List Byte) : Act ℤ :=
  match o.send with
  | .accepts count => do
    assign fun s => s.setSocket d fun k => { k with accepted := k.accepted ++ buffer.take count }
    return count
  | .throws count e => do
    assign fun s => s.setSocket d fun k => { k with accepted := k.accepted ++ buffer.take count }
    Prog.throw e

/-! ## The service's methods -/

/-- `CPOCOProxyByPassHandler::OnFrontReadable`. -/
def ByPass.onFrontReadable (o : Outcomes) (buffer : List Byte) : Act Unit := do
  let _ ← sendBytes .back o buffer

/-- `CPOCOProxyByPassHandler::OnBackReadable`. -/
def ByPass.onBackReadable (o : Outcomes) (buffer : List Byte) : Act Unit := do
  let _ ← sendBytes .front o buffer

/-- The body of the method that a virtual call selects. The disconnect
callbacks of a user's class do not throw. -/
def callbackBody (o : Outcomes) : ServiceKind → Callback → Act Unit
  | .byPass, .onFrontReadable buffer => ByPass.onFrontReadable o buffer
  | .byPass, .onBackReadable buffer => ByPass.onBackReadable o buffer
  | .custom, .onFrontDisconnect => pure ()
  | .custom, .onBackDisconnect => pure ()
  | .custom, _ =>
    match o.callback with
    | some e => Prog.throw e
    | none => pure ()
  | _, _ => pure ()

/-- `if (m_service) m_service->…`. -/
def callService (o : Outcomes) (c : Callback) : Act Unit := do
  let s ← self
  match s.m_service with
  | none => pure ()
  | some v => do
    assign fun s => s.recorded (.call c)
    callbackBody o v.kind c

/-! ## `ProxySession` -/

/-- `LOGI << …` and `LOGE << …` with these arguments. -/
def log (o : Outcomes) (arguments : Act Unit) : Act Unit :=
  if o.logging then arguments else pure ()

def frontAddress (o : Outcomes) (site : AddressSite) : Act Unit := do
  let s ← self
  peerAddress o site s.m_front

def backAddress (o : Outcomes) (site : AddressSite) : Act Unit := do
  let s ← self
  peerAddress o site s.m_back

/-- The observers of `m_front`, in the order of `RegisterHandler`. -/
def frontMethods : List Method := [.onFrontReadable, .onFrontShutdown, .onFrontError]

/-- The observers of `m_back`, in the order of `RegisterHandler`. -/
def backMethods : List Method := [.onBackWritable, .onBackReadable, .onBackShutdown, .onBackError]

/-- Adds the methods of `object` as observers of the socket, one after the
other. -/
def addHandlers (r : SocketReactor) (socket : SocketImpl) (object : ObjectId) :
    List Method → SocketReactor
  | [] => r
  | m :: ms => addHandlers (r.addEventHandler socket ⟨object, m⟩) socket object ms

/-- Removes them, in the same order. -/
def removeHandlers (r : SocketReactor) (socket : SocketImpl) (object : ObjectId) :
    List Method → SocketReactor
  | [] => r
  | m :: ms => removeHandlers (r.removeEventHandler socket ⟨object, m⟩) socket object ms

def registerHandler : Act Unit := do
  let s ← self
  Prog.modify fun w => { w with
    reactor := addHandlers (addHandlers w.reactor s.m_front s.this frontMethods)
      s.m_back s.this backMethods }

def unregisterHandler : Act Unit := do
  let s ← self
  Prog.modify fun w => { w with
    reactor := removeHandlers (removeHandlers w.reactor s.m_front s.this frontMethods)
      s.m_back s.this backMethods }
  assign fun s => { s with m_front_buffer := none }
  assign fun s => { s with m_back_buffer := none }

/-- `delete this`: the destructor, and the object is gone. -/
def deleteThis : Act Unit := do
  unregisterHandler
  Prog.modify fun w => { w with deletions := w.deletions + 1 }

/-- `Close`, from `m_back_connected = false` on. -/
def tearDown (o : Outcomes) : Act Unit := do
  assign fun s => { s with m_back_connected := false }
  assign fun s => { s with m_back := s.m_back.close }
  assign fun s => { s with m_front := s.m_front.close }
  callService o .onFrontDisconnect
  callService o .onBackDisconnect
  assign fun s => s.recorded .deleted
  deleteThis

def close (o : Outcomes) : Act Unit := do
  let s ← self
  assign fun s => { s with m_closed := true }
  if s.m_closed then
    pure ()
  else do
    log o do
      frontAddress o .closingFront
      backAddress o .closingBack
    tearDown o

/-- The `catch (Poco::Exception& e)` of the handlers. -/
def caught (o : Outcomes) : Act Unit := do
  log o (frontAddress o .caught)
  close o

/-- `onFrontShutdown`, `onFrontError`, `onBackShutdown` and `onBackError` have
the same statements; the log statement names the front socket in all four. -/
def notified (o : Outcomes) : Act Unit := do
  log o (frontAddress o .notified)
  close o

def onFrontShutdown (o : Outcomes) : Act Unit := notified o
def onFrontError (o : Outcomes) : Act Unit := notified o
def onBackShutdown (o : Outcomes) : Act Unit := notified o
def onBackError (o : Outcomes) : Act Unit := notified o

/-- The data callback of a side. -/
def Callback.onReadable : Side → List Byte → Callback
  | .front => .onFrontReadable
  | .back => .onBackReadable

/-- The first `n` bytes of a buffer that may be null. -/
def bufferContent (b : Option (List Byte)) (n : ℤ) : List Byte := (b.getD []).take n.toNat

/-- `onFrontReadable` and `onBackReadable` are the same up to the side. -/
def onReadable (d : Side) (o : Outcomes) : Act Unit :=
  Prog.tryCatch Exception.isPoco
    (do
      let s ← self
      if s.m_back_connected = false then
        pure ()
      else do
        let n ← receiveBytes d o
        if n ≤ 0 then
          close o
        else do
          let s ← self
          callService o (.onReadable d (bufferContent (s.buffer d) n)))
    (fun _ => caught o)

def onFrontReadable (o : Outcomes) : Act Unit := onReadable .front o
def onBackReadable (o : Outcomes) : Act Unit := onReadable .back o

def onBackWritable (o : Outcomes) : Act Unit :=
  Prog.tryCatch Exception.isPoco
    (do
      let s ← self
      if s.m_back_connected = false then do
        assign fun s => { s with m_back_connected := true }
        callService o .onBackConnect
        log o (backAddress o .connected)
      else
        pure ())
    (fun _ => caught o)

/-- The session's method that an observer calls. -/
def handler : Method → Outcomes → Act Unit
  | .onAccept => fun _ => pure ()
  | .onFrontReadable => onFrontReadable
  | .onFrontShutdown => onFrontShutdown
  | .onFrontError => onFrontError
  | .onBackWritable => onBackWritable
  | .onBackReadable => onBackReadable
  | .onBackShutdown => onBackShutdown
  | .onBackError => onBackError

/-! ## Setting a session up -/

/-- What the calls in `createServiceHandler` come to, beside those in
`Outcomes`. -/
structure Setup where
  /-- What the handler creator returns: a service, null, or it throws. -/
  service : Except Exception (Option ServiceKind) := .ok none
  /-- The descriptor that `connectNB` opens. -/
  backFd : Fd := POCO_INVALID_SOCKET
  /-- The status in which `connectNB` leaves the socket, or what it throws. -/
  connect : Except Exception ConnectStatus := .ok .pending

/-- `SocketImpl::connectNB`: the socket is opened and made non-blocking before
the connect is tried. -/
def connectNB (u : Setup) : Act Unit := do
  assign fun s => { s with m_back := { s.m_back with sockfd := u.backFd, blocking := false } }
  match u.connect with
  | .ok status => assign fun s => { s with m_back := { s.m_back with connect := status } }
  | .error e => Prog.throw e

def setService (u : Setup) (o : Outcomes) (service : Option ServiceKind) : Act Unit := do
  assign fun s => { s with m_service := service.map fun kind => ⟨kind, []⟩ }
  connectNB u
  registerHandler
  callService o .onFrontConnect

/-- The member initialisers and the two `new byte[]` of the constructor. -/
def ProxySession.construct (this : ObjectId) (front : SocketImpl) (backId : SocketId) :
    ProxySession where
  this := this
  m_front := front
  m_back := SocketImpl.unopened backId
  m_front_buffer := some []
  m_back_buffer := some []
  m_service := none
  m_back_connected := false
  m_closed := false

/-- A new session. -/
def World.constructed (this : ObjectId) (front : SocketImpl) (backId : SocketId)
    (r : SocketReactor) : World where
  session := ProxySession.construct this front backId
  deletions := 0
  touched := false
  reactor := r

/-- `CPOCOProxyAcceptor::createServiceHandler`, after the session has been
constructed. -/
def attachService (u : Setup) (o : Outcomes) : Act Unit :=
  match u.service with
  | .error e => Prog.throw e
  | .ok service => setService u o service

/-- `CPOCOProxyAcceptor::createServiceHandler`. When the constructor throws
there is no session; later exceptions leave it behind as it is. -/
def createServiceHandler (u : Setup) (o : Outcomes) (this : ObjectId) (front : SocketImpl)
    (backId : SocketId) (r : SocketReactor) : Except Exception Unit × Option World :=
  match log o (frontAddress o .constructed) (World.constructed this front backId r) with
  | (.error e, _) => (.error e, none)
  | (.ok _, w) =>
    let (result, w) := attachService u o w
    (result, some w)

end PocoProxy.Session
