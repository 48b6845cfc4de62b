/-
`CPOCOProxyServer`: one thread that activates and deactivates it, and the thread
it starts.

Every statement of `Activate`, `Deactivate`, the thread function and `ThreadLoop`
is one step, and the two threads take their steps in any order. Testing
`m_reactor` and calling `m_reactor->stop()` are two statements. The texts of the
log statements are left out; the statements are not, as they are places at which
the other thread may come in between. A statement that can throw a
`Poco::Exception` has a second step for that.

Of the reactor, the flag that `stop` sets and `run` tests before each round is
all that this file knows; of the server socket and the acceptor, whether they
exist. `m_thread` is joinable from the creation of the thread until `join`
returns.
-/
import PocoProxy.Lib.Runs
import Mathlib.Data.Int.Notation
import Mathlib.Tactic.Common

set_option autoImplicit false

namespace PocoProxy.Server

open PocoProxy.Runs

-- The type of the handler creators. The server stores one and passes it on.
variable {Creator : Type}

/-! ## The state -/

/-- The arguments of `Activate`. -/
structure Arguments (Creator : Type) where
  front_port : ℤ
  back_ip : String
  back_port : ℤ
  creator : Creator
  deriving DecidableEq

/-- The statements of `Activate`, each named by what it does next. -/
inductive ActivatePc where
  | log
  | testRunning
  | setFrontPort
  | setBackIp
  | setBackPort
  | setCreator
  | testJoinable
  | join
  | startThread
  /-- It has returned this. -/
  | returned (result : Bool)
  deriving DecidableEq, Repr

/-- The statements of `Deactivate`. -/
inductive DeactivatePc where
  | log
  | testReactor
  | stop
  | testJoinable
  | join
  | returned (result : Bool)
  deriving DecidableEq, Repr

/-- Where the controller is. -/
inductive Controller (Creator : Type) where
  | idle
  | activate (pc : ActivatePc) (arguments : Arguments Creator)
  | deactivate (pc : DeactivatePc)
  deriving DecidableEq

/-- The statements of the thread function and of `ThreadLoop`. -/
inductive Worker where
  /-- `m_thread_running = true`. -/
  | setRunning
  | log
  | makeTimeout
  /-- The back address is resolved. -/
  | makeBackAddress
  | makeReactor
  | makeServerSocket
  | makeAcceptor
  /-- Inside of `m_reactor->run()`, before a test of the flag. -/
  | run
  /-- In the `catch`. -/
  | logError
  | resetAcceptor
  | resetReactor
  | resetServerSocket
  | logEnd
  /-- `ThreadLoop` has returned; `m_thread_running = false`. -/
  | clearRunning
  /-- The thread function has returned. -/
  | finished
  deriving DecidableEq, Repr

/-- A `SocketReactor`, as far as the server is concerned. -/
structure Reactor where
  stop : Bool := false
  deriving DecidableEq, Repr

structure CPOCOProxyServer (Creator : Type) where
  m_front_port : ℤ
  m_back_ip : String
  m_back_port : ℤ
  m_creator : Option Creator
  m_reactor : Option Reactor
  m_server_socket : Bool
  m_acceptor : Bool
  /-- The thread, as long as `m_thread` is joinable. -/
  m_thread : Option Worker
  m_thread_running : Bool
  controller : Controller Creator
  /-- Something was done that has no defined meaning: a call through a null
  pointer, or a new thread over a joinable one. -/
  undefined : Bool
  deriving DecidableEq

/-- `CPOCOProxyServer::CPOCOProxyServer`. -/
def CPOCOProxyServer.construct : CPOCOProxyServer Creator where
  m_front_port := 1470
  m_back_ip := "localhost"
  m_back_port := 4242
  m_creator := none
  m_reactor := none
  m_server_socket := false
  m_acceptor := false
  m_thread := none
  m_thread_running := false
  controller := .idle
  undefined := false

/-! ## The steps -/

namespace CPOCOProxyServer

/-- `m_thread.join()`, which returns when the thread function has. -/
def join (s : CPOCOProxyServer Creator) (next : Controller Creator) :
    Option (CPOCOProxyServer Creator) :=
  match s.m_thread with
  | some .finished => some { s with m_thread := none, controller := next }
  | _ => none

/-- The next statement of `Activate`. -/
def stepActivate (s : CPOCOProxyServer Creator) (a : Arguments Creator) :
    ActivatePc → Option (CPOCOProxyServer Creator)
  | .log => some { s with controller := .activate .testRunning a }
  | .testRunning =>
    if s.m_thread_running = true then
      some { s with controller := .activate (.returned false) a }
    else
      some { s with controller := .activate .setFrontPort a }
  | .setFrontPort => some { s with
      m_front_port := a.front_port, controller := .activate .setBackIp a }
  | .setBackIp => some { s with m_back_ip := a.back_ip, controller := .activate .setBackPort a }
  | .setBackPort => some { s with
      m_back_port := a.back_port, controller := .activate .setCreator a }
  | .setCreator => some { s with
      m_creator := some a.creator, controller := .activate .testJoinable a }
  | .testJoinable =>
    if s.m_thread.isSome then some { s with controller := .activate .join a }
    else some { s with controller := .activate .startThread a }
  | .join => s.join (.activate .startThread a)
  | .startThread => some { s with
      m_thread := some .setRunning
      controller := .activate (.returned true) a
      undefined := s.undefined || s.m_thread.isSome }
  | .returned _ => some { s with controller := .idle }

/-- The next statement of `Deactivate`. -/
def stepDeactivate (s : CPOCOProxyServer Creator) : DeactivatePc → Option (CPOCOProxyServer Creator)
  | .log => some { s with controller := .deactivate .testReactor }
  | .testReactor =>
    if s.m_reactor.isSome then some { s with controller := .deactivate .stop }
    else some { s with controller := .deactivate .testJoinable }
  | .stop => some { s with
      m_reactor := s.m_reactor.map fun _ => ⟨true⟩
      controller := .deactivate .testJoinable
      undefined := s.undefined || s.m_reactor.isNone }
  | .testJoinable =>
    if s.m_thread.isSome then some { s with controller := .deactivate .join }
    else some { s with controller := .deactivate (.returned true) }
  | .join => s.join (.deactivate (.returned true))
  | .returned _ => some { s with controller := .idle }

/-- The next statement of the controller. -/
def stepController (s : CPOCOProxyServer Creator) : Option (CPOCOProxyServer Creator) :=
  match s.controller with
  | .idle => none
  | .activate pc a => s.stepActivate a pc
  | .deactivate pc => s.stepDeactivate pc

/-- The thread goes on to this statement. -/
def at_ (s : CPOCOProxyServer Creator) (w : Worker) : CPOCOProxyServer Creator :=
  { s with m_thread := some w }

/-- The next statement of the thread. `run` tests the flag, and either takes a
round or leaves its loop. -/
def stepWorker (s : CPOCOProxyServer Creator) : Worker → Option (CPOCOProxyServer Creator)
  | .setRunning => some { s.at_ .log with m_thread_running := true }
  | .log => some (s.at_ .makeTimeout)
  | .makeTimeout => some (s.at_ .makeBackAddress)
  | .makeBackAddress => some (s.at_ .makeReactor)
  | .makeReactor => some { s.at_ .makeServerSocket with m_reactor := some {} }
  | .makeServerSocket => some { s.at_ .makeAcceptor with m_server_socket := true }
  | .makeAcceptor => some { s.at_ .run with m_acceptor := true }
  | .run => some (if s.m_reactor = some ⟨true⟩ then s.at_ .resetAcceptor else s)
  | .logError => some (s.at_ .resetAcceptor)
  | .resetAcceptor => some { s.at_ .resetReactor with m_acceptor := false }
  | .resetReactor => some { s.at_ .resetServerSocket with m_reactor := none }
  | .resetServerSocket => some { s.at_ .logEnd with m_server_socket := false }
  | .logEnd => some (s.at_ .clearRunning)
  | .clearRunning => some { s.at_ .finished with m_thread_running := false }
  | .finished => none

/-- The next statement of the thread throws a `Poco::Exception`. That `run`, once
it has been stopped, can throw is more than the code does: the reactor catches
what handlers throw, in the loop and after it. -/
def stepThrows (s : CPOCOProxyServer Creator) : Worker → Option (CPOCOProxyServer Creator)
  | .makeBackAddress => some (s.at_ .logError)
  | .makeReactor => some (s.at_ .logError)
  | .makeServerSocket => some (s.at_ .logError)
  | .makeAcceptor => some (s.at_ .logError)
  | .run => if s.m_reactor = some ⟨true⟩ then some (s.at_ .logError) else none
  | _ => none

end CPOCOProxyServer

inductive Action (Creator : Type) where
  /-- The controller calls `Activate`. -/
  | callActivate (arguments : Arguments Creator)
  /-- The controller calls `Deactivate`. -/
  | callDeactivate
  /-- The controller takes the next step in the function it has called. -/
  | controller
  | worker
  | workerThrows

def step (s : CPOCOProxyServer Creator) : Action Creator → Option (CPOCOProxyServer Creator)
  | .callActivate a =>
    match s.controller with
    | .idle => some { s with controller := .activate .log a }
    | _ => none
  | .callDeactivate =>
    match s.controller with
    | .idle => some { s with controller := .deactivate .log }
    | _ => none
  | .controller => s.stepController
  | .worker => s.m_thread.bind s.stepWorker
  | .workerThrows => s.m_thread.bind s.stepThrows

/-- Either thread takes a step. -/
def Step (s : CPOCOProxyServer Creator) (a : Action Creator) (s' : CPOCOProxyServer Creator) :
    Prop := step s a = some s'

end PocoProxy.Server
