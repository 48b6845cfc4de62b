/-
What the methods of a session do, as equations.

Every method is a short list of assignments with calls in between that may
throw, so its effect on a session that has not been deleted is one of a few
changes of the `World`: nothing, the flag `m_closed` alone (a `Close` that an
exception has cut short), the whole tear-down, the connect, or bytes moved,
followed by one of the first three. This file names these changes and shows that
the methods make them; after it no proof unfolds a method.
-/
import PocoProxy.Session
import Mathlib.Tactic.Basic

set_option autoImplicit false

namespace PocoProxy.Session

open PocoProxy.Program PocoProxy.Socket PocoProxy.Reactor

/-! ## Changes of the world -/

namespace World

/-- `m_closed = true`, and nothing else. -/
def marked (w : World) : World := { w with session := { w.session with m_closed := true } }

/-- `Close` from `m_back_connected = false` to `delete this`. -/
def torn (w : World) : World where
  session := { w.session with
    m_front := w.session.m_front.close
    m_back := w.session.m_back.close
    m_front_buffer := none
    m_back_buffer := none
    m_service := w.session.m_service.map fun v => { v with
      trace := v.trace ++ [.call .onFrontDisconnect, .call .onBackDisconnect, .deleted] }
    m_back_connected := false }
  deletions := w.deletions + 1
  touched := w.touched
  reactor := removeHandlers
    (removeHandlers w.reactor w.session.m_front.close w.session.this frontMethods)
    w.session.m_back.close w.session.this backMethods

/-- A method of the service, if there is one, is entered. -/
def called (c : Callback) (w : World) : World :=
  { w with session := w.session.recorded (.call c) }

/-- `m_back_connected = true` and `OnBackConnect`. -/
def connected (w : World) : World :=
  called .onBackConnect { w with session := { w.session with m_back_connected := true } }

/-- `receiveBytes` has returned `bs`. -/
def received (d : Side) (bs : List Byte) (w : World) : World :=
  { w with session :=
      (w.session.setSocket d fun k => { k with received := k.received ++ bs }).setBuffer d bs }

/-- `sendBytes` has accepted `bs`. -/
def accepted (d : Side) (bs : List Byte) (w : World) : World :=
  { w with session := w.session.setSocket d fun k => { k with accepted := k.accepted ++ bs } }

/-- What the data callback sends of `bs`: only the bypass handler sends, and only
what `sendBytes` accepts is sent. -/
def sent (o : Outcomes) (s : ProxySession) (bs : List Byte) : List Byte :=
  match s.m_service with
  | some ⟨.byPass, _⟩ => bs.take o.send.count
  | _ => []

/-- The data callback of side `d` has run on `bs`. -/
def relayed (o : Outcomes) (d : Side) (bs : List Byte) (w : World) : World :=
  (w.called (.onReadable d bs)).accepted d.other (sent o w.session bs)

@[simp] theorem accepted_nil (w : World) (d : Side) : w.accepted d [] = w := by
  cases d <;> simp [accepted, ProxySession.setSocket]

end World

/-- What a callback that does not send throws: only a user's class does. -/
def callbackThrows (o : Outcomes) (s : ProxySession) : Option Exception :=
  match s.m_service with
  | some ⟨.custom, _⟩ => o.callback
  | _ => none

/-- What the data callbacks throw. -/
def dataThrows (o : Outcomes) (s : ProxySession) : Option Exception :=
  match s.m_service with
  | some ⟨.byPass, _⟩ => o.send.thrown
  | some ⟨.custom, _⟩ => o.callback
  | _ => none

/-- The result of a call that throws this, or nothing. -/
def outcomeOf : Option Exception → Except Exception Unit
  | some e => .error e
  | none => .ok ()

/-! ## Log statements -/

/-- `front_address()` or `back_address()` throws at `site`. -/
def addressThrows (o : Outcomes) (site : AddressSite) (s : SocketImpl) : Bool :=
  !s.isConnected || o.peerFails site

/-- The log statement with one address throws. -/
def logThrows (o : Outcomes) (site : AddressSite) (s : SocketImpl) : Bool :=
  o.logging && addressThrows o site s

/-- The log statement of `Close` throws. -/
def closeLogThrows (o : Outcomes) (s : ProxySession) : Bool :=
  o.logging && (addressThrows o .closingFront s.m_front || addressThrows o .closingBack s.m_back)

theorem peerAddress_run (o : Outcomes) (site : AddressSite) (s : SocketImpl) (w : World) :
    peerAddress o site s w
      = if addressThrows o site s then (.error .poco, w) else (.ok (), w) := by
  unfold peerAddress addressThrows
  rw [Prog.ite_run]
  cases s.isConnected <;> cases o.peerFails site <;> rfl

/-- What the `try` block of `onBackWritable` throws. -/
def connectThrows (o : Outcomes) (s : ProxySession) : Option Exception :=
  match callbackThrows o s with
  | some e => some e
  | none => if logThrows o .connected s.m_back then some .poco else none

namespace World

/-- What `Close` leaves. It does nothing the second time; when its log statement
throws, the flag is all that has changed. -/
def closing (o : Outcomes) (w : World) : World :=
  if w.session.m_closed then w
  else if closeLogThrows o w.session then w.marked
  else w.marked.torn

/-- What the `catch` of a handler leaves. -/
def caught (o : Outcomes) (w : World) : World :=
  if logThrows o .caught w.session.m_front then w else w.closing o

/-- What a handler leaves whose `try` block ended in `w`, with this exception or
none. Only a `Poco::Exception` is caught. -/
def handled (o : Outcomes) (thrown : Option Exception) (w : World) : World :=
  match thrown with
  | none => w
  | some e => if e.isPoco then w.caught o else w

/-- What `onFrontReadable` and `onBackReadable` leave. -/
def readable (d : Side) (o : Outcomes) (w : World) : World :=
  if w.session.m_back_connected then
    match o.receive with
    | .bytes first rest =>
      ((w.received d (first :: rest)).relayed o d (first :: rest)).handled o
        (dataThrows o w.session)
    | .endOfStream => w.closing o
    | .wouldBlock => w.closing o
    | .throws e => w.handled o (some e)
  else w

/-- What `onBackWritable` leaves. -/
def writable (o : Outcomes) (w : World) : World :=
  if w.session.m_back_connected then w
  else w.connected.handled o (connectThrows o w.session)

/-- What the two shutdown and the two error handlers leave. -/
def notified (o : Outcomes) (w : World) : World :=
  if logThrows o .notified w.session.m_front then w else w.closing o

/-- What a method leaves of a session that has not been deleted. -/
def handle : Method → Outcomes → World → World
  | .onAccept => fun _ w => w
  | .onFrontReadable => readable .front
  | .onBackWritable => writable
  | .onBackReadable => readable .back
  | .onFrontShutdown => notified
  | .onFrontError => notified
  | .onBackShutdown => notified
  | .onBackError => notified

end World

section Alive

variable {w : World} (h : w.Alive)
include h

theorem touch_of_alive : w.touch = w := by
  obtain ⟨s, d, t, r⟩ := w
  cases h
  simp [World.touch]

theorem self_run : self w = (.ok w.session, w) := by
  rw [self, touch_of_alive h]

theorem assign_run (f : ProxySession → ProxySession) :
    assign f w = (.ok (), { w with session := f w.session }) := by
  rw [assign, Prog.modify_apply, touch_of_alive h]

theorem self_bind {α : Type} (f : ProxySession → Act α) : (self >>= f) w = f w.session w :=
  Prog.bind_of_ok (self_run h)

theorem assign_bind {α : Type} (f : ProxySession → ProxySession) (k : Unit → Act α) :
    (assign f >>= k) w = k () { w with session := f w.session } :=
  Prog.bind_of_ok (assign_run h f)

theorem frontAddress_run (o : Outcomes) (site : AddressSite) :
    frontAddress o site w
      = if addressThrows o site w.session.m_front then (.error .poco, w) else (.ok (), w) := by
  rw [frontAddress, self_bind h, peerAddress_run]

theorem backAddress_run (o : Outcomes) (site : AddressSite) :
    backAddress o site w
      = if addressThrows o site w.session.m_back then (.error .poco, w) else (.ok (), w) := by
  rw [backAddress, self_bind h, peerAddress_run]

theorem log_front_run (o : Outcomes) (site : AddressSite) :
    log o (frontAddress o site) w
      = if logThrows o site w.session.m_front then (.error .poco, w) else (.ok (), w) := by
  unfold log logThrows
  cases o.logging
  · rfl
  · simpa using frontAddress_run h o site

theorem log_back_run (o : Outcomes) (site : AddressSite) :
    log o (backAddress o site) w
      = if logThrows o site w.session.m_back then (.error .poco, w) else (.ok (), w) := by
  unfold log logThrows
  cases o.logging
  · rfl
  · simpa using backAddress_run h o site

theorem log_close_run (o : Outcomes) :
    log o (do frontAddress o .closingFront; backAddress o .closingBack) w
      = if closeLogThrows o w.session then (.error .poco, w) else (.ok (), w) := by
  unfold log closeLogThrows
  cases o.logging
  · rfl
  · rw [if_pos rfl, Prog.bind_apply, frontAddress_run h]
    cases addressThrows o .closingFront w.session.m_front
    · simpa using backAddress_run h o .closingBack
    · rfl

/-! ## The service's methods -/

theorem sendBytes_run (d : Side) (o : Outcomes) (bs : List Byte) :
    sendBytes d o bs w = match o.send with
      | .accepts k => (.ok (k : ℤ), w.accepted d (bs.take k))
      | .throws k e => (.error e, w.accepted d (bs.take k)) := by
  unfold sendBytes
  cases o.send with
  | accepts k => exact assign_bind h _ _
  | throws k e => exact assign_bind h _ _

/-- A method that is neither a data callback of the bypass handler nor one that
a user's class may throw from does nothing. -/
theorem callService_disconnect (o : Outcomes) {c : Callback}
    (hc : c = .onFrontDisconnect ∨ c = .onBackDisconnect) :
    callService o c w = (.ok (), w.called c) := by
  rw [callService, self_bind h]
  cases hs : w.session.m_service with
  | none =>
      obtain ⟨⟨⟩, d, t, r⟩ := w
      simp_all [World.called, ProxySession.recorded]
  | some v =>
      simp only
      rw [assign_bind h]
      rcases hc with rfl | rfl <;> cases v.kind <;> rfl

theorem callService_connect (o : Outcomes) {c : Callback}
    (hc : c = .onFrontConnect ∨ c = .onBackConnect) :
    callService o c w = (outcomeOf (callbackThrows o w.session), w.called c) := by
  rw [callService, self_bind h]
  unfold callbackThrows
  cases hs : w.session.m_service with
  | none =>
      obtain ⟨⟨⟩, d, t, r⟩ := w
      simp_all [World.called, ProxySession.recorded, outcomeOf]
  | some v =>
      obtain ⟨kind, trace⟩ := v
      simp only
      rw [assign_bind h]
      rcases hc with rfl | rfl
      all_goals
        cases kind with
        | plain => rfl
        | byPass => rfl
        | custom => cases ho : o.callback <;> simp [callbackBody, ho, World.called, outcomeOf]

theorem callService_onReadable (o : Outcomes) (d : Side) (bs : List Byte) :
    callService o (.onReadable d bs) w
      = (outcomeOf (dataThrows o w.session), w.relayed o d bs) := by
  rw [callService, self_bind h]
  unfold dataThrows World.relayed World.sent
  cases hs : w.session.m_service with
  | none =>
      obtain ⟨⟨⟩, b, t, r⟩ := w
      simp_all [World.called, ProxySession.recorded, outcomeOf]
  | some v =>
      obtain ⟨kind, trace⟩ := v
      simp only
      rw [assign_bind h]
      cases kind with
      | plain =>
          simp only [World.accepted_nil]
          cases d <;> rfl
      | byPass =>
          -- both data callbacks are one `sendBytes` whose result is dropped
          have hbody : callbackBody o .byPass (.onReadable d bs)
              = (sendBytes d.other o bs >>= fun _ => pure ()) := by cases d <;> rfl
          simp only [hbody]
          rw [Prog.bind_apply]
          have hrun := sendBytes_run (w := w.called (.onReadable d bs)) h d.other o bs
          rw [World.called] at hrun
          rw [hrun]
          cases o.send <;> rfl
      | custom =>
          simp only [World.accepted_nil]
          cases d <;> cases hc : o.callback <;>
            simp [callbackBody, hc, World.called, Callback.onReadable, outcomeOf]

/-! ## Closing -/

theorem tearDown_run (o : Outcomes) : tearDown o w = (.ok (), w.torn) := by
  unfold tearDown
  rw [assign_bind h, assign_bind (by exact h), assign_bind (by exact h)]
  rw [Prog.bind_of_ok (callService_disconnect (by exact h) o (.inl rfl))]
  rw [Prog.bind_of_ok (callService_disconnect (by exact h) o (.inr rfl))]
  rw [assign_bind (by exact h)]
  unfold deleteThis unregisterHandler
  obtain ⟨s, d, t, r⟩ := w
  obtain rfl : d = 0 := h
  cases hs : s.m_service <;>
    simp [hs, Prog.bind_apply, self, assign, World.touch, World.torn, World.called,
      ProxySession.recorded]

theorem close_run (o : Outcomes) :
    close o w = if w.session.m_closed then (.ok (), w)
      else if closeLogThrows o w.session then (.error .poco, w.marked)
      else (.ok (), w.marked.torn) := by
  rw [close, self_bind h, assign_bind h]
  cases hc : w.session.m_closed with
  | true =>
      obtain ⟨⟨⟩, d, t, r⟩ := w
      simp_all
  | false =>
      have hlog := log_close_run (w := w.marked) h o
      rw [show closeLogThrows o w.marked.session = closeLogThrows o w.session from rfl] at hlog
      simp only [Bool.false_eq_true, if_false]
      cases ht : closeLogThrows o w.session with
      | true =>
          rw [ht] at hlog
          exact Prog.bind_of_error hlog
      | false =>
          rw [ht] at hlog
          exact (Prog.bind_of_ok hlog).trans (tearDown_run (w := w.marked) h o)

theorem close_after (o : Outcomes) : (close o w).2 = w.closing o := by
  rw [close_run h, World.closing]
  split
  · rfl
  · split <;> rfl

/-- A log statement with the front address, and then `Close`. -/
theorem log_close_after (o : Outcomes) (site : AddressSite) :
    ((log o (frontAddress o site) >>= fun _ => close o) w).2
      = if logThrows o site w.session.m_front then w else w.closing o := by
  have hlog := log_front_run h o site
  cases ht : logThrows o site w.session.m_front with
  | true =>
      rw [ht] at hlog
      rw [Prog.bind_of_error hlog]
      rfl
  | false =>
      rw [ht] at hlog
      rw [Prog.bind_of_ok hlog]
      exact close_after h o

theorem caught_after (o : Outcomes) : (caught o w).2 = w.caught o := log_close_after h o .caught

/-- `onFrontShutdown` and the three others. -/
theorem notified_after (o : Outcomes) :
    (notified o w).2 = w.notified o :=
  log_close_after h o .notified

omit h in
/-- A handler's `try` block and its `catch`. -/
theorem tryCatch_after (o : Outcomes) {x : Act Unit} {w' : World} (thrown : Option Exception)
    (hx : x w = (outcomeOf thrown, w')) (h' : w'.Alive) :
    (Prog.tryCatch Exception.isPoco x (fun _ => caught o) w).2 = w'.handled o thrown := by
  cases thrown with
  | none => rw [Prog.tryCatch_of_ok hx, World.handled]
  | some e =>
      rw [Prog.tryCatch_of_error hx, World.handled]
      split
      · exact caught_after h' o
      · rfl

/-- When `Close` is called in a `try` block and its log statement throws, the
`catch` calls `Close` again, which returns at once. -/
theorem tryCatch_close_after (o : Outcomes) :
    (Prog.tryCatch Exception.isPoco (close o) (fun _ => caught o) w).2 = w.closing o := by
  have hrun := close_run h o
  have hafter := close_after h o
  cases hc : close o w with
  | mk result w' =>
      rw [hc] at hrun hafter
      cases result with
      | ok a => rw [Prog.tryCatch_of_ok hc]; exact hafter
      | error e =>
          -- the only exception is the log statement's, after `m_closed = true`
          rw [Prog.tryCatch_of_error hc]
          have hmark : e = .poco ∧ w' = w.marked := by grind
          obtain ⟨rfl, rfl⟩ := hmark
          simp only [Exception.isPoco, if_true]
          rw [caught_after (w := w.marked) h, ← hafter]
          simp [World.caught, World.closing, World.marked]

/-! ## The handlers -/

theorem receiveBytes_run (d : Side) (o : Outcomes) :
    receiveBytes d o w = match o.receive with
      | .bytes first rest => (.ok ((first :: rest).length : ℤ), w.received d (first :: rest))
      | .endOfStream => (.ok 0, w)
      | .wouldBlock => (.ok (-1), w)
      | .throws e => (.error e, w) := by
  unfold receiveBytes
  cases o.receive with
  | bytes first rest => exact assign_bind h _ _
  | endOfStream => rfl
  | wouldBlock => rfl
  | throws e => rfl

/-- The `try` block of `onFrontReadable` and `onBackReadable`, once the back
connection is up. -/
def readBlock (d : Side) (o : Outcomes) : Act Unit := do
  let n ← receiveBytes d o
  if n ≤ 0 then
    close o
  else do
    let s ← self
    callService o (.onReadable d (bufferContent (s.buffer d) n))

omit h in
theorem readBlock_of_nonpos {d : Side} {o : Outcomes} {n : ℤ} {w' : World}
    (hr : receiveBytes d o w = (.ok n, w')) (hn : n ≤ 0) : readBlock d o w = close o w' := by
  rw [readBlock, Prog.bind_of_ok hr, if_pos hn]

theorem readBlock_of_bytes {d : Side} {o : Outcomes} {first : Byte} {rest : List Byte}
    (hr : o.receive = .bytes first rest) :
    readBlock d o w = (outcomeOf (dataThrows o w.session),
      (w.received d (first :: rest)).relayed o d (first :: rest)) := by
  have hrun := receiveBytes_run h d o
  rw [hr] at hrun
  have hpos : ¬ ((first :: rest).length : ℤ) ≤ 0 := by simp
  have h' : (w.received d (first :: rest)).Alive := h
  rw [readBlock, Prog.bind_of_ok hrun, if_neg hpos, self_bind h']
  have hbuf : bufferContent ((w.received d (first :: rest)).session.buffer d) (first :: rest).length
      = first :: rest := by
    cases d <;>
      simp only [bufferContent, World.received, ProxySession.setBuffer, ProxySession.buffer,
        Option.getD_some, Int.toNat_natCast, List.take_length]
  have hthrows : dataThrows o (w.received d (first :: rest)).session = dataThrows o w.session := by
    cases d <;> rfl
  rw [hbuf, callService_onReadable h', hthrows]

theorem onReadable_after (d : Side) (o : Outcomes) : (onReadable d o w).2 = w.readable d o := by
  unfold onReadable World.readable
  cases hb : w.session.m_back_connected with
  | false =>
      refine tryCatch_after o none ?_ h
      rw [self_bind h, hb]
      rfl
  | true =>
      have hblock : (do
          let s ← self
          if s.m_back_connected = false then pure () else readBlock d o) w = readBlock d o w := by
        rw [self_bind h, hb]
        rfl
      refine (congrArg Prod.snd (Prog.tryCatch_congr hblock)).trans ?_
      -- everything but bytes, and an exception, is a `Close`
      have hrun := receiveBytes_run h d o
      simp only [if_true]
      cases hr : o.receive with
      | bytes first rest =>
          exact tryCatch_after o _ (readBlock_of_bytes h hr) h
      | endOfStream =>
          rw [hr] at hrun
          rw [Prog.tryCatch_congr (readBlock_of_nonpos hrun (by simp))]
          exact tryCatch_close_after h o
      | wouldBlock =>
          rw [hr] at hrun
          rw [Prog.tryCatch_congr (readBlock_of_nonpos hrun (by simp))]
          exact tryCatch_close_after h o
      | throws e =>
          rw [hr] at hrun
          exact tryCatch_after o (some e) (Prog.bind_of_error hrun) h

theorem onBackWritable_after (o : Outcomes) : (onBackWritable o w).2 = w.writable o := by
  unfold onBackWritable World.writable
  cases hb : w.session.m_back_connected with
  | true =>
      refine tryCatch_after o none ?_ h
      rw [self_bind h, hb]
      rfl
  | false =>
      simp only [Bool.false_eq_true, if_false]
      refine tryCatch_after o (connectThrows o w.session) (?_ : _ = (_, w.connected)) h
      rw [self_bind h, if_pos hb, assign_bind h, Prog.bind_apply,
        callService_connect (by exact h) o (.inr rfl)]
      rw [show callbackThrows o { w.session with m_back_connected := true }
        = callbackThrows o w.session from rfl]
      unfold connectThrows
      cases callbackThrows o w.session with
      | some e => rfl
      | none =>
          simp only [outcomeOf]
          refine (log_back_run (w := w.connected) h o .connected).trans ?_
          rw [show w.connected.session.m_back = w.session.m_back from rfl]
          cases logThrows o .connected w.session.m_back <;> rfl

/-- **What the methods of a session do**, all of them. -/
theorem handler_after (m : Method) (o : Outcomes) : (handler m o w).2 = w.handle m o := by
  cases m with
  | onAccept => rfl
  | onFrontReadable => exact onReadable_after h .front o
  | onFrontShutdown => exact notified_after h o
  | onFrontError => exact notified_after h o
  | onBackWritable => exact onBackWritable_after h o
  | onBackReadable => exact onReadable_after h .back o
  | onBackShutdown => exact notified_after h o
  | onBackError => exact notified_after h o

end Alive

/-! ## Where `Close` is called

A handler first does its own work, and then calls `Close` or does not. The two
are separated here, because the first part never touches what the second one
depends on. -/

/-- The exception, if there is one, is caught, and the log statement of the
`catch` lets `Close` be called. -/
def catches (o : Outcomes) (s : ProxySession) (thrown : Option Exception) : Bool :=
  thrown.any Exception.isPoco && !logThrows o .caught s.m_front

/-- `onFrontReadable` or `onBackReadable` calls `Close`. -/
def readCloses (o : Outcomes) (s : ProxySession) : Bool :=
  s.m_back_connected &&
    match o.receive with
    | .bytes _ _ => catches o s (dataThrows o s)
    | .endOfStream => true
    | .wouldBlock => true
    | .throws e => catches o s (some e)

/-- The method calls `Close`. -/
def callsClose : Method → Outcomes → ProxySession → Bool
  | .onAccept => fun _ _ => false
  | .onFrontReadable => readCloses
  | .onBackWritable => fun o s => !s.m_back_connected && catches o s (connectThrows o s)
  | .onBackReadable => readCloses
  | _ => fun o s => !logThrows o .notified s.m_front

/-- The method calls `Close`, and `Close` gets past its flag and its log
statement. -/
def tearsDown (m : Method) (o : Outcomes) (s : ProxySession) : Bool :=
  callsClose m o s && !s.m_closed && !closeLogThrows o s

namespace World

/-- What `onFrontReadable` and `onBackReadable` do before `Close`. -/
def readMoved (d : Side) (o : Outcomes) (w : World) : World :=
  if w.session.m_back_connected then
    match o.receive with
    | .bytes first rest => (w.received d (first :: rest)).relayed o d (first :: rest)
    | _ => w
  else w

/-- What `onBackWritable` does before `Close`. -/
def connectMoved (w : World) : World := if w.session.m_back_connected then w else w.connected

/-- What a method does before `Close`. -/
def moved : Method → Outcomes → World → World
  | .onFrontReadable => readMoved .front
  | .onBackWritable => fun _ => connectMoved
  | .onBackReadable => readMoved .back
  | _ => fun _ w => w

end World

/-- The members of `s'` that `Close` and its log statements depend on are those
of `s`. -/
structure SameClosing (s s' : ProxySession) : Prop where
  m_closed : s'.m_closed = s.m_closed
  front_fd : s'.m_front.sockfd = s.m_front.sockfd
  front_connect : s'.m_front.connect = s.m_front.connect
  back_fd : s'.m_back.sockfd = s.m_back.sockfd
  back_connect : s'.m_back.connect = s.m_back.connect

namespace SameClosing

variable {s s' : ProxySession}

theorem refl (s : ProxySession) : SameClosing s s := ⟨rfl, rfl, rfl, rfl, rfl⟩

theorem logThrows_front (h : SameClosing s s') (o : Outcomes) (site : AddressSite) :
    logThrows o site s'.m_front = logThrows o site s.m_front := by
  unfold logThrows addressThrows SocketImpl.isConnected
  rw [h.front_fd, h.front_connect]

theorem closeLogThrows (h : SameClosing s s') (o : Outcomes) :
    closeLogThrows o s' = Session.closeLogThrows o s := by
  unfold Session.closeLogThrows addressThrows SocketImpl.isConnected
  rw [h.front_fd, h.front_connect, h.back_fd, h.back_connect]

end SameClosing

theorem relayed_sameClosing (w : World) (d : Side) (o : Outcomes) (bs : List Byte) :
    SameClosing w.session ((w.received d bs).relayed o d bs).session := by
  cases d <;> exact ⟨rfl, rfl, rfl, rfl, rfl⟩

theorem moved_sameClosing (m : Method) (o : Outcomes) (w : World) :
    SameClosing w.session (w.moved m o).session := by
  have hread : ∀ d, SameClosing w.session (w.readMoved d o).session := by
    intro d
    unfold World.readMoved
    split
    · cases o.receive with
      | bytes first rest => exact relayed_sameClosing w d o _
      | endOfStream => exact .refl _
      | wouldBlock => exact .refl _
      | throws e => exact .refl _
    · exact .refl _
  cases m with
  | onFrontReadable => exact hread .front
  | onBackReadable => exact hread .back
  | onBackWritable =>
      change SameClosing w.session w.connectMoved.session
      unfold World.connectMoved
      split
      · exact .refl _
      · exact ⟨rfl, rfl, rfl, rfl, rfl⟩
  | _ => exact .refl _

/-- The work before `Close` deletes nothing. -/
theorem moved_alive {w : World} (h : w.Alive) (m : Method) (o : Outcomes) :
    (w.moved m o).Alive := by
  have hread : ∀ d, (w.readMoved d o).Alive := by
    intro d
    unfold World.readMoved
    split
    · cases o.receive <;> exact h
    · exact h
  cases m with
  | onFrontReadable => exact hread .front
  | onBackReadable => exact hread .back
  | onBackWritable =>
      change w.connectMoved.Alive
      unfold World.connectMoved
      split <;> exact h
  | _ => exact h

/-- A `catch` calls `Close`, or leaves things as they are. -/
theorem handled_eq (o : Outcomes) (thrown : Option Exception) {w w' : World}
    (h : SameClosing w.session w'.session) :
    w'.handled o thrown = if catches o w.session thrown then w'.closing o else w' := by
  unfold World.handled catches
  cases thrown with
  | none => rfl
  | some e =>
      simp only [Option.any_some, World.caught, h.logThrows_front]
      by_cases hp : e.isPoco = true <;>
        by_cases hl : logThrows o .caught w.session.m_front = true <;> simp [hp, hl]

theorem readable_eq (d : Side) (o : Outcomes) (w : World) :
    w.readable d o
      = if readCloses o w.session then (w.readMoved d o).closing o else w.readMoved d o := by
  unfold World.readable readCloses World.readMoved
  cases w.session.m_back_connected with
  | false => rfl
  | true =>
      simp only [if_true, Bool.true_and]
      cases o.receive with
      | bytes first rest => exact handled_eq o _ (relayed_sameClosing w d o _)
      | endOfStream => rfl
      | wouldBlock => rfl
      | throws e => exact handled_eq o (some e) (.refl _)

/-- **A handler is its own work, and then `Close` or nothing.** -/
theorem handle_eq (m : Method) (o : Outcomes) (w : World) :
    w.handle m o = if callsClose m o w.session then (w.moved m o).closing o else w.moved m o := by
  have hnotified : w.notified o
      = if !logThrows o .notified w.session.m_front then w.closing o else w := by
    unfold World.notified
    cases logThrows o .notified w.session.m_front <;> rfl
  cases m with
  | onAccept => rfl
  | onFrontReadable => exact readable_eq .front o w
  | onFrontShutdown => exact hnotified
  | onFrontError => exact hnotified
  | onBackWritable =>
      unfold World.handle World.writable callsClose World.moved World.connectMoved
      simp only
      cases w.session.m_back_connected with
      | true => rfl
      | false => exact handled_eq o _ ⟨rfl, rfl, rfl, rfl, rfl⟩
  | onBackReadable => exact readable_eq .back o w
  | onBackShutdown => exact hnotified
  | onBackError => exact hnotified

/-- The flag after a handler. -/
theorem handle_closed (m : Method) (o : Outcomes) (w : World) :
    (w.handle m o).session.m_closed = (w.session.m_closed || callsClose m o w.session) := by
  have hmoved := (moved_sameClosing m o w).m_closed
  rw [handle_eq]
  cases callsClose m o w.session with
  | false => rw [if_neg (by simp), hmoved, Bool.or_false]
  | true =>
      rw [if_pos rfl, Bool.or_true, World.closing]
      split
      · assumption
      · split <;> rfl

/-- A handler that does not complete `Close` changes at most the flag after its
own work; one that does, tears the session down after it. -/
theorem handle_cases (m : Method) (o : Outcomes) (w : World) :
    tearsDown m o w.session = true ∧ w.handle m o = (w.moved m o).marked.torn ∨
      tearsDown m o w.session = false ∧
        (w.handle m o = w.moved m o ∨ w.handle m o = (w.moved m o).marked) := by
  have hsame := moved_sameClosing m o w
  rw [handle_eq]
  unfold tearsDown World.closing
  rw [hsame.m_closed, hsame.closeLogThrows]
  cases callsClose m o w.session <;> cases w.session.m_closed <;>
    cases closeLogThrows o w.session <;> simp

/-- A session outlives exactly the handlers that do not complete `Close`. -/
theorem handle_alive_iff {w : World} (h : w.Alive) (m : Method) (o : Outcomes) :
    (w.handle m o).Alive ↔ tearsDown m o w.session = false := by
  rcases handle_cases m o w with ⟨ht, heq⟩ | ⟨ht, heq | heq⟩
  · rw [heq, ht]
    exact iff_of_false (Nat.succ_ne_zero _) (by simp)
  · rw [heq]
    exact iff_of_true (moved_alive h m o) ht
  · rw [heq]
    exact iff_of_true (moved_alive h m o) ht

end PocoProxy.Session
