/-
How a session ends.

`Close` sets `m_closed` before its log statement, and the handlers that call it
have log statements of their own in front of it. Each of them asks a socket for
its peer when there is a logger, and that throws on a socket that is not
connected. So an event that should end a session may leave it there, with the
flag set or not (`close_allOrNothing_iff`).

`onBackWritable` takes any writable notification for a successful connect, and
`Close` calls `OnBackDisconnect` without asking whether `OnBackConnect` has been
called (`bracketed_iff`).
-/
import PocoProxy.CallbackOrder

set_option autoImplicit false

namespace PocoProxy.Session

open PocoProxy.Program PocoProxy.Socket PocoProxy.Reactor PocoProxy.Runs

/-! ## The ways to `Close` -/

/-- Where a handler stands when it decides to call `Close`. -/
inductive Way where
  /-- After `receiveBytes`, with nothing in between. -/
  | direct
  /-- In the `catch`. -/
  | caught
  /-- In one of the four handlers that do nothing else. -/
  | notified
  deriving DecidableEq, Repr

/-- The log statement between there and the call of `Close` does not throw. -/
def handlerLogPasses (o : Outcomes) (s : ProxySession) : Way → Bool
  | .direct => true
  | .caught => !logThrows o .caught s.m_front
  | .notified => !logThrows o .notified s.m_front

/-- The way through the `catch`, for an exception that is caught. -/
def caughtWay (thrown : Option Exception) : Option Way :=
  if thrown.any Exception.isPoco then some .caught else none

/-- The way of `onFrontReadable` and `onBackReadable`. -/
def readWay (o : Outcomes) (s : ProxySession) : Option Way :=
  if s.m_back_connected then
    match o.receive with
    | .bytes _ _ => caughtWay (dataThrows o s)
    | .endOfStream => some .direct
    | .wouldBlock => some .direct
    | .throws e => caughtWay (some e)
  else none

/-- The way of `onBackWritable`. -/
def writableWay (o : Outcomes) (s : ProxySession) : Option Way :=
  if s.m_back_connected then none else caughtWay (connectThrows o s)

/-- The way to `Close` that a handler takes, if it takes one. -/
def wayToClose : Method → Outcomes → ProxySession → Option Way
  | .onAccept => fun _ _ => none
  | .onFrontReadable => readWay
  | .onBackWritable => writableWay
  | .onBackReadable => readWay
  | _ => fun _ _ => some .notified

theorem catches_eq (o : Outcomes) (s : ProxySession) (thrown : Option Exception) :
    catches o s thrown = (caughtWay thrown).any (handlerLogPasses o s) := by
  unfold catches caughtWay
  cases h : thrown.any Exception.isPoco <;> simp [handlerLogPasses]

theorem readCloses_eq (o : Outcomes) (s : ProxySession) :
    readCloses o s = (readWay o s).any (handlerLogPasses o s) := by
  unfold readCloses readWay
  cases s.m_back_connected with
  | false => rfl
  | true => cases o.receive <;> simp [catches_eq, handlerLogPasses]

theorem writableCloses_eq (o : Outcomes) (s : ProxySession) :
    (!s.m_back_connected && catches o s (connectThrows o s))
      = (writableWay o s).any (handlerLogPasses o s) := by
  rw [writableWay, catches_eq]
  split
  · simp_all
  · simp_all

/-- A handler calls `Close` exactly if it is on a way to it and the log statement
in front does not throw. -/
theorem callsClose_eq (m : Method) (o : Outcomes) (s : ProxySession) :
    callsClose m o s = (wayToClose m o s).any (handlerLogPasses o s) := by
  cases m with
  | onFrontReadable => exact readCloses_eq o s
  | onBackReadable => exact readCloses_eq o s
  | onBackWritable => exact writableCloses_eq o s
  | _ => rfl

/-! ## All or nothing -/

/-- Both sockets are closed, the disconnect callbacks have been called once each,
and the service and the session have been deleted once. -/
structure TornDown (w : World) : Prop where
  closed : w.session.m_closed = true
  deleted : w.deletions = 1
  front_closed : w.session.m_front.sockfd = POCO_INVALID_SOCKET
  back_closed : w.session.m_back.sockfd = POCO_INVALID_SOCKET
  callbacks : ∀ v, w.session.m_service = some v →
    v.trace.count (.call .onFrontDisconnect) = 1 ∧ v.trace.count (.call .onBackDisconnect) = 1 ∧
      v.trace.count .deleted = 1

/-- The session is open, or it has been torn down. -/
def AllOrNothing (w : World) : Prop := w.session.m_closed = false ∨ TornDown w

/-- The event is one after which the session should be gone. -/
def LeadsToClose (w : World) : Event → Prop
  | .notify m o => (wayToClose m o w.session).isSome
  | _ => False

/-- When the event leads to `Close`, no log statement on the way throws: there is
no logger, or `front_address()` succeeds, and in `Close` `back_address()` too, which
it does only after the connect has succeeded. -/
def LogsPass (w : World) : Event → Prop
  | .notify m o => ∀ way, wayToClose m o w.session = some way →
      handlerLogPasses o w.session way = true ∧ closeLogThrows o w.session = false
  | _ => True

/-- A trace that is in order has, once the session is gone, each of the last three
events once. -/
theorem InOrder.count_farewell {w : World} (h : InOrder w) (hgone : ¬ w.Alive) {v : Service}
    (hv : w.session.m_service = some v) {e : ServiceEvent} (he : e ∈ farewell) :
    v.trace.count e = 1 := by
  obtain ⟨connected, es, hes, -, htrace⟩ := h v hv
  rw [if_neg hgone] at htrace
  have hword : CallbackWord v.trace := ⟨connected, es, hes, htrace⟩
  have hnot : ¬ IsData e := by
    rcases (by simpa [farewell] using he : e = _ ∨ e = _ ∨ e = _) with rfl | rfl | rfl <;> exact id
  have hle := hword.count_le hnot
  have hpos : 0 < v.trace.count e := by
    rw [List.count_pos_iff, htrace]
    exact List.mem_append_right _ he
  omega

/-- `Close` past its log statement leaves nothing undone. -/
theorem tornDown_torn {w : World} (h : InOrder w) (ha : w.Alive) (hc : w.session.m_closed = false) :
    TornDown w.marked.torn := by
  have horder : InOrder w.marked.torn := inOrder_invariant.torn w h ha hc
  have hgone : ¬ w.marked.torn.Alive := Nat.succ_ne_zero _
  have hd : w.deletions = 0 := ha
  refine ⟨rfl, ?_, rfl, rfl, fun v hv => ⟨?_, ?_, ?_⟩⟩
  · show w.deletions + 1 = 1
    omega
  · exact horder.count_farewell hgone hv (by decide)
  · exact horder.count_farewell hgone hv (by decide)
  · exact horder.count_farewell hgone hv (by decide)

/-- What a run keeps as long as it goes well. -/
def Orderly (w : World) : Prop := Sound w ∧ InOrder w ∧ AllOrNothing w

theorem notify_allOrNothing_iff {w : World} {m : Method} {o : Outcomes} (h : Orderly w)
    (ha : w.Alive)
    (hdata : ∀ d, readSide m = some d → w.session.m_back_connected = true → DataOk w.session d o) :
    (AllOrNothing (w.handle m o) ∧
        (LeadsToClose w (.notify m o) → TornDown (w.handle m o))) ↔ LogsPass w (.notify m o) := by
  obtain ⟨-, horder, hall⟩ := h
  -- a session that exists is open
  have hopen : w.session.m_closed = false := by
    rcases hall with hopen | htorn
    · exact hopen
    · have := htorn.deleted
      have : w.deletions = 0 := ha
      omega
  have hcalls := callsClose_eq m o w.session
  have hmoved : InOrder (w.moved m o) := inOrder_invariant.toStable.moved horder ha m o hdata
  have hclosed := handle_closed m o w
  rw [hopen, Bool.false_or] at hclosed
  cases hway : wayToClose m o w.session with
  | none =>
      rw [hway] at hcalls
      refine iff_of_true ⟨.inl (hclosed.trans hcalls), fun hl => ?_⟩ fun way hw => ?_
      · simp [LeadsToClose, hway] at hl
      · rw [hway] at hw
        cases hw
  | some way =>
      rw [hway, Option.any_some] at hcalls
      have hleads : LeadsToClose w (.notify m o) := by simp [LeadsToClose, hway]
      have hpass : LogsPass w (.notify m o) ↔
          handlerLogPasses o w.session way = true ∧ closeLogThrows o w.session = false := by
        simp [LogsPass, hway]
      have htears : tearsDown m o w.session = true ↔ LogsPass w (.notify m o) := by
        rw [hpass, tearsDown, hcalls, hopen]
        simp
      rw [← htears]
      constructor
      · rintro ⟨-, htorn⟩
        have hgone := (htorn hleads).deleted
        by_contra ht
        have halive := (handle_alive_iff ha m o).mpr (by simpa using ht)
        rw [World.Alive] at halive
        omega
      · intro ht
        rcases handle_cases m o w with ⟨-, heq⟩ | ⟨hf, -⟩
        · have htorn : TornDown (w.handle m o) := by
            rw [heq]
            exact tornDown_torn hmoved (moved_alive ha m o)
              ((moved_sameClosing m o w).m_closed.trans hopen)
          exact ⟨.inr htorn, fun _ => htorn⟩
        · rw [ht] at hf
          cases hf

/-- What happens between the handlers does not open or close a session. -/
theorem AllOrNothing.congr {w w' : World} (h : AllOrNothing w)
    (hclosed : w'.session.m_closed = w.session.m_closed) (hdel : w'.deletions = w.deletions)
    (hfront : w'.session.m_front.sockfd = w.session.m_front.sockfd)
    (hback : w'.session.m_back.sockfd = w.session.m_back.sockfd)
    (hservice : w'.session.m_service = w.session.m_service) : AllOrNothing w' := by
  rcases h with hopen | htorn
  · exact .inl (hclosed.trans hopen)
  · exact .inr ⟨hclosed.trans htorn.closed, hdel.trans htorn.deleted,
      hfront.trans htorn.front_closed, hback.trans htorn.back_closed,
      fun v hv => htorn.callbacks v (hservice.symm.trans hv)⟩

/-- **The step**: it is all or nothing exactly if no log statement on the way
throws. -/
theorem step_allOrNothing_iff {w w' : World} {e : Event} (h : Orderly w) (hstep : Step w e w') :
    (AllOrNothing w' ∧ (LeadsToClose w e → TornDown w')) ↔ LogsPass w e := by
  obtain ⟨hadm, rfl⟩ := hstep
  cases e with
  | arrive d bs =>
      refine iff_of_true ⟨?_, False.elim⟩ trivial
      cases d <;> exact h.2.2.congr rfl rfl rfl rfl rfl
  | connectDone status =>
      exact iff_of_true ⟨h.2.2.congr rfl rfl rfl rfl rfl, False.elim⟩ trivial
  | elsewhere r => exact iff_of_true ⟨h.2.2.congr rfl rfl rfl rfl rfl, False.elim⟩ trivial
  | notify m o =>
      obtain ⟨ha, -, hdata⟩ := hadm
      rw [step_notify ha]
      exact notify_allOrNothing_iff h ha hdata

theorem started_orderly {w : World} (h : Started w) : Orderly w := by
  refine ⟨started_sound h, ?_, ?_⟩
  all_goals obtain ⟨backFd, status, service, this, front, backId, r, -, -, -, rfl⟩ := h
  · exact started_inOrder _ _ _ _ _ _ _
  · exact .inl rfl

/-- **Closing is all or nothing**: after every step of a run the session is open or
torn down, and torn down if the event should end it, exactly if in the run no log
statement on a way to `Close` throws. -/
theorem close_allOrNothing_iff {w : World} (hstart : Started w)
    {ts : List (Transition World Event)} (hrun : IsRun Step w ts) :
    (∀ t ∈ ts, AllOrNothing t.dst ∧ (LeadsToClose t.src t.label → TornDown t.dst)) ↔
      ∀ t ∈ ts, LogsPass t.src t.label :=
  steps_iff (J := Orderly)
    (Q := fun x e x' => AllOrNothing x' ∧ (LeadsToClose x e → TornDown x')) (C := LogsPass)
    (fun _ _ _ h hstep hq =>
      ⟨sound_invariant.step h.1 hstep, inOrder_invariant.step h.2.1 hstep, hq.1⟩)
    (fun _ _ _ h hstep => step_allOrNothing_iff h hstep) (started_orderly hstart) hrun

/-- With a logger: the back server refuses the connection. -/
def refused : List Event := [.connectDone .failed, .notify .onBackError { logging := true }]

theorem allowed_refused : Allowed Admissible step (sample .byPass) refused := by
  decide

theorem close_allOrNothing_iff_refused :
    (∀ t ∈ unroll step (sample .byPass) refused,
        AllOrNothing t.dst ∧ (LeadsToClose t.src t.label → TornDown t.dst)) ↔
      ∀ t ∈ unroll step (sample .byPass) refused, LogsPass t.src t.label :=
  close_allOrNothing_iff (started_sample .byPass) (isRun_unroll allowed_refused)

/-- `back_address()` throws in `Close`, and leaves a session with `m_closed` set whose
sockets are open and whose handlers are registered. -/
theorem close_not_allOrNothing : ¬ ∀ (w : World) (ts : List (Transition World Event)), Started w →
    IsRun Step w ts →
      ∀ t ∈ ts, AllOrNothing t.dst ∧ (LeadsToClose t.src t.label → TornDown t.dst) := by
  intro h
  have hlast := h _ _ (started_sample .byPass) (isRun_unroll allowed_refused) _
    (List.mem_of_getLast? rfl)
  rcases hlast.1 with hopen | htorn
  · revert hopen
    decide
  · have hdeleted := htorn.deleted
    revert hdeleted
    decide

/-! ## The callbacks of the back connection -/

/-- `OnBackConnect` and `m_back_connected` stand for a connect that has succeeded, and
`OnBackDisconnect` comes after `OnBackConnect` if it comes. -/
def Bracketed (w : World) : Prop :=
  (w.session.m_back_connected = true → w.session.m_back.connect = .succeeded) ∧
    ∀ v, w.session.m_service = some v →
      (.call .onBackConnect ∈ v.trace → w.session.m_back.connect = .succeeded) ∧
      (.call .onBackDisconnect ∈ v.trace →
        .call .onBackConnect ∈ v.trace.takeWhile (· ≠ .call .onBackDisconnect))

/-- What a step has to meet, as long as `OnBackConnect` has not been called: a
writable notification comes after the connect has succeeded, and no shutdown or
error notification gets through `Close`. -/
def Brackets (w : World) : Event → Prop
  | .notify m o => w.session.m_back_connected = false →
      (m = .onBackWritable → w.session.m_back.connect = .succeeded) ∧
        (m.kind = .shutdown ∨ m.kind = .error → w.session.m_closed = true ∨
          logThrows o .notified w.session.m_front = true ∨ closeLogThrows o w.session = true)
  | _ => True

/-- Before the disconnect callbacks there is only what `Middle` allows. -/
theorem middle_notMem {connected : Bool} {es : List ServiceEvent} (h : Middle connected es) :
    .call .onBackDisconnect ∉ es ∧ (.call .onBackConnect ∈ es ↔ connected = true) := by
  cases connected with
  | false =>
      obtain rfl : es = [] := h
      simp
  | true =>
      obtain ⟨data, rfl, hdata⟩ := h
      refine ⟨fun hmem => ?_, by simp⟩
      rcases List.mem_cons.mp hmem with heq | hmem
      · cases heq
      · exact hdata _ hmem

/-- While the session exists, the flag says all about the connection. -/
theorem bracketed_iff_of_alive {w : World} (h : InOrder w) (ha : w.Alive) :
    Bracketed w ↔ (w.session.m_back_connected = true → w.session.m_back.connect = .succeeded) := by
  refine ⟨And.left, fun hconn => ⟨hconn, fun v hv => ?_⟩⟩
  obtain ⟨connected, es, hes, heq, htrace⟩ := h v hv
  obtain ⟨hnot, hmem⟩ := middle_notMem hes
  rw [if_pos ha, List.append_nil] at htrace
  rw [htrace, List.mem_cons, List.mem_cons, hmem, ← heq ha]
  refine ⟨?_, ?_⟩
  · rintro (hbad | hb)
    · cases hbad
    · exact hconn hb
  · rintro (hbad | hb)
    · cases hbad
    · exact absurd hb hnot

/-- Once a session with a service has been torn down, `OnBackDisconnect` has been
called, and the brackets are right if the session was connected. -/
theorem bracketed_torn_iff {w : World} (h : InOrder w) (ha : w.Alive) {kind : ServiceKind}
    (hservice : HasService kind w) :
    Bracketed w.marked.torn ↔
      w.session.m_back_connected = true ∧ w.session.m_back.connect = .succeeded := by
  obtain ⟨trace, hv⟩ := hservice
  obtain ⟨connected, es, hes, heq, htrace⟩ := h _ hv
  obtain ⟨hnot, hmem⟩ := middle_notMem hes
  rw [if_pos ha, List.append_nil] at htrace
  simp only at htrace
  -- the whole of the calls, and those before `OnBackDisconnect`
  have hv' : w.marked.torn.session.m_service
      = some ⟨kind, .call .onFrontConnect :: es ++ farewell⟩ := by
    show (w.session.m_service.map _) = _
    rw [hv, htrace]
    rfl
  have htake : (ServiceEvent.call .onFrontConnect :: es ++ farewell).takeWhile
      (· ≠ .call .onBackDisconnect)
        = .call .onFrontConnect :: es ++ [.call .onFrontDisconnect] := by
    rw [List.takeWhile_append_of_pos]
    · rfl
    · intro e he
      rcases List.mem_cons.mp he with rfl | he
      · decide
      · exact decide_eq_true fun heq => hnot (heq ▸ he)
  have hbefore : .call .onBackConnect ∈
      (ServiceEvent.call .onFrontConnect :: es ++ farewell).takeWhile
        (· ≠ .call .onBackDisconnect) ↔
        w.session.m_back_connected = true := by
    rw [htake, heq ha, ← hmem]
    simp
  constructor
  · rintro ⟨-, hall⟩
    obtain ⟨hconn, hdisc⟩ := hall _ hv'
    have hb := hdisc (List.mem_append_right _ (by decide))
    exact ⟨hbefore.mp hb, hconn ((List.takeWhile_subset _) hb)⟩
  · rintro ⟨hb, hconn⟩
    refine ⟨fun _ => hconn, fun v hv₂ => ?_⟩
    obtain rfl := Option.some.inj (hv'.symm.trans hv₂)
    exact ⟨fun _ => hconn, fun _ => hbefore.mpr hb⟩

/-- The flag after a handler's own work. -/
theorem moved_connected (m : Method) (o : Outcomes) (w : World) :
    (w.moved m o).session.m_back_connected
      = (w.session.m_back_connected || m == .onBackWritable) := by
  have hread : ∀ d, (w.readMoved d o).session.m_back_connected = w.session.m_back_connected := by
    intro d
    unfold World.readMoved
    split
    · cases o.receive <;> cases d <;> rfl
    · rfl
  cases m with
  | onFrontReadable => rw [World.moved, hread]; simp
  | onBackReadable => rw [World.moved, hread]; simp
  | onBackWritable =>
      change w.connectMoved.session.m_back_connected = _
      unfold World.connectMoved
      split
      · simp [*]
      · simp [World.connected, World.called, ProxySession.recorded]
  | _ => simp [World.moved]

theorem moved_hasService {w : World} {kind : ServiceKind} (h : HasService kind w) (ha : w.Alive)
    (m : Method) (o : Outcomes)
    (hdata : ∀ d, readSide m = some d → w.session.m_back_connected = true → DataOk w.session d o) :
    HasService kind (w.moved m o) :=
  (hasService_invariant kind).toStable.moved h ha m o hdata

theorem notify_bracketed_iff {w : World} {kind : ServiceKind} {m : Method} {o : Outcomes}
    (horder : InOrder w) (hservice : HasService kind w) (hb : Bracketed w) (ha : w.Alive)
    (hm : m ≠ .onAccept)
    (hdata : ∀ d, readSide m = some d → w.session.m_back_connected = true → DataOk w.session d o) :
    Bracketed (w.handle m o) ↔ Brackets w (.notify m o) := by
  have hmoved : InOrder (w.moved m o) := inOrder_invariant.toStable.moved horder ha m o hdata
  have hmservice := moved_hasService hservice ha m o hdata
  have hmalive := moved_alive ha m o
  have hconn := moved_connected m o w
  have hstatus := (moved_sameClosing m o w).back_connect
  have hbefore := (bracketed_iff_of_alive horder ha).mp hb
  -- the brackets after the handler, in the two ways it can end
  have hafter : Bracketed (w.handle m o) ↔
      if tearsDown m o w.session = true then
        (w.session.m_back_connected = true ∨ m = .onBackWritable) ∧
          w.session.m_back.connect = .succeeded
      else
        (w.session.m_back_connected = true ∨ m = .onBackWritable →
          w.session.m_back.connect = .succeeded) := by
    rcases handle_cases m o w with ⟨ht, heq⟩ | ⟨ht, heq | heq⟩
    · rw [heq, bracketed_torn_iff hmoved hmalive hmservice, hconn, hstatus, if_pos ht]
      simp
    · rw [heq, bracketed_iff_of_alive hmoved hmalive, hconn, hstatus, if_neg (by simp [ht])]
      simp
    · have hmark : Bracketed (w.moved m o).marked ↔ _ :=
        bracketed_iff_of_alive (w := (w.moved m o).marked) hmoved hmalive
      rw [heq, hmark, if_neg (by simp [ht])]
      show ((w.moved m o).session.m_back_connected = true →
        (w.moved m o).session.m_back.connect = .succeeded) ↔ _
      rw [hconn, hstatus]
      simp
  rw [hafter]
  by_cases hconnected : w.session.m_back_connected = true
  · -- the bracket has been opened, so nothing is asked of the step
    have hsucc := hbefore hconnected
    refine iff_of_true ?_ fun hfalse => absurd (hconnected.symm.trans hfalse) (by decide)
    split
    · exact ⟨.inl hconnected, hsucc⟩
    · exact fun _ => hsucc
  · have hfalse : w.session.m_back_connected = false := by simpa using hconnected
    have hread : readCloses o w.session = false := by rw [readCloses, hfalse, Bool.false_and]
    cases m with
    | onAccept => exact absurd rfl hm
    | onFrontReadable => simp [tearsDown, callsClose, hread, hfalse, Brackets, Method.kind]
    | onBackReadable => simp [tearsDown, callsClose, hread, hfalse, Brackets, Method.kind]
    | onBackWritable => simp [hfalse, Brackets, Method.kind]
    | _ =>
        -- the handlers that do nothing but call `Close`
        simp only [tearsDown, callsClose, hfalse, Brackets, Method.kind]
        cases logThrows o .notified w.session.m_front <;> cases w.session.m_closed <;>
          cases closeLogThrows o w.session <;> simp

/-- **The step**: the brackets stay right exactly if the step meets `Brackets`. -/
theorem step_bracketed_iff {w w' : World} {kind : ServiceKind} {e : Event}
    (h : InOrder w ∧ HasService kind w) (hb : Bracketed w) (hstep : Step w e w') :
    Bracketed w' ↔ Brackets w e := by
  obtain ⟨hadm, rfl⟩ := hstep
  cases e with
  | arrive d bs =>
      refine iff_of_true ?_ trivial
      cases d <;> exact hb
  | connectDone status =>
      -- while the connect is pending, no bracket has been opened
      refine iff_of_true ⟨fun hconn => ?_, fun v hv => ⟨fun hmem => ?_, (hb.2 v hv).2⟩⟩ trivial
      · have hsucc := hb.1 hconn
        rw [hadm.1] at hsucc
        cases hsucc
      · have hsucc := (hb.2 v hv).1 hmem
        rw [hadm.1] at hsucc
        cases hsucc
  | elsewhere r => exact iff_of_true hb trivial
  | notify m o =>
      obtain ⟨ha, hm, hdata⟩ := hadm
      rw [step_notify ha]
      exact notify_bracketed_iff h.1 h.2 hb ha hm hdata

theorem started_bracketed {w : World} (h : Started w) : Bracketed w := by
  obtain ⟨backFd, status, service, this, front, backId, r, -, -, -, rfl⟩ := h
  refine ⟨fun hfalse => (by cases hfalse), fun v hv => ?_⟩
  obtain ⟨kind, -, rfl⟩ := Option.map_eq_some_iff.mp hv
  exact ⟨fun hmem => by simp at hmem, fun hmem => by simp at hmem⟩

/-- **The brackets of the back connection** are right in every state of a run
exactly if every step of the run meets `Brackets`. -/
theorem bracketed_iff {w : World} {kind : ServiceKind} (hstart : Started w)
    (hservice : HasService kind w) {ts : List (Transition World Event)} (hrun : IsRun Step w ts) :
    (∀ x ∈ states w ts, Bracketed x) ↔ ∀ t ∈ ts, Brackets t.src t.label :=
  run_iff (J := fun x => InOrder x ∧ HasService kind x) (P := Bracketed) (C := Brackets)
    (fun _ _ _ h hstep =>
      ⟨inOrder_invariant.step h.1 hstep, (hasService_invariant kind).step h.2 hstep⟩)
    (fun _ _ _ h hb hstep => step_bracketed_iff h hb hstep)
    ⟨(started_orderly hstart).2.1, hservice⟩ (started_bracketed hstart) hrun

/-- The back server refuses the connection, and the socket is reported writable and
in error, in this order. -/
def refusedWritable : List Event :=
  [.connectDone .failed, .notify .onBackWritable {}, .notify .onBackError {}]

theorem allowed_refusedWritable : Allowed Admissible step (sample .byPass) refusedWritable := by
  decide

theorem bracketed_iff_refusedWritable :
    (∀ x ∈ states (sample .byPass) (unroll step (sample .byPass) refusedWritable), Bracketed x) ↔
      ∀ t ∈ unroll step (sample .byPass) refusedWritable, Brackets t.src t.label :=
  bracketed_iff (started_sample .byPass) (hasService_sample .byPass)
    (isRun_unroll allowed_refusedWritable)

/-- A refused connection is announced by `OnBackConnect`. -/
theorem not_bracketed : ¬ ∀ (w : World) (kind : ServiceKind) (ts : List (Transition World Event)),
    Started w → HasService kind w → IsRun Step w ts → ∀ x ∈ states w ts, Bracketed x := by
  intro h
  have hlast := h _ _ _ (started_sample .byPass) (hasService_sample .byPass)
    (isRun_unroll allowed_refusedWritable) (refusedWritable.foldl step (sample .byPass))
    (mem_states.mpr (.inr ⟨_, List.mem_of_getLast? rfl, rfl⟩))
  have hconn := (hlast.2 _ rfl).1 (by decide)
  revert hconn
  decide

end PocoProxy.Session
