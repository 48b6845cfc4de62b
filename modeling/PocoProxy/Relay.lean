/-
A session with the bypass handler: what it does with the bytes, and what makes
it close.

The front socket is blocking and the back socket, since `connectNB`, is not. The
handler treats both alike: it drops the number that `sendBytes` returns, and a
result of `receiveBytes` below one or an exception ends in `Close`. On the back
socket the first loses what was not accepted, and the second takes a full or an
empty buffer for the end of the connection.
-/
import PocoProxy.SessionInvariant

set_option autoImplicit false

namespace PocoProxy.Session

open PocoProxy.Program PocoProxy.Socket PocoProxy.Reactor PocoProxy.Runs

/-! ## The streams of a session -/

/-- The byte sequences of the two sockets are the same in `s'` as in `s`. -/
def SameStreams (s s' : ProxySession) : Prop :=
  ∀ d, (s'.socket d).arrived = (s.socket d).arrived ∧
    (s'.socket d).received = (s.socket d).received ∧
    (s'.socket d).accepted = (s.socket d).accepted

theorem torn_sameStreams (w : World) : SameStreams w.session w.marked.torn.session := by
  intro d
  cases d <;> exact ⟨rfl, rfl, rfl⟩

theorem connectMoved_sameStreams (w : World) : SameStreams w.session w.connectMoved.session := by
  intro d
  unfold World.connectMoved
  split <;> cases d <;> exact ⟨rfl, rfl, rfl⟩

/-- The method is called on the connected session, and there is something to
read: bytes move, and it is these. -/
def Reads (w : World) (m : Method) (o : Outcomes) (d : Side) (bs : List Byte) : Prop :=
  readSide m = some d ∧ w.session.m_back_connected = true ∧
    ∃ first rest, o.receive = .bytes first rest ∧ bs = first :: rest

theorem moved_of_reads {w : World} {m : Method} {o : Outcomes} {d : Side} {bs : List Byte}
    (h : Reads w m o d bs) : w.moved m o = (w.received d bs).relayed o d bs := by
  obtain ⟨hside, hb, first, rest, hr, rfl⟩ := h
  have hmoved : w.moved m o = w.readMoved d o := by
    cases m <;> simp only [readSide, Option.some.injEq, reduceCtorEq] at hside <;>
      subst hside <;> rfl
  rw [hmoved, World.readMoved, if_pos hb, hr]

/-- Nothing else that a handler does moves bytes. -/
theorem moved_sameStreams {w : World} {m : Method} {o : Outcomes}
    (h : ∀ d bs, ¬ Reads w m o d bs) : SameStreams w.session (w.moved m o).session := by
  have hread : ∀ d, readSide m = some d → SameStreams w.session (w.readMoved d o).session := by
    intro d hside
    unfold World.readMoved
    split
    · rename_i hb
      cases hr : o.receive with
      | bytes first rest => exact absurd ⟨hside, hb, first, rest, hr, rfl⟩ (h d _)
      | endOfStream => exact fun _ => ⟨rfl, rfl, rfl⟩
      | wouldBlock => exact fun _ => ⟨rfl, rfl, rfl⟩
      | throws e => exact fun _ => ⟨rfl, rfl, rfl⟩
    · exact fun _ => ⟨rfl, rfl, rfl⟩
  cases m with
  | onFrontReadable => exact hread .front rfl
  | onBackReadable => exact hread .back rfl
  | onBackWritable => exact connectMoved_sameStreams w
  | _ => exact fun _ => ⟨rfl, rfl, rfl⟩

/-! ## Integrity of the relay -/

/-- **Relay integrity**, in both directions: what the destination has accepted is
a prefix of what the source peer has sent; and it is all that was read from the
source, as long as `Close` has not closed the sockets and deleted the session. -/
def Intact (w : World) : Prop :=
  ∀ d : Side, (w.session.socket d.other).accepted <+: (w.session.socket d).arrived ∧
    (w.Alive → (w.session.socket d.other).accepted = (w.session.socket d).received)

/-- What a step has to meet: `sendBytes` accepts all the bytes that a data
callback gives it, or it throws and the exception does end the session, because
`m_closed` has not been set before and no log statement throws. -/
def SendsWhole (w : World) : Event → Prop
  | .notify m o => ∀ d bs, Reads w m o d bs →
    match o.send with
    | .accepts count => count = bs.length
    | .throws _ _ => w.session.m_closed = false ∧
        logThrows o .caught w.session.m_front = false ∧ closeLogThrows o w.session = false
  | _ => True

theorem started_intact {w : World} (h : Started w) : Intact w := by
  obtain ⟨backFd, status, service, this, front, backId, r, hf, -, -, rfl⟩ := h
  rintro (_ | _)
  · exact ⟨List.nil_prefix, fun _ => hf.received.symm⟩
  · exact ⟨hf.accepted ▸ List.nil_prefix, fun _ => hf.accepted⟩

/-- Integrity survives when more bytes arrive and none are moved. -/
theorem Intact.mono {w w' : World} (h : Intact w)
    (hs : ∀ d, (w.session.socket d).arrived <+: (w'.session.socket d).arrived ∧
      (w'.session.socket d).received = (w.session.socket d).received ∧
      (w'.session.socket d).accepted = (w.session.socket d).accepted)
    (ha : w'.Alive → w.Alive) : Intact w' := by
  intro d
  obtain ⟨harr, hrec, -⟩ := hs d
  obtain ⟨-, -, hacc⟩ := hs d.other
  rw [hrec, hacc]
  exact ⟨(h d).1.trans harr, fun halive => (h d).2 (ha halive)⟩

theorem SameStreams.grown {s s' : ProxySession} (h : SameStreams s s') (d : Side) :
    (s.socket d).arrived <+: (s'.socket d).arrived ∧
      (s'.socket d).received = (s.socket d).received ∧
      (s'.socket d).accepted = (s.socket d).accepted :=
  ⟨(h d).1 ▸ List.prefix_rfl, (h d).2⟩

theorem SameStreams.trans {s s' s'' : ProxySession} (h : SameStreams s s')
    (h' : SameStreams s' s'') : SameStreams s s'' :=
  fun d => ⟨(h' d).1.trans (h d).1, (h' d).2.1.trans (h d).2.1, (h' d).2.2.trans (h d).2.2⟩

/-- The streams after a handler are those after its own work. -/
theorem handle_sameStreams (w : World) (m : Method) (o : Outcomes) :
    SameStreams (w.moved m o).session (w.handle m o).session := by
  rcases handle_cases m o w with ⟨-, heq⟩ | ⟨-, heq | heq⟩
  · rw [heq]
    exact torn_sameStreams _
  · rw [heq]
    exact fun _ => ⟨rfl, rfl, rfl⟩
  · rw [heq]
    exact fun _ => ⟨rfl, rfl, rfl⟩

/-- With the bypass handler, a data callback ends the session exactly when
`sendBytes` throws and nothing keeps the exception from doing so. -/
theorem tearsDown_of_reads {w : World} {m : Method} {o : Outcomes} {d : Side} {bs : List Byte}
    (hservice : HasService .byPass w) (h : Reads w m o d bs) :
    tearsDown m o w.session = (o.send.thrown.any Exception.isPoco
      && !logThrows o .caught w.session.m_front && !w.session.m_closed
      && !closeLogThrows o w.session) := by
  obtain ⟨hside, hb, first, rest, hr, -⟩ := h
  obtain ⟨trace, hs⟩ := hservice
  have hcalls : callsClose m o w.session = readCloses o w.session := by
    cases m <;> simp only [readSide, reduceCtorEq] at hside <;> rfl
  have hthrows : dataThrows o w.session = o.send.thrown := by rw [dataThrows, hs]
  rw [tearsDown, hcalls, readCloses, hb, hr, Bool.true_and, catches, hthrows]

/-- What a data callback of the bypass handler does to the streams. -/
theorem relayed_streams {w : World} (hservice : HasService .byPass w) (d : Side) (o : Outcomes)
    (bs : List Byte) :
    let s' := ((w.received d bs).relayed o d bs).session
    (∀ x, (s'.socket x).arrived = (w.session.socket x).arrived) ∧
      (s'.socket d).received = (w.session.socket d).received ++ bs ∧
      (s'.socket d.other).received = (w.session.socket d.other).received ∧
      (s'.socket d).accepted = (w.session.socket d).accepted ∧
      (s'.socket d.other).accepted
        = (w.session.socket d.other).accepted ++ bs.take o.send.count := by
  obtain ⟨trace, hs⟩ := hservice
  have hsent : World.sent o (w.received d bs).session bs = bs.take o.send.count := by
    have hs' : (w.received d bs).session.m_service = some ⟨.byPass, trace⟩ := by
      cases d <;> exact hs
    rw [World.sent, hs']
  simp only [World.relayed, hsent]
  cases d <;> exact ⟨fun x => by cases x <;> rfl, rfl, rfl, rfl, rfl⟩

/-- Where bytes move and the session lives on, integrity is that all of them have
been accepted. -/
theorem intact_of_reads {w w' : World} {m : Method} {o : Outcomes} {d : Side} {bs : List Byte}
    (hservice : HasService .byPass w) (ha : w.Alive) (hi : Intact w) (hreads : Reads w m o d bs)
    (hfits : (w.session.socket d).received ++ bs <+: (w.session.socket d).arrived)
    (hs : SameStreams (w.moved m o).session w'.session) :
    Intact w' ↔ (w'.Alive → bs.length ≤ o.send.count) := by
  rw [moved_of_reads hreads] at hs
  obtain ⟨harr, hrec, hrec', hacc, hacc'⟩ := relayed_streams hservice d o bs
  have hd : (w.session.socket d.other).accepted = (w.session.socket d).received := (hi d).2 ha
  have hback : (w.session.socket d).accepted = (w.session.socket d.other).received := by
    simpa using (hi d.other).2 ha
  have hwhole : bs.take o.send.count = bs ↔ bs.length ≤ o.send.count := List.take_eq_self_iff bs
  constructor
  · intro h halive
    have heq := (h d).2 halive
    rw [(hs d.other).2.2, (hs d).2.1, hacc', hrec, hd] at heq
    exact hwhole.mp (List.append_cancel_left heq)
  · intro h x
    rcases (by cases x <;> cases d <;> simp [Side.other] : x = d ∨ x = d.other) with rfl | rfl
    · -- the direction in which bytes have moved
      rw [(hs x).1, (hs x).2.1, (hs x.other).2.2, harr, hrec, hacc', hd]
      refine ⟨?_, fun halive => by rw [hwhole.mpr (h halive)]⟩
      exact ((List.prefix_append_right_inj _).mpr (List.take_prefix _ _)).trans hfits
    · -- the other direction
      rw [Side.other_other, (hs d.other).1, (hs d.other).2.1, (hs d).2.2, harr, hrec', hacc]
      exact ⟨by simpa using (hi d.other).1, fun _ => hback⟩

/-- The bytes read are the next ones of the stream, and `sendBytes` does as the
other socket allows. -/
theorem fits_of_reads {w : World} {m : Method} {o : Outcomes} {d : Side} {bs : List Byte}
    (hservice : HasService .byPass w) (h : Reads w m o d bs)
    (hdata : ∀ d, readSide m = some d → w.session.m_back_connected = true → DataOk w.session d o) :
    (w.session.socket d).received ++ bs <+: (w.session.socket d).arrived ∧
      SendOk (w.session.socket d.other) bs.length o.send := by
  obtain ⟨hside, hb, first, rest, hr, rfl⟩ := h
  have hok := hdata d hside hb
  simp only [DataOk, hr] at hok
  exact ⟨hok.2.1, hok.2.2 hservice.kind⟩

theorem sendsWhole_iff {w : World} {m : Method} {o : Outcomes} {d : Side} {bs : List Byte}
    (h : Reads w m o d bs) :
    SendsWhole w (.notify m o) ↔ match o.send with
      | .accepts count => count = bs.length
      | .throws _ _ => w.session.m_closed = false ∧
          logThrows o .caught w.session.m_front = false ∧ closeLogThrows o w.session = false := by
  refine ⟨fun hw => hw d bs h, fun hw d' bs' h' => ?_⟩
  obtain ⟨hside, -, first, rest, hr, rfl⟩ := h
  obtain ⟨hside', -, first', rest', hr', rfl⟩ := h'
  obtain ⟨rfl, rfl⟩ : first = first' ∧ rest = rest' := by simpa [hr] using hr'
  exact hw

/-- **The step**: from a state with integrity, a step keeps it exactly when it
sends all that it reads. -/
theorem step_intact_iff {w w' : World} {e : Event} (hsound : Sound w ∧ HasService .byPass w)
    (hi : Intact w) (hstep : Step w e w') : Intact w' ↔ SendsWhole w e := by
  obtain ⟨hadm, rfl⟩ := hstep
  cases e with
  | arrive d bs =>
      refine iff_of_true (hi.mono (fun x => ?_) id) trivial
      cases d <;> cases x <;>
        first
        | exact ⟨List.prefix_append _ _, rfl, rfl⟩
        | exact ⟨List.prefix_rfl, rfl, rfl⟩
  | connectDone status =>
      refine iff_of_true (hi.mono (fun x => ?_) id) trivial
      cases x <;> exact ⟨List.prefix_rfl, rfl, rfl⟩
  | elsewhere r => exact iff_of_true (hi.mono (fun x => ⟨List.prefix_rfl, rfl, rfl⟩) id) trivial
  | notify m o =>
      obtain ⟨ha, -, hdata⟩ := hadm
      rw [step_notify ha]
      have hs := handle_sameStreams w m o
      by_cases hreads : ∃ d bs, Reads w m o d bs
      · obtain ⟨d, bs, hreads⟩ := hreads
        obtain ⟨hfits, hsend⟩ := fits_of_reads hsound.2 hreads hdata
        rw [intact_of_reads hsound.2 ha hi hreads hfits hs, handle_alive_iff ha,
          tearsDown_of_reads hsound.2 hreads]
        rw [sendsWhole_iff hreads]
        -- `sendBytes` returns at most the length, and less when it throws
        cases hsent : o.send with
        | accepts count =>
            rw [hsent] at hsend
            simp only [SendOutcome.thrown, SendOutcome.count, Option.any_none, Bool.false_and,
              forall_const]
            exact ⟨fun h => le_antisymm hsend.2.1 h, fun h => h ▸ le_rfl⟩
        | throws count e =>
            rw [hsent] at hsend
            have hpoco : e.isPoco = true := by
              rcases hsend.2 with rfl | ⟨rfl, -⟩ <;> rfl
            have hless : ¬ bs.length ≤ count := by
              have := hsend.1
              omega
            simp only [SendOutcome.thrown, SendOutcome.count, Option.any_some, hpoco, hless]
            cases logThrows o .caught w.session.m_front <;> cases w.session.m_closed <;>
              cases closeLogThrows o w.session <;> decide
      · -- no bytes move
        have hno : ∀ d bs, ¬ Reads w m o d bs := fun d bs h => hreads ⟨d, bs, h⟩
        have hsame := (moved_sameStreams hno).trans hs
        exact iff_of_true (hi.mono hsame.grown fun _ => ha) fun d bs h => absurd h (hno d bs)

/-- **Relay integrity of a bypass session**: it holds in every state of a run
exactly if in the run `sendBytes` has sent whole what was read, or its exception
has ended the session. -/
theorem relay_intact_iff {w : World} (hstart : Started w) (hservice : HasService .byPass w)
    {ts : List (Transition World Event)} (hrun : IsRun Step w ts) :
    (∀ x ∈ states w ts, Intact x) ↔ ∀ t ∈ ts, SendsWhole t.src t.label :=
  run_iff (J := fun x => Sound x ∧ HasService .byPass x) (P := Intact) (C := SendsWhole)
    (fun _ _ _ h hstep => sound_and_hasService h hstep)
    (fun _ _ _ h hi hstep => step_intact_iff h hi hstep)
    ⟨started_sound hstart, hservice⟩ (started_intact hstart) hrun

/-- The front peer sends three bytes, of which the back socket takes one, and then
a fourth one, which it takes. -/
def partialSend : List Event :=
  [.connectDone .succeeded, .notify .onBackWritable {},
    .arrive .front [1, 2, 3],
    .notify .onFrontReadable { receive := .bytes 1 [2, 3], send := .accepts 1 },
    .arrive .front [4],
    .notify .onFrontReadable { receive := .bytes 4 [], send := .accepts 1 }]

theorem allowed_partialSend : Allowed Admissible step (sample .byPass) partialSend := by
  decide

theorem relay_intact_iff_partialSend :
    (∀ x ∈ states (sample .byPass) (unroll step (sample .byPass) partialSend), Intact x) ↔
      ∀ t ∈ unroll step (sample .byPass) partialSend, SendsWhole t.src t.label :=
  relay_intact_iff (started_sample .byPass) (hasService_sample .byPass)
    (isRun_unroll allowed_partialSend)

/-- A non-blocking socket takes a part, and the rest is lost: the back server gets
bytes that no prefix of the client's stream ends with. -/
theorem relay_not_intact : ¬ ∀ (w : World) (ts : List (Transition World Event)), Started w →
    HasService .byPass w → IsRun Step w ts → ∀ x ∈ states w ts, Intact x := by
  intro h
  have hrun := isRun_unroll allowed_partialSend
  have hlast := h _ _ (started_sample .byPass) (hasService_sample .byPass) hrun
    (partialSend.foldl step (sample .byPass)) (mem_states.mpr (.inr ⟨_, by
      simp only [partialSend, unroll]
      exact List.mem_of_getLast? rfl, rfl⟩))
  have hbegin := (hlast .front).1
  revert hbegin
  decide

/-! ## What closes a bypass session -/

/-- The session's `Close` is reached for the first time in this step. -/
def Closes (w w' : World) : Prop := w.session.m_closed = false ∧ w'.session.m_closed = true

/-- The reasons to close a session: the reactor shuts down, the system reports an
error, a peer has ended its stream, or a call on a socket has failed. -/
inductive RealCause (w : World) : Event → Prop where
  | shutdown {m : Method} {o : Outcomes} (h : m.kind = .shutdown) : RealCause w (.notify m o)
  | error {m : Method} {o : Outcomes} (h : m.kind = .error) : RealCause w (.notify m o)
  | endOfStream {m : Method} {o : Outcomes} {d : Side} (h : readSide m = some d)
      (hb : w.session.m_back_connected = true) (hr : o.receive = .endOfStream) :
      RealCause w (.notify m o)
  | receiveFailed {m : Method} {o : Outcomes} {d : Side} (h : readSide m = some d)
      (hb : w.session.m_back_connected = true) (hr : o.receive = .throws .poco) :
      RealCause w (.notify m o)
  | sendFailed {m : Method} {o : Outcomes} {d : Side} {bs : List Byte} {count : ℕ}
      (h : Reads w m o d bs) (hs : o.send = .throws count .poco) : RealCause w (.notify m o)
  | addressFailed {o : Outcomes} (hb : w.session.m_back_connected = false)
      (hl : logThrows o .connected w.session.m_back = true) :
      RealCause w (.notify .onBackWritable o)

/-- A notification that does not make the back socket say "would block" to a
session that has not been closed; or the exception does not get to `Close`. -/
def NeverBlocks (w : World) : Event → Prop
  | .notify m o => w.session.m_closed = false → w.session.m_back_connected = true →
      ¬ (m = .onBackReadable ∧ o.receive = .wouldBlock) ∧
        ∀ bs count, Reads w m o .front bs → o.send = .throws count .wouldBlock →
          logThrows o .caught w.session.m_front = true
  | _ => True

/-- With the bypass handler, `onBackWritable` calls `Close` only because of its
log statement. -/
theorem connectThrows_byPass {w : World} (h : HasService .byPass w) (o : Outcomes) :
    connectThrows o w.session
      = if logThrows o .connected w.session.m_back then some .poco else none := by
  obtain ⟨trace, hs⟩ := h
  simp only [connectThrows, callbackThrows, hs]

theorem kind_of_readSide {m : Method} {d : Side} (h : readSide m = some d) :
    m.kind = .readable := by
  cases m <;> simp only [readSide, reduceCtorEq] at h <;> rfl

theorem readSide_back {m : Method} (h : readSide m = some .back) : m = .onBackReadable := by
  cases m <;> simp only [readSide, reduceCtorEq, Option.some.injEq] at h
  rfl

/-- "Would block" is no reason to close, neither from `receiveBytes` nor from
`sendBytes`. -/
theorem not_realCause_wouldBlock {w : World} {m : Method} {o : Outcomes} {d : Side}
    (hside : readSide m = some d)
    (h : o.receive = .wouldBlock ∨ ∃ first rest count,
      o.receive = .bytes first rest ∧ o.send = .throws count .wouldBlock) :
    ¬ RealCause w (.notify m o) := by
  intro hcause
  have hkind := kind_of_readSide hside
  cases hcause with
  | shutdown h => rw [hkind] at h; cases h
  | error h => rw [hkind] at h; cases h
  | endOfStream _ _ hr => rcases h with h | ⟨_, _, _, h, -⟩ <;> rw [hr] at h <;> cases h
  | receiveFailed _ _ hr => rcases h with h | ⟨_, _, _, h, -⟩ <;> rw [hr] at h <;> cases h
  | sendFailed hreads hs =>
      obtain ⟨-, -, _, _, hr, -⟩ := hreads
      rcases h with h | ⟨_, _, _, -, h⟩
      · rw [hr] at h; cases h
      · rw [hs] at h; cases h
  | addressFailed => cases hside

/-- What makes a read handler close the session, for each end of `receiveBytes`. -/
theorem readCloses_iff {w : World} (hsound : Sound w) (hservice : HasService .byPass w)
    {m : Method} {o : Outcomes} {d : Side} (hside : readSide m = some d)
    (hdata : w.session.m_back_connected = true → DataOk w.session d o)
    (hclosed : w.session.m_closed = false) :
    (readCloses o w.session = true → RealCause w (.notify m o)) ↔ NeverBlocks w (.notify m o) := by
  by_cases hb : w.session.m_back_connected = true
  -- without a connection nothing is read
  swap
  · simp [readCloses, NeverBlocks, hb]
  have hok := hdata hb
  have hthrows : dataThrows o w.session = o.send.thrown := by
    obtain ⟨trace, hs⟩ := hservice
    rw [dataThrows, hs]
  cases hr : o.receive with
  | bytes first rest =>
      have hreads : Reads w m o d (first :: rest) := ⟨hside, hb, first, rest, hr, rfl⟩
      simp only [DataOk, hr] at hok
      have hsend := hok.2.2 hservice.kind
      cases hs : o.send with
      | accepts count =>
          refine iff_of_true (fun hc => ?_) fun _ _ => ⟨by simp [hr], by simp [hs]⟩
          simp [readCloses, hr, catches, hthrows, hs, SendOutcome.thrown] at hc
      | throws count e =>
          -- a failure is a real cause, a socket that would block is none
          rw [hs] at hsend
          rcases hsend.2 with rfl | ⟨rfl, hnb⟩
          · exact iff_of_true (fun _ => .sendFailed hreads hs) fun _ _ =>
              ⟨by simp [hr], by simp [hs]⟩
          · -- only the back socket is non-blocking, so the bytes came from the front one
            have hd : d = .front := by
              cases d with
              | front => rfl
              | back => rw [show w.session.socket (Side.back).other = w.session.m_front from rfl,
                  hsound.front_blocking] at hnb; cases hnb
            subst hd
            have hno := not_realCause_wouldBlock (w := w) hside (.inr ⟨first, rest, count, hr, hs⟩)
            have hcloses : readCloses o w.session = !logThrows o .caught w.session.m_front := by
              rw [readCloses, hb, hr, Bool.true_and, catches, hthrows, hs]
              rfl
            rw [hcloses]
            constructor
            · intro hc _ _
              refine ⟨by simp [hr], fun bs count' _ _ => ?_⟩
              by_contra hl
              exact hno (hc (by simpa using hl))
            · intro hn hc
              have hl := (hn hclosed hb).2 _ count hreads hs
              rw [hl] at hc
              cases hc
  | endOfStream =>
      refine iff_of_true (fun _ => .endOfStream hside hb hr) fun _ _ => ⟨by simp [hr], ?_⟩
      rintro bs count ⟨-, -, _, _, hr', -⟩
      rw [hr] at hr'
      cases hr'
  | wouldBlock =>
      -- a front socket waits for its bytes
      simp only [DataOk, hr] at hok
      have hd : d = .back := by
        cases d with
        | back => rfl
        | front => rw [show w.session.socket .front = w.session.m_front from rfl,
            hsound.front_blocking] at hok; cases hok
      subst hd
      refine iff_of_false (fun hc => ?_) fun hn => ?_
      · exact not_realCause_wouldBlock hside (.inl hr) (hc (by simp [readCloses, hb, hr]))
      · exact (hn hclosed hb).1 ⟨readSide_back hside, hr⟩
  | throws e =>
      simp only [DataOk, hr] at hok
      subst hok
      refine iff_of_true (fun _ => .receiveFailed hside hb hr) fun _ _ => ⟨by simp [hr], ?_⟩
      rintro bs count ⟨-, -, _, _, hr', -⟩
      rw [hr] at hr'
      cases hr'

/-- A method that does not read never finds the socket blocked. -/
theorem neverBlocks_of_not_read {w : World} {m : Method} {o : Outcomes} (h : readSide m = none) :
    NeverBlocks w (.notify m o) := by
  intro _ _
  refine ⟨?_, ?_⟩
  · rintro ⟨rfl, -⟩
    cases h
  · rintro bs count ⟨hside, -⟩
    rw [h] at hside
    cases hside

/-- **The step**: a step closes the session for a reason, exactly if it does not
find the back socket blocked. -/
theorem step_closes_iff {w w' : World} {e : Event} (h : Sound w ∧ HasService .byPass w)
    (hstep : Step w e w') : (Closes w w' → RealCause w e) ↔ NeverBlocks w e := by
  obtain ⟨hadm, rfl⟩ := hstep
  -- a step that keeps the flag closes nothing
  have hkeeps : ∀ {e : Event}, (step w e).session.m_closed = w.session.m_closed →
      Closes w (step w e) → RealCause w e := by
    rintro e heq ⟨hopen, hclosed⟩
    rw [heq, hopen] at hclosed
    cases hclosed
  cases e with
  | arrive d bs => exact iff_of_true (hkeeps (by cases d <;> rfl)) trivial
  | connectDone status => exact iff_of_true (hkeeps rfl) trivial
  | elsewhere r => exact iff_of_true (hkeeps rfl) trivial
  | notify m o =>
      obtain ⟨ha, -, hdata⟩ := hadm
      have hcloses : Closes w (step w (.notify m o)) ↔
          w.session.m_closed = false ∧ callsClose m o w.session = true := by
        rw [Closes, step_notify ha, handle_closed]
        cases w.session.m_closed <;> simp
      rw [hcloses, and_imp]
      by_cases hclosed : w.session.m_closed = false
      swap
      · exact iff_of_true (fun hc => absurd hc hclosed) fun hc => absurd hc hclosed
      simp only [hclosed, forall_const]
      cases m with
      | onAccept => exact iff_of_true (fun hc => by cases hc) (neverBlocks_of_not_read rfl)
      | onFrontReadable => exact readCloses_iff h.1 h.2 rfl (hdata .front rfl) hclosed
      | onBackReadable => exact readCloses_iff h.1 h.2 rfl (hdata .back rfl) hclosed
      | onFrontShutdown => exact iff_of_true (fun _ => .shutdown rfl) (neverBlocks_of_not_read rfl)
      | onFrontError => exact iff_of_true (fun _ => .error rfl) (neverBlocks_of_not_read rfl)
      | onBackShutdown => exact iff_of_true (fun _ => .shutdown rfl) (neverBlocks_of_not_read rfl)
      | onBackError => exact iff_of_true (fun _ => .error rfl) (neverBlocks_of_not_read rfl)
      | onBackWritable =>
          refine iff_of_true (fun hc => ?_) (neverBlocks_of_not_read rfl)
          simp only [callsClose, catches, connectThrows_byPass h.2, Bool.and_eq_true,
            Bool.not_eq_eq_eq_not, Bool.not_true] at hc
          obtain ⟨hb, hthrown, -⟩ := hc
          refine .addressFailed hb ?_
          by_contra hl
          rw [if_neg hl] at hthrown
          cases hthrown

/-- **Back pressure**: in a run, the session is only closed for a reason exactly if
the back socket never blocks a call of its handlers. -/
theorem closes_iff {w : World} (hstart : Started w) (hservice : HasService .byPass w)
    {ts : List (Transition World Event)} (hrun : IsRun Step w ts) :
    (∀ t ∈ ts, Closes t.src t.dst → RealCause t.src t.label) ↔
      ∀ t ∈ ts, NeverBlocks t.src t.label :=
  steps_iff (J := fun x => Sound x ∧ HasService .byPass x)
    (Q := fun x e x' => Closes x x' → RealCause x e) (C := NeverBlocks)
    (fun _ _ _ h hstep _ => sound_and_hasService h hstep)
    (fun _ _ _ h hstep => step_closes_iff h hstep) ⟨started_sound hstart, hservice⟩ hrun

/-- The send buffer of the back socket is full when the client's first byte is to
be sent. -/
def fullBuffer : List Event :=
  [.connectDone .succeeded, .notify .onBackWritable {}, .arrive .front [1],
    .notify .onFrontReadable { receive := .bytes 1 [], send := .throws 0 .wouldBlock }]

theorem allowed_fullBuffer : Allowed Admissible step (sample .byPass) fullBuffer := by
  decide

theorem closes_iff_fullBuffer :
    (∀ t ∈ unroll step (sample .byPass) fullBuffer, Closes t.src t.dst → RealCause t.src t.label) ↔
      ∀ t ∈ unroll step (sample .byPass) fullBuffer, NeverBlocks t.src t.label :=
  closes_iff (started_sample .byPass) (hasService_sample .byPass) (isRun_unroll allowed_fullBuffer)

/-- A full buffer does close the session. -/
theorem closes_without_cause : ¬ ∀ (w : World) (ts : List (Transition World Event)), Started w →
    HasService .byPass w → IsRun Step w ts →
      ∀ t ∈ ts, Closes t.src t.dst → RealCause t.src t.label := by
  intro h
  have hrun := isRun_unroll allowed_fullBuffer
  have hlast := h _ _ (started_sample .byPass) (hasService_sample .byPass) hrun _
    (List.mem_of_getLast? rfl) ⟨by decide, by decide⟩
  exact not_realCause_wouldBlock (by exact rfl) (.inr ⟨1, [], 0, rfl, rfl⟩) hlast

end PocoProxy.Session
