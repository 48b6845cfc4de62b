/-
What Poco's calls come to, whatever the system does.

Nothing that a handler does before it has heard from the system depends on what the peers and
the network do in the meantime; so what happens while a call waits may as well have happened
before the handler was called. With this, the loops over the system's calls come to just the
outcomes that `SessionRun` takes for granted (`handler_outcome`), and every one of these can come
of them (`handler_scripted`).
-/
import PocoProxy.SocketCalls

set_option autoImplicit false

namespace PocoProxy.SocketCalls

open PocoProxy.Program PocoProxy.Socket PocoProxy.Reactor PocoProxy.Session

/-! ## In the meantime -/

/-- The peers and the network act. -/
inductive Outside (w : World) : World → Prop
  | arrive (d : Side) (bs : List Byte) : Outside w (step w (.arrive d bs))
  | connectDone (status : ConnectStatus) (h : Admissible w (.connectDone status)) :
    Outside w (step w (.connectDone status))

/-- What has happened while a call waited. -/
abbrev Meanwhile : World → World → Prop := Relation.ReflTransGen Outside

/-- What the handlers depend on, and does not change meanwhile. -/
structure Steady (w w' : World) : Prop where
  deletions : w'.deletions = w.deletions
  reactor : w'.reactor = w.reactor
  connected : w'.session.m_back_connected = w.session.m_back_connected
  service : w'.session.m_service = w.session.m_service
  blocking : ∀ d, (w'.session.socket d).blocking = (w.session.socket d).blocking
  received : ∀ d, (w'.session.socket d).received = (w.session.socket d).received
  arrived : ∀ d, (w.session.socket d).arrived <+: (w'.session.socket d).arrived

theorem Outside.steady {w w' : World} (h : Outside w w') : Steady w w' := by
  cases h with
  | arrive d bs =>
      cases d
      · exact ⟨rfl, rfl, rfl, rfl, Side.both rfl rfl, Side.both rfl rfl,
          Side.both (List.prefix_append _ _) (List.prefix_refl _)⟩
      · exact ⟨rfl, rfl, rfl, rfl, Side.both rfl rfl, Side.both rfl rfl,
          Side.both (List.prefix_refl _) (List.prefix_append _ _)⟩
  | connectDone status h =>
      exact ⟨rfl, rfl, rfl, rfl, Side.both rfl rfl, Side.both rfl rfl,
        Side.both (List.prefix_refl _) (List.prefix_refl _)⟩

theorem Meanwhile.steady {w w' : World} (h : Meanwhile w w') : Steady w w' := by
  induction h with
  | refl =>
      exact ⟨rfl, rfl, rfl, rfl, fun _ => rfl, fun _ => rfl, fun _ => List.prefix_refl _⟩
  | tail _ hlast ih =>
      have h := hlast.steady
      exact ⟨h.deletions.trans ih.deletions, h.reactor.trans ih.reactor,
        h.connected.trans ih.connected, h.service.trans ih.service,
        fun d => (h.blocking d).trans (ih.blocking d),
        fun d => (h.received d).trans (ih.received d),
        fun d => (ih.arrived d).trans (h.arrived d)⟩

theorem Meanwhile.alive {w w' : World} (h : Meanwhile w w') (ha : w.Alive) : w'.Alive :=
  h.steady.deletions.trans ha

/-- A change of the world before which the peers may as well have acted. -/
def Moves (f : World → World) : Prop :=
  ∀ w w', Outside (f w) w' → ∃ w₀, Outside w w₀ ∧ w' = f w₀

theorem Moves.meanwhile {f : World → World} (h : Moves f) {w w' : World}
    (hw : Meanwhile (f w) w') : ∃ w₀, Meanwhile w w₀ ∧ w' = f w₀ := by
  induction hw with
  | refl => exact ⟨w, .refl, rfl⟩
  | tail _ hlast ih =>
      obtain ⟨w₀, hw₀, rfl⟩ := ih
      obtain ⟨w₁, hw₁, rfl⟩ := h _ _ hlast
      exact ⟨w₁, hw₀.tail hw₁, rfl⟩

theorem moves_received (d : Side) (bs : List Byte) : Moves (World.received d bs) := by
  intro w w' h
  cases h with
  | arrive d' bs' => exact ⟨_, .arrive d' bs', by cases d <;> cases d' <;> rfl⟩
  | connectDone status h =>
      have hback : (w.received d bs).session.m_back.connect = w.session.m_back.connect := by
        cases d <;> rfl
      rw [Admissible, hback] at h
      exact ⟨_, .connectDone status h, by cases d <;> rfl⟩

theorem moves_accepted (d : Side) (bs : List Byte) : Moves (World.accepted d bs) := by
  intro w w' h
  cases h with
  | arrive d' bs' => exact ⟨_, .arrive d' bs', by cases d <;> cases d' <;> rfl⟩
  | connectDone status h =>
      have hback : (w.accepted d bs).session.m_back.connect = w.session.m_back.connect := by
        cases d <;> rfl
      rw [Admissible, hback] at h
      exact ⟨_, .connectDone status h, by cases d <;> rfl⟩

theorem moves_called (c : Callback) : Moves (World.called c) := by
  intro w w' h
  cases h with
  | arrive d' bs' => exact ⟨_, .arrive d' bs', by cases d' <;> rfl⟩
  | connectDone status h => exact ⟨_, .connectDone status h, rfl⟩

/-! ## A call of the system -/

/-- The call has not returned, or it has, and `R` holds of a world that `w` has become in the
meantime, of the result and of the process. -/
def After {α : Type} (w : World) (R : World → Except Interruption α → Process → Prop)
    (r : Except Interruption α) (s : Process) : Prop :=
  r = .error .waiting ∨ ∃ w', Meanwhile w w' ∧ R w' r s

/-- A call and what follows it: the call waits, returns or throws. -/
theorem after_bind {α β : Type} {P : Process → Prop} {w : World} {x : CallAct α}
    {f : α → CallAct β} {R : World → Except Interruption α → Process → Prop}
    {Q : Except Interruption β → Process → Prop} (hx : Ensures P x (After w R))
    (hwaits : ∀ s, Q (.error .waiting) s)
    (hok : ∀ w' a s, Meanwhile w w' → R w' (.ok a) s → Q (f a s).1 (f a s).2)
    (herror : ∀ w' e s, Meanwhile w w' → R w' (.error e) s → Q (.error e) s) :
    Ensures P (x >>= f) Q := by
  refine Ensures.bind hx ?_ ?_
  · rintro a s (heq | ⟨w', hw', h⟩)
    · cases heq
    · exact hok w' a s hw' h
  · rintro e s (heq | ⟨w', hw', h⟩)
    · cases heq
      exact hwaits s
    · exact herror w' e s hw' h

theorem await_meanwhile (w : World) (script : List Happening) :
    Meanwhile w (await w script).1 := by
  fun_induction await w script with
  | case1 w => exact .refl
  | case2 w d bs rest ih => exact .head (.arrive d bs) ih
  | case3 w status rest h ih => exact .head (.connectDone status h) ih
  | case4 w status rest h => exact .refl
  | case5 w rc err rest => exact .refl

/-- The call has returned as documented. -/
def Called (d : Side) (least : ℕ) (most : SocketImpl → ℕ) (effect : ℤ → World → World)
    (w : World) (r : Except Interruption ℤ) (s : Process) : Prop :=
  ∃ rc, r = .ok rc ∧ s.world = effect rc w ∧
    Documented (w.session.socket d) least (most (w.session.socket d)) rc s.lastError

theorem systemCall_spec (d : Side) (least : ℕ) (most : SocketImpl → ℕ)
    (effect : ℤ → World → World) (w : World) :
    Ensures (fun s => s.world = w) (systemCall d least most effect)
      (After w (Called d least most effect)) := by
  rintro s rfl
  have hw := await_meanwhile s.world s.script
  unfold systemCall
  rcases hawait : await s.world s.script with ⟨w', answer, rest⟩
  rw [hawait] at hw
  cases answer with
  | none => exact .inl rfl
  | some answer =>
      obtain ⟨rc, err⟩ := answer
      dsimp only
      by_cases hdoc : Documented (w'.session.socket d) least (most (w'.session.socket d)) rc err
      · rw [if_pos hdoc]
        exact .inr ⟨w', hw, rc, rfl, rfl, hdoc⟩
      · rw [if_neg hdoc]
        exact .inl rfl

theorem act_self {s : Process} (h : s.world.Alive) : act self s = (.ok s.world.session, s) := by
  rw [act, self_run h]
  rfl

theorem act_self_bind {α : Type} {s : Process} (h : s.world.Alive)
    (f : ProxySession → CallAct α) : (act self >>= f) s = f s.world.session s :=
  Prog.bind_of_ok (act_self h)

/-- A call that is repeated comes to what one call comes to, unless there is no descriptor. -/
def Attempted (d : Side) (least : ℕ) (most : SocketImpl → ℕ) (effect : ℤ → World → World)
    (w : World) (r : Except Interruption ℤ) (s : Process) : Prop :=
  r = .error (.thrown .poco) ∧ s.world = w ∨ Called d least most effect w r s

theorem retrying_spec (d : Side) (least : ℕ) (most : SocketImpl → ℕ)
    {effect : ℤ → World → World} (heffect : ∀ rc w, rc < 0 → effect rc w = w) {w : World}
    (h : w.Alive) :
    Ensures (fun s => s.world = w) (retrying d (systemCall d least most effect))
      (After w (Attempted d least most effect)) := by
  rintro s rfl
  have hround : ∀ u : Unit, Ensures (fun s' => Meanwhile s.world s'.world)
      (attempt d (systemCall d least most effect))
      (RoundEnds (fun _ s' => Meanwhile s.world s'.world)
        (After s.world (Attempted d least most effect))) := by
    intro _ s' hs'
    rw [attempt, act_self_bind (hs'.alive h)]
    by_cases hfd : (s'.world.session.socket d).sockfd = POCO_INVALID_SOCKET
    · rw [if_pos hfd]
      exact .inr ⟨s'.world, hs', .inl ⟨rfl, rfl⟩⟩
    rw [if_neg hfd]
    refine after_bind (systemCall_spec d least most effect s'.world) (fun _ => .inl rfl)
      (fun w' rc s'' hw' hcalled => ?_) (fun w' e s'' hw' hcalled => ?_) s' rfl
    · obtain ⟨_, heq, hworld, hdoc⟩ := hcalled
      cases heq
      have herr : lastError s'' = (.ok s''.lastError, s'') := rfl
      rw [Prog.bind_of_ok herr]
      by_cases hagain : (s'.world.session.socket d).blocking = true ∧ rc < 0 ∧
          s''.lastError = POCO_EINTR
      · rw [if_pos hagain]
        rw [heffect rc w' hagain.2.1] at hworld
        show Meanwhile s.world s''.world
        rw [hworld]
        exact hs'.trans hw'
      · rw [if_neg hagain]
        exact .inr ⟨w', hs'.trans hw', .inr ⟨rc, rfl, hworld, hdoc⟩⟩
    · obtain ⟨_, heq, -⟩ := hcalled
      cases heq
  exact Ensures.loop hround (fun _ _ _ => .inl rfl) (s.script.length + 1) () s .refl

/-- The process has come to what the session's program comes to. -/
def Same {α : Type} (x : Except Exception α × World) (r : Except Interruption α)
    (s : Process) : Prop :=
  r = x.1.mapError .thrown ∧ s.world = x.2

/-! ## `receiveBytes` -/

/-- What the socket can give of `length` bytes. -/
def ReceiveOk (s : SocketImpl) (length : ℕ) : ReceiveOutcome → Prop
  | .bytes first rest =>
    (first :: rest).length ≤ length ∧ s.received ++ first :: rest <+: s.arrived
  | .endOfStream => True
  | .wouldBlock => s.blocking = false
  | .throws e => e = .poco

/-- Bytes of the stream are received in its order. -/
theorem received_take_pending {s : SocketImpl} (h : s.received <+: s.arrived) (n : ℕ) :
    s.received ++ (pending s).take n <+: s.arrived := by
  obtain ⟨rest, hrest⟩ := h
  have hpending : pending s = rest := by
    rw [pending, ← hrest, List.drop_left]
  rw [hpending, ← hrest, List.prefix_append_right_inj]
  exact List.take_prefix n rest

/-- The code of a failed `recv` becomes an exception, or minus one on a socket that does not
block. -/
theorem receiveFailed_spec {s : Process} (h : s.world.Alive) (d : Side) (rc : ℤ)
    (hcode : s.lastError ≠ POCO_ENOERR) :
    receiveFailed d rc s = (.ok rc, s) ∧ (s.world.session.socket d).blocking = false ∨
      receiveFailed d rc s = (.error (.thrown .poco), s) := by
  have herr : lastError s = (.ok s.lastError, s) := rfl
  rw [receiveFailed, Prog.bind_of_ok herr, act_self_bind h]
  by_cases hagain : s.lastError = POCO_EAGAIN ∧ (s.world.session.socket d).blocking = false
  · rw [if_pos hagain]
    exact .inl ⟨rfl, hagain.2⟩
  rw [if_neg hagain]
  by_cases htime : s.lastError = POCO_EAGAIN ∨ s.lastError = POCO_ETIMEDOUT
  · rw [if_pos htime]
    exact .inr rfl
  · have hblock : s.lastError ≠ POCO_EWOULDBLOCK := fun heq => htime (.inl heq)
    rw [if_neg htime, error, if_neg hcode, if_neg hblock]
    exact .inr rfl

/-- A call that returns a number has returned so many bytes of the stream, or its end. -/
theorem recvEffect_spec {w : World} (h : w.Alive) {d : Side} {length : ℕ} (o : Outcomes)
    (hstream : (w.session.socket d).received <+: (w.session.socket d).arrived) {n : ℕ}
    (hlength : n ≤ length) (hpending : n ≤ (pending (w.session.socket d)).length) :
    ∃ q, ReceiveOk (w.session.socket d) length q ∧
      Session.receiveBytes d { o with receive := q } w = (.ok (n : ℤ), recvEffect d n w) := by
  cases n with
  | zero => exact ⟨.endOfStream, trivial, rfl⟩
  | succ n =>
      have hn := List.length_take_of_le hpending
      cases htake : (pending (w.session.socket d)).take (n + 1) with
      | nil =>
          rw [htake] at hn
          cases hn
      | cons first rest =>
          rw [htake] at hn
          refine ⟨.bytes first rest, ⟨hn ▸ hlength, htake ▸ received_take_pending hstream _⟩, ?_⟩
          rw [receiveBytes_run h, recvEffect, if_pos (by omega), Int.toNat_natCast, htake]
          simp only [hn]

/-- **`receiveBytes`.** It waits, or comes to an outcome that the socket can give. -/
theorem receiveBytes_spec {w : World} (h : w.Alive) (d : Side) (length : ℕ) (o : Outcomes)
    (hstream : (w.session.socket d).received <+: (w.session.socket d).arrived) :
    Ensures (fun s => s.world = w) (receiveBytes d length)
      (After w fun w' r s => ∃ q, ReceiveOk (w'.session.socket d) length q ∧
        Same (Session.receiveBytes d { o with receive := q } w') r s) := by
  have hnothing : ∀ rc w, rc < 0 → recvEffect d rc w = w := fun rc w hrc => if_neg (by omega)
  rw [receiveBytes, recv]
  refine after_bind (retrying_spec d 0 (fun s => min length (pending s).length) hnothing h) ?_ ?_ ?_
  · exact fun _ => .inl rfl
  · rintro w' rc s' hw' (⟨heq, -⟩ | ⟨_, heq, hworld, hdoc⟩)
    · cases heq
    cases heq
    have hstream' : (w'.session.socket d).received <+: (w'.session.socket d).arrived :=
      hw'.steady.received d ▸ hstream.trans (hw'.steady.arrived d)
    rcases hdoc with ⟨hleast, hmost⟩ | ⟨rfl, hcode, -⟩
    · -- a number of bytes
      obtain ⟨n, rfl⟩ := Int.eq_ofNat_of_zero_le hleast
      rw [if_neg (by omega)]
      dsimp only at hmost
      have hlength : n ≤ length := by omega
      have hpending : n ≤ (pending (w'.session.socket d)).length := by omega
      obtain ⟨q, hq, hsame⟩ := recvEffect_spec (hw'.alive h) o hstream' hlength hpending
      exact .inr ⟨w', hw', q, hq, by rw [hsame]; exact ⟨rfl, hworld⟩⟩
    · -- an error; the world is as it was when the call returned
      replace hworld : s'.world = w' := hworld
      subst hworld
      rw [if_pos (by omega)]
      rcases receiveFailed_spec (hw'.alive h) d (-1) hcode with ⟨hfailed, hblocking⟩ | hfailed
      · rw [hfailed]
        exact .inr ⟨s'.world, hw', .wouldBlock, hblocking, rfl, rfl⟩
      · rw [hfailed]
        exact .inr ⟨s'.world, hw', .throws .poco, rfl, rfl, rfl⟩
  · -- there is no descriptor
    rintro w' e s' hw' (⟨heq, hworld⟩ | ⟨_, heq, -⟩)
    · cases heq
      exact .inr ⟨w', hw', .throws .poco, rfl, rfl, hworld⟩
    · cases heq

/-! ## `sendBytes` -/

/-- A call on a socket that does not block sends once; when it throws it has sent nothing. -/
def Prompt (s : SocketImpl) : SendOutcome → Prop
  | .accepts _ => True
  | .throws count _ => s.blocking = false → count = 0

instance (s : SocketImpl) : (q : SendOutcome) → Decidable (Prompt s q)
  | .accepts _ => .isTrue trivial
  | .throws _ _ => inferInstanceAs (Decidable (_ → _))

/-- What `error` throws for a code that `send` has failed with. -/
theorem error_spec {s : Process} {impl : SocketImpl} (hcode : s.lastError ≠ POCO_ENOERR)
    (hblock : s.lastError = POCO_EWOULDBLOCK → impl.blocking = false) :
    ∃ e, (e = .poco ∨ e = .wouldBlock ∧ impl.blocking = false) ∧
      error s.lastError s = (.error (.thrown e), s) := by
  rw [error, if_neg hcode]
  by_cases h : s.lastError = POCO_EWOULDBLOCK
  · rw [if_pos h]
    exact ⟨.wouldBlock, .inr ⟨rfl, hblock h⟩, rfl⟩
  · rw [if_neg h]
    exact ⟨.poco, .inl rfl, rfl⟩

/-- `SocketImpl::sendBytes` has thrown and sent nothing, or has sent some of `p`. -/
def SentSome (d : Side) (p : List Byte) (w : World) (r : Except Interruption ℤ)
    (s : Process) : Prop :=
  (∃ e, (e = .poco ∨ e = .wouldBlock ∧ (w.session.socket d).blocking = false) ∧
      r = .error (.thrown e) ∧ s.world = w) ∨
    ∃ n : ℕ, 1 ≤ n ∧ n ≤ p.length ∧ r = .ok (n : ℤ) ∧ s.world = w.accepted d (p.take n)

theorem socketImpl_sendBytes_spec {w : World} (h : w.Alive) (d : Side) (p : List Byte) :
    Ensures (fun s => s.world = w) (SocketImpl.sendBytes d p) (After w (SentSome d p)) := by
  have hnothing : ∀ rc w, rc < 0 → sendEffect d p rc w = w := fun rc w hrc => if_neg (by omega)
  rw [SocketImpl.sendBytes, send]
  refine after_bind (retrying_spec d 1 (fun _ => p.length) hnothing h) ?_ ?_ ?_
  · exact fun _ => .inl rfl
  · rintro w' rc s' hw' (⟨heq, -⟩ | ⟨_, heq, hworld, hdoc⟩)
    · cases heq
    cases heq
    rcases hdoc with ⟨hleast, hmost⟩ | ⟨rfl, hcode, hblock⟩
    · obtain ⟨n, rfl⟩ := Int.eq_ofNat_of_zero_le (show 0 ≤ rc by omega)
      have hn : 1 ≤ n := by omega
      dsimp only at hmost
      rw [if_neg (by omega)]
      rw [sendEffect, if_pos (by omega), Int.toNat_natCast] at hworld
      exact .inr ⟨w', hw', .inr ⟨n, hn, by omega, rfl, hworld⟩⟩
    · have herr : lastError s' = (.ok s'.lastError, s') := rfl
      obtain ⟨e, he, hthrows⟩ := error_spec hcode hblock
      rw [if_pos (by omega), Prog.bind_of_ok herr, Prog.bind_of_error hthrows]
      exact .inr ⟨w', hw', .inl ⟨e, he, rfl, hworld⟩⟩
  · -- there is no descriptor
    rintro w' e s' hw' (⟨heq, hworld⟩ | ⟨_, heq, -⟩)
    · cases heq
      exact .inr ⟨w', hw', .inl ⟨.poco, .inl rfl, rfl, hworld⟩⟩
    · cases heq

theorem accepted_accepted (w : World) (d : Side) (bs bs' : List Byte) :
    (w.accepted d bs).accepted d bs' = w.accepted d (bs ++ bs') := by
  cases d <;> simp [World.accepted, ProxySession.setSocket]

/-- The invariant of the loop in `StreamSocketImpl::sendBytes`: the system has taken the first
`x.sent` bytes, not all of them, and only a blocking socket gets to a second round. -/
def Sent (d : Side) (buffer : List Byte) (w : World) (x : Sending) (s : Process) : Prop :=
  ∃ w' k, Meanwhile w w' ∧ s.world = w'.accepted d (buffer.take k) ∧ x = ⟨buffer.drop k, k⟩ ∧
    k < buffer.length ∧ ((w.session.socket d).blocking = false → k = 0)

/-- What the loop comes to. -/
def SentOut (d : Side) (buffer : List Byte) (o : Outcomes) (w : World)
    (r : Except Interruption ℤ) (s : Process) : Prop :=
  ∃ q, SendOk (w.session.socket d) buffer.length q ∧ Prompt (w.session.socket d) q ∧
    Same (Session.sendBytes d { o with send := q } buffer w) r s

theorem sendRound_spec {w : World} (h : w.Alive) (d : Side) (buffer : List Byte) (o : Outcomes)
    (x : Sending) :
    Ensures (Sent d buffer w x) (sendRound d (w.session.socket d).blocking x)
      (RoundEnds (Sent d buffer w) (After w (SentOut d buffer o))) := by
  rintro s ⟨w', k, hw', hworld, rfl, hk, honce⟩
  have halive : (w'.accepted d (buffer.take k)).Alive := hw'.alive h
  -- what has happened since the last round has happened before the first one
  have hbefore : ∀ w₁, Meanwhile (w'.accepted d (buffer.take k)) w₁ →
      ∃ w₀, Meanwhile w w₀ ∧ w₁ = w₀.accepted d (buffer.take k) := by
    intro w₁ hw₁
    obtain ⟨w₀, hw₀, rfl⟩ := (moves_accepted d (buffer.take k)).meanwhile hw₁
    exact ⟨w₀, hw'.trans hw₀, rfl⟩
  rw [sendRound, if_pos (by rw [List.length_drop]; omega)]
  refine after_bind (socketImpl_sendBytes_spec halive d (buffer.drop k)) (fun _ => .inl rfl)
    (fun w₁ n s' hw₁ hsome => ?_) (fun w₁ e s' hw₁ hsome => ?_) s hworld
  · obtain ⟨w₀, hw₀, rfl⟩ := hbefore w₁ hw₁
    have hblocking : (w₀.session.socket d).blocking = (w.session.socket d).blocking :=
      hw₀.steady.blocking d
    rcases hsome with ⟨_, -, heq, -⟩ | ⟨n, hn, hle, heq, hs'⟩
    · cases heq
    cases heq
    dsimp only
    rw [Int.toNat_natCast, List.drop_drop]
    rw [accepted_accepted, ← List.take_add] at hs'
    rw [List.length_drop] at hle
    by_cases hmore : (w.session.socket d).blocking = true ∧ 0 < (buffer.drop (k + n)).length
    · rw [if_pos hmore]
      rw [List.length_drop] at hmore
      refine ⟨w₀, k + n, hw₀, hs', rfl, by omega, fun hnon => ?_⟩
      rw [hmore.1] at hnon
      cases hnon
    · rw [if_neg hmore]
      rw [List.length_drop] at hmore
      refine .inr ⟨w₀, hw₀, .accepts (k + n), ⟨by omega, by omega, fun hblock => ?_⟩, trivial, ?_⟩
      · rw [hblocking] at hblock
        have hnone : ¬ 0 < buffer.length - (k + n) := fun hpos => hmore ⟨hblock, hpos⟩
        omega
      · rw [sendBytes_run (hw₀.alive h)]
        exact ⟨rfl, hs'⟩
  · obtain ⟨w₀, hw₀, rfl⟩ := hbefore w₁ hw₁
    have hblocking : (w₀.session.socket d).blocking = (w.session.socket d).blocking :=
      hw₀.steady.blocking d
    have hblocking' : ((w₀.accepted d (buffer.take k)).session.socket d).blocking
        = (w₀.session.socket d).blocking := by cases d <;> rfl
    rcases hsome with ⟨_, he, heq, hs'⟩ | ⟨_, -, -, heq, -⟩
    · cases heq
      rw [hblocking'] at he
      refine .inr ⟨w₀, hw₀, .throws k _, ⟨hk, he⟩, fun hnon => honce (hblocking ▸ hnon), ?_⟩
      rw [sendBytes_run (hw₀.alive h)]
      exact ⟨rfl, hs'⟩
    · cases heq

/-- **`sendBytes`.** It waits, or comes to an outcome that the socket can give; and what the
system has taken is the beginning of the buffer that the outcome says. -/
theorem sendBytes_spec {w : World} (h : w.Alive) (d : Side) {buffer : List Byte}
    (hne : buffer ≠ []) (o : Outcomes) :
    Ensures (fun s => s.world = w) (sendBytes d buffer) (After w (SentOut d buffer o)) := by
  rintro s rfl
  rw [sendBytes, act_self_bind h]
  refine Ensures.loop (sendRound_spec h d buffer o) (fun _ _ _ => .inl rfl) _ _ s ?_
  refine ⟨s.world, 0, .refl, ?_, rfl, List.length_pos_of_ne_nil hne, fun _ => rfl⟩
  rw [List.take_zero, World.accepted_nil]

/-! ## The handlers -/

/-- What can come of the `sendBytes` that the bypass handler calls on the other side. -/
def SendsOk (s : ProxySession) (d : Side) (length : ℕ) (q : SendOutcome) : Prop :=
  s.m_service.map Service.kind = some .byPass →
    SendOk (s.socket d.other) length q ∧ Prompt (s.socket d.other) q

/-- The two calls of a reading handler. -/
def CallsOk (s : ProxySession) (d : Side) (o : Outcomes) : Prop :=
  ReceiveOk (s.socket d) m_buffer_len o.receive ∧
    ∀ first rest, o.receive = .bytes first rest → SendsOk s d (first :: rest).length o.send

/-- What can still be received can be received later, with more behind it. -/
theorem ReceiveOk.steady {w w' : World} (h : Steady w w') {d : Side} {length : ℕ}
    {q : ReceiveOutcome} (hq : ReceiveOk (w.session.socket d) length q) :
    ReceiveOk (w'.session.socket d) length q := by
  cases q with
  | bytes first rest =>
      refine ⟨hq.1, ?_⟩
      rw [h.received d]
      exact hq.2.trans (h.arrived d)
  | endOfStream => trivial
  | wouldBlock => exact (h.blocking d).trans hq
  | throws e => exact hq

theorem act_same {α : Type} (x : Act α) (s : Process) :
    Same (x s.world) (act x s).1 (act x s).2 := ⟨rfl, rfl⟩

theorem act_bind_of_ok {α β : Type} {x : Act α} {s : Process} {a : α} {w : World}
    (h : x s.world = (.ok a, w)) (f : α → CallAct β) :
    (act x >>= f) s = f a { s with world := w } := by
  apply Prog.bind_of_ok
  rw [act, h]
  rfl

/-- One statement after the other. -/
theorem bind_same {α β : Type} {x : Act α} {y : CallAct α} {f : α → Act β} {g : α → CallAct β}
    {w : World} {s : Process} (h : Same (x w) (y s).1 (y s).2)
    (hnext : ∀ a s', Same (f a s'.world) (g a s').1 (g a s').2) :
    Same ((x >>= f) w) ((y >>= g) s).1 ((y >>= g) s).2 := by
  rcases hx : x w with ⟨r, w'⟩
  rcases hy : y s with ⟨r', s'⟩
  rw [hx, hy] at h
  obtain ⟨rfl, rfl⟩ : r' = r.mapError .thrown ∧ s'.world = w' := h
  cases r with
  | ok a =>
      rw [Prog.bind_of_ok hx, Prog.bind_of_ok hy]
      exact hnext a s'
  | error e =>
      rw [Prog.bind_of_error hx, Prog.bind_of_error hy]
      exact ⟨rfl, rfl⟩

/-- A `try` block and its `catch`. -/
theorem tryCatch_same {x c : Act Unit} {y : CallAct Unit} {w : World} {s : Process}
    (h : Same (x w) (y s).1 (y s).2) :
    Same (Prog.tryCatch Exception.isPoco x (fun _ => c) w)
      (Prog.tryCatch Interruption.isPoco y (fun _ => act c) s).1
      (Prog.tryCatch Interruption.isPoco y (fun _ => act c) s).2 := by
  rcases hx : x w with ⟨r, w'⟩
  rcases hy : y s with ⟨r', s'⟩
  rw [hx, hy] at h
  obtain ⟨rfl, rfl⟩ : r' = r.mapError .thrown ∧ s'.world = w' := h
  cases r with
  | ok a =>
      rw [Prog.tryCatch_of_ok hx, Prog.tryCatch_of_ok hy]
      exact ⟨rfl, rfl⟩
  | error e =>
      rw [Prog.tryCatch_of_error hx, Prog.tryCatch_of_error hy]
      by_cases he : e.isPoco = true
      · rw [if_pos he, if_pos (show (Interruption.thrown e).isPoco = true from he)]
        exact act_same c s'
      · rw [if_neg he, if_neg (show ¬ (Interruption.thrown e).isPoco = true from he)]
        exact ⟨rfl, rfl⟩

/-- Only the bypass handler calls the system. -/
theorem callbackBody_other {kind : ServiceKind} (h : kind ≠ .byPass) (o : Outcomes)
    (c : Callback) : callbackBody o kind c = act (Session.callbackBody o kind c) := by
  cases kind with
  | byPass => exact absurd rfl h
  | plain => rfl
  | custom => rfl

/-- A data callback of the bypass handler. -/
theorem byPass_spec {s : Process} (h : s.world.Alive) (o : Outcomes) (d : Side) {bs : List Byte}
    (hne : bs ≠ []) {trace : List ServiceEvent}
    (hservice : s.world.session.m_service = some ⟨.byPass, trace⟩) :
    After s.world (fun w' r s => ∃ q, SendsOk w'.session d bs.length q ∧
        Same (Session.callService { o with send := q } (.onReadable d bs) w') r s)
      (callbackBody o .byPass (.onReadable d bs)
        { s with world := s.world.called (.onReadable d bs) }).1
      (callbackBody o .byPass (.onReadable d bs)
        { s with world := s.world.called (.onReadable d bs) }).2 := by
  have hbody : callbackBody o .byPass (.onReadable d bs)
      = (sendBytes d.other bs >>= fun _ => pure ()) := by cases d <;> rfl
  have hsend := sendBytes_spec (w := s.world.called (.onReadable d bs)) h d.other hne o
    { s with world := s.world.called (.onReadable d bs) } rfl
  rw [hbody]
  rcases hsend with hwaits | ⟨w₁, hw₁, q, hok, hprompt, hsame⟩
  · left
    rw [Prog.bind_apply]
    rcases hrun : sendBytes d.other bs { s with world := s.world.called (.onReadable d bs) }
      with ⟨r, s'⟩
    rw [hrun] at hwaits
    rw [show r = .error .waiting from hwaits]
  · -- the peers may as well have acted before the callback was entered
    obtain ⟨w₀, hw₀, rfl⟩ := (moves_called _).meanwhile hw₁
    have hservice' : w₀.session.m_service = some ⟨.byPass, trace⟩ :=
      (Meanwhile.steady hw₀).service.trans hservice
    have hbody' : Session.callbackBody { o with send := q } .byPass (.onReadable d bs)
        = (Session.sendBytes d.other { o with send := q } bs >>= fun _ => pure ()) := by
      cases d <;> rfl
    refine .inr ⟨w₀, hw₀, q, fun _ => ⟨hok, hprompt⟩, ?_⟩
    rw [Session.callService, self_bind (Meanwhile.alive hw₀ h), hservice']
    dsimp only
    rw [assign_bind (Meanwhile.alive hw₀ h), hbody']
    exact bind_same hsame fun _ _ => ⟨rfl, rfl⟩

/-- A data callback of the service. -/
theorem callService_spec {w : World} (h : w.Alive) (o : Outcomes) (d : Side) {bs : List Byte}
    (hne : bs ≠ []) :
    Ensures (fun s => s.world = w) (callService o (.onReadable d bs))
      (After w fun w' r s => ∃ q, SendsOk w'.session d bs.length q ∧
        Same (Session.callService { o with send := q } (.onReadable d bs) w') r s) := by
  rintro s rfl
  rw [callService, act_self_bind h]
  cases hservice : s.world.session.m_service with
  | none =>
      refine .inr ⟨s.world, .refl, o.send, fun hkind => ?_, ?_⟩
      · rw [hservice] at hkind
        cases hkind
      · rw [Session.callService, self_bind h, hservice]
        exact ⟨rfl, rfl⟩
  | some v =>
      obtain ⟨kind, trace⟩ := v
      dsimp only
      rw [act_bind_of_ok (assign_run h _)]
      by_cases hkind : kind = .byPass
      · subst hkind
        exact byPass_spec h o d hne hservice
      · refine .inr ⟨s.world, .refl, o.send, fun heq => ?_, ?_⟩
        · rw [hservice] at heq
          exact absurd (Option.some.inj heq) hkind
        · rw [callbackBody_other hkind, Session.callService, self_bind h, hservice]
          dsimp only
          rw [assign_bind h]
          exact act_same _ _

/-- The buffer has what `receiveBytes` has returned. -/
theorem bufferContent_received (w : World) (d : Side) (bs : List Byte) :
    bufferContent ((w.received d bs).session.buffer d) bs.length = bs := by
  cases d <;>
    simp only [bufferContent, World.received, ProxySession.setBuffer, ProxySession.buffer,
      Option.getD_some, Int.toNat_natCast, List.take_length]

/-- The `try` block once the back connection is up, when there is something to read. -/
theorem readBlock_bytes {w : World} (h : w.Alive) {d : Side} {o : Outcomes} {first : Byte}
    {rest : List Byte} (hr : o.receive = .bytes first rest) :
    readBlock d o w
      = Session.callService o (.onReadable d (first :: rest)) (w.received d (first :: rest)) := by
  have hrun := receiveBytes_run h d o
  rw [hr] at hrun
  have hpos : ¬ ((first :: rest).length : ℤ) ≤ 0 := by simp
  have h' : (w.received d (first :: rest)).Alive := h
  rw [readBlock, Prog.bind_of_ok hrun, if_neg hpos, self_bind h', bufferContent_received]

/-- The same block down to the calls of the system. -/
def readCalls (d : Side) (o : Outcomes) : CallAct Unit := do
  let n ← receiveBytes d m_buffer_len
  if n ≤ 0 then
    act (close o)
  else do
    let s ← act self
    callService o (.onReadable d (bufferContent (s.buffer d) n))

/-- What the block comes to. -/
def ReadOut (d : Side) (o : Outcomes) (w : World) (r : Except Interruption Unit)
    (s : Process) : Prop :=
  ∃ q q', CallsOk w.session d { o with receive := q, send := q' } ∧
    Same (readBlock d { o with receive := q, send := q' } w) r s

theorem readCalls_spec {w : World} (h : w.Alive) (d : Side) (o : Outcomes)
    (hstream : (w.session.socket d).received <+: (w.session.socket d).arrived) :
    Ensures (fun s => s.world = w) (readCalls d o) (After w (ReadOut d o)) := by
  intro s hs
  have hreceive := receiveBytes_spec h d m_buffer_len o hstream s hs
  rw [readCalls]
  rcases hrun : receiveBytes d m_buffer_len s with ⟨r, s'⟩
  rw [hrun] at hreceive
  rcases hreceive with rfl | ⟨w', hw', q, hq, hsame⟩
  · rw [Prog.bind_of_error hrun]
    exact .inl rfl
  have ha := hw'.alive h
  rw [receiveBytes_run ha] at hsame
  cases q with
  | bytes first rest =>
      obtain ⟨rfl, hworld⟩ : r = .ok ((first :: rest).length : ℤ) ∧
        s'.world = w'.received d (first :: rest) := hsame
      have hpos : ¬ ((first :: rest).length : ℤ) ≤ 0 := by simp
      have ha' : s'.world.Alive := hworld ▸ ha
      rw [Prog.bind_of_ok hrun, if_neg hpos, act_self_bind ha', hworld, bufferContent_received]
      have hcall := callService_spec (w := w'.received d (first :: rest)) ha
        { o with receive := .bytes first rest } d (List.cons_ne_nil first rest) s' hworld
      rcases hcall with hwaits | ⟨w₁, hw₁, q', hq', hsame'⟩
      · exact .inl hwaits
      -- the peers may as well have acted before the bytes were received
      obtain ⟨w₀, hw₀, rfl⟩ := (moves_received d (first :: rest)).meanwhile hw₁
      refine .inr ⟨w₀, hw'.trans hw₀, .bytes first rest, q',
        ⟨hq.steady (Meanwhile.steady hw₀), ?_⟩, ?_⟩
      · rintro first' rest' heq
        cases heq
        cases d <;> exact hq'
      · rw [readBlock_bytes (Meanwhile.alive hw₀ ha) rfl]
        exact hsame'
  | endOfStream =>
      obtain ⟨rfl, rfl⟩ : r = .ok 0 ∧ s'.world = w' := hsame
      rw [Prog.bind_of_ok hrun, if_pos (by simp)]
      refine .inr ⟨s'.world, hw', .endOfStream, o.send, ⟨trivial, fun _ _ heq => ?_⟩, ?_⟩
      · cases heq
      · exact act_same _ _
  | wouldBlock =>
      obtain ⟨rfl, rfl⟩ : r = .ok (-1) ∧ s'.world = w' := hsame
      rw [Prog.bind_of_ok hrun, if_pos (by simp)]
      refine .inr ⟨s'.world, hw', .wouldBlock, o.send, ⟨hq, fun _ _ heq => ?_⟩, ?_⟩
      · cases heq
      · exact act_same _ _
  | throws e =>
      obtain ⟨rfl, rfl⟩ : r = .error (.thrown e) ∧ s'.world = w' := hsame
      rw [Prog.bind_of_error hrun]
      refine .inr ⟨s'.world, hw', .throws e, o.send, ⟨hq, fun _ _ heq => ?_⟩, ?_⟩
      · cases heq
      · exact ⟨rfl, rfl⟩

/-- The `catch` block receives and sends nothing. -/
theorem caught_eq (o : Outcomes) (q : ReceiveOutcome) (q' : SendOutcome) :
    caught { o with receive := q, send := q' } = caught o := by
  have hbody : ∀ kind c, c = .onFrontDisconnect ∨ c = .onBackDisconnect →
      Session.callbackBody { o with receive := q, send := q' } kind c
        = Session.callbackBody o kind c := by
    rintro kind c (rfl | rfl) <;> cases kind <;> rfl
  have hcall : ∀ c, c = .onFrontDisconnect ∨ c = .onBackDisconnect →
      Session.callService { o with receive := q, send := q' } c = Session.callService o c := by
    intro c hc
    unfold Session.callService
    simp only [hbody _ c hc]
  unfold caught close tearDown
  rw [hcall _ (.inl rfl), hcall _ (.inr rfl)]
  rfl

/-- What a handler comes to. -/
def HandlerOut (method : Method) (o : Outcomes) (w : World) (r : Except Interruption Unit)
    (s : Process) : Prop :=
  ∃ q q', (∀ d, readSide method = some d → w.session.m_back_connected = true →
      CallsOk w.session d { o with receive := q, send := q' }) ∧
    Same (Session.handler method { o with receive := q, send := q' } w) r s

theorem onReadable_spec {w : World} (h : w.Alive) (d : Side) (o : Outcomes)
    (hstream : (w.session.socket d).received <+: (w.session.socket d).arrived) :
    Ensures (fun s => s.world = w) (onReadable d o)
      (After w fun w' r s => ∃ q q', (w'.session.m_back_connected = true →
          CallsOk w'.session d { o with receive := q, send := q' }) ∧
        Same (Session.onReadable d { o with receive := q, send := q' } w') r s) := by
  rintro s rfl
  by_cases hback : s.world.session.m_back_connected = false
  · -- nothing is called, and nothing done
    refine .inr ⟨s.world, .refl, o.receive, o.send, fun hconnected => ?_, ?_⟩
    · rw [hback] at hconnected
      cases hconnected
    · apply tryCatch_same
      rw [self_bind h, act_self_bind h, if_pos hback, if_pos hback]
      exact ⟨rfl, rfl⟩
  have hcalls := readCalls_spec h d o hstream s rfl
  have hblock : (do
      let session ← act self
      if session.m_back_connected = false then pure () else readCalls d o) s
        = readCalls d o s := by
    rw [act_self_bind h, if_neg hback]
  rcases hcalls with hwaits | ⟨w', hw', q, q', hok, hsame⟩
  · left
    rcases hrun : readCalls d o s with ⟨r, s'⟩
    rw [hrun] at hwaits hblock
    obtain rfl : r = .error .waiting := hwaits
    exact congrArg Prod.fst (Prog.tryCatch_of_error hblock)
  · refine .inr ⟨w', hw', q, q', fun _ => hok, ?_⟩
    rw [Session.onReadable, onReadable, caught_eq]
    apply tryCatch_same
    have hback' : ¬ w'.session.m_back_connected = false := hw'.steady.connected ▸ hback
    rw [self_bind (hw'.alive h), if_neg hback', act_self_bind h, if_neg hback]
    exact hsame

/-- **The handlers.** A handler waits in a call of the system, or comes to what the session's
handler comes to for some outcomes that the sockets can give. -/
theorem handler_spec {w : World} (h : w.Alive) (method : Method) (o : Outcomes)
    (hstream : ∀ d, (w.session.socket d).received <+: (w.session.socket d).arrived) :
    Ensures (fun s => s.world = w) (handler method o) (After w (HandlerOut method o)) := by
  intro s hs
  have hreads : ∀ d, readSide method = some d → handler method o = onReadable d o →
      Session.handler method = Session.onReadable d →
      After w (HandlerOut method o) (handler method o s).1 (handler method o s).2 := by
    intro d hd hcalls hsession
    rw [hcalls]
    rcases onReadable_spec h d o (hstream d) s hs with hwaits | ⟨w', hw', q, q', hok, hsame⟩
    · exact .inl hwaits
    · refine .inr ⟨w', hw', q, q', fun d' hd' hconnected => ?_, ?_⟩
      · obtain rfl : d = d' := Option.some.inj (hd.symm.trans hd')
        exact hok hconnected
      · rw [hsession]
        exact hsame
  have hother : readSide method = none → handler method o = act (Session.handler method o) →
      After w (HandlerOut method o) (handler method o s).1 (handler method o s).2 := by
    intro hnone hcalls
    rw [hcalls]
    refine .inr ⟨w, .refl, o.receive, o.send, fun d hd => ?_, hs ▸ act_same _ s⟩
    rw [hnone] at hd
    cases hd
  cases method with
  | onFrontReadable => exact hreads .front rfl rfl rfl
  | onBackReadable => exact hreads .back rfl rfl rfl
  | onAccept => exact hother rfl rfl
  | onFrontShutdown => exact hother rfl rfl
  | onFrontError => exact hother rfl rfl
  | onBackWritable => exact hother rfl rfl
  | onBackShutdown => exact hother rfl rfl
  | onBackError => exact hother rfl rfl

end PocoProxy.SocketCalls
