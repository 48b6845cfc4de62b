/-
Scripts under which Poco's calls come to given outcomes.

`CallOutcomes` shows that a handler comes to outcomes that the sockets can give. None of these is
idle: as long as the sockets are open, the system can return what makes the handler come to any
one of them (`handler_scripted`). One return is enough for each call, except when a blocking
socket takes some bytes and then fails.
-/
import PocoProxy.CallOutcomes

set_option autoImplicit false

namespace PocoProxy.SocketCalls

open PocoProxy.Program PocoProxy.Socket PocoProxy.Reactor PocoProxy.Session

/-- Run with this script, the program comes to what the session's program comes to, and what is
behind the script is left. -/
def Follows {α : Type} (y : CallAct α) (script : List Happening) (w : World)
    (x : Except Exception α × World) : Prop :=
  ∀ rest err, ∃ err', y ⟨w, script ++ rest, err⟩ = (x.1.mapError .thrown, ⟨x.2, rest, err'⟩)

/-- A part that makes no call needs no script. -/
theorem follows_act {α : Type} (x : Act α) (w : World) : Follows (act x) [] w (x w) :=
  fun _ err => ⟨err, rfl⟩

/-- One statement after the other. When the first throws, its script is all. -/
theorem follows_bind {α β : Type} {x : Act α} {y : CallAct α} {f : α → Act β}
    {g : α → CallAct β} {w : World} (hy : ∃ script, Follows y script w (x w))
    (hg : ∀ a w', x w = (.ok a, w') → ∃ script, Follows (g a) script w' (f a w')) :
    ∃ script, Follows (y >>= g) script w ((x >>= f) w) := by
  obtain ⟨script, hscript⟩ := hy
  rcases hx : x w with ⟨r, w'⟩
  rw [hx] at hscript
  cases r with
  | ok a =>
      obtain ⟨script', hscript'⟩ := hg a w' hx
      refine ⟨script ++ script', fun rest err => ?_⟩
      obtain ⟨err₁, hfirst⟩ := hscript (script' ++ rest) err
      obtain ⟨err₂, hthen⟩ := hscript' rest err₁
      refine ⟨err₂, ?_⟩
      rw [List.append_assoc, Prog.bind_of_ok hfirst, Prog.bind_of_ok hx]
      exact hthen
  | error e =>
      refine ⟨script, fun rest err => ?_⟩
      obtain ⟨err', hfirst⟩ := hscript rest err
      refine ⟨err', ?_⟩
      rw [Prog.bind_of_error hfirst, Prog.bind_of_error hx]
      rfl

/-- A `try` block and its `catch`. -/
theorem follows_tryCatch {x c : Act Unit} {y : CallAct Unit} {script : List Happening} {w : World}
    (h : Follows y script w (x w)) :
    Follows (Prog.tryCatch Interruption.isPoco y fun _ => act c) script w
      (Prog.tryCatch Exception.isPoco x (fun _ => c) w) := by
  intro rest err
  obtain ⟨err', hrun⟩ := h rest err
  refine ⟨err', ?_⟩
  rcases hx : x w with ⟨r, w'⟩
  rw [hx] at hrun
  cases r with
  | ok a =>
      rw [Prog.tryCatch_of_ok hx]
      exact Prog.tryCatch_of_ok hrun
  | error e =>
      rw [Prog.tryCatch_of_error hx]
      refine (Prog.tryCatch_of_error hrun).trans ?_
      by_cases he : e.isPoco = true
      · rw [if_pos he, if_pos (show (Interruption.thrown e).isPoco = true from he)]
        rfl
      · rw [if_neg he, if_neg (show ¬ (Interruption.thrown e).isPoco = true from he)]
        rfl

section Calls

variable {w : World} (h : w.Alive) {d : Side}
include h

/-- A call that returns at once, and is not to be repeated. -/
theorem retrying_returns {least : ℕ} {most : SocketImpl → ℕ} {effect : ℤ → World → World}
    (hopen : (w.session.socket d).sockfd ≠ POCO_INVALID_SOCKET) {rc : ℤ} {code : ErrorCode}
    (hdoc : Documented (w.session.socket d) least (most (w.session.socket d)) rc code)
    (honce : 0 ≤ rc ∨ code ≠ POCO_EINTR) (rest : List Happening) (err : ErrorCode) :
    retrying d (systemCall d least most effect) ⟨w, .returns rc code :: rest, err⟩
      = (.ok rc, ⟨effect rc w, rest, code⟩) := by
  have hcall : systemCall d least most effect ⟨w, .returns rc code :: rest, err⟩
      = (.ok rc, ⟨effect rc w, rest, code⟩) := by
    rw [systemCall, await]
    exact if_pos hdoc
  have hcode : lastError ⟨effect rc w, rest, code⟩ = (.ok code, ⟨effect rc w, rest, code⟩) := rfl
  have hleave : ¬ ((w.session.socket d).blocking = true ∧ rc < 0 ∧ code = POCO_EINTR) := by
    rintro ⟨-, hneg, hintr⟩
    rcases honce with hpos | hne
    · omega
    · exact hne hintr
  apply loop_leave
  rw [attempt, act_self_bind h, if_neg hopen, Prog.bind_of_ok hcall, Prog.bind_of_ok hcode,
    if_neg hleave]
  rfl

/-! ## `receiveBytes` -/

theorem receiveBytes_fails {length : ℕ}
    (hopen : (w.session.socket d).sockfd ≠ POCO_INVALID_SOCKET) {code : ErrorCode}
    (hcode : code ≠ POCO_ENOERR) (hintr : code ≠ POCO_EINTR)
    (hblock : code = POCO_EWOULDBLOCK → (w.session.socket d).blocking = false)
    (rest : List Happening) (err : ErrorCode) :
    receiveBytes d length ⟨w, .returns (-1) code :: rest, err⟩
      = receiveFailed d (-1) ⟨w, rest, code⟩ := by
  rw [receiveBytes, recv, Prog.bind_of_ok (retrying_returns h hopen (.inr ⟨rfl, hcode, hblock⟩)
    (.inr hintr) rest err), if_pos (by omega)]
  rfl

theorem receiveBytes_returns {length n : ℕ}
    (hopen : (w.session.socket d).sockfd ≠ POCO_INVALID_SOCKET) (hlength : n ≤ length)
    (hpending : n ≤ (pending (w.session.socket d)).length) (rest : List Happening)
    (err : ErrorCode) :
    receiveBytes d length ⟨w, .returns n POCO_ENOERR :: rest, err⟩
      = (.ok (n : ℤ), ⟨recvEffect d n w, rest, POCO_ENOERR⟩) := by
  have hmost : n ≤ min length (pending (w.session.socket d)).length := by omega
  rw [receiveBytes, recv, Prog.bind_of_ok (retrying_returns h hopen
    (.inl ⟨by omega, Int.ofNat_le.mpr hmost⟩) (.inl (by omega)) rest err), if_neg (by omega)]
  rfl

theorem receiveBytes_scripted (o : Outcomes) {length : ℕ} {q : ReceiveOutcome}
    (hopen : (w.session.socket d).sockfd ≠ POCO_INVALID_SOCKET)
    (hq : ReceiveOk (w.session.socket d) length q) :
    ∃ script, Follows (receiveBytes d length) script w
      (Session.receiveBytes d { o with receive := q } w) := by
  cases q with
  | bytes first tail =>
      obtain ⟨hlength, more, hmore⟩ := hq
      have hpending : pending (w.session.socket d) = first :: tail ++ more := by
        rw [pending, ← hmore, List.append_assoc, List.drop_left]
      have hle : (first :: tail).length ≤ (pending (w.session.socket d)).length := by
        rw [hpending, List.length_append]
        omega
      refine ⟨[.returns (first :: tail).length POCO_ENOERR], fun rest err => ⟨POCO_ENOERR, ?_⟩⟩
      have heffect : recvEffect d ((first :: tail).length : ℤ) w
          = w.received d (first :: tail) := by
        rw [recvEffect, if_pos (by simp), Int.toNat_natCast, hpending, List.take_left]
      rw [List.cons_append, List.nil_append, receiveBytes_returns h hopen hlength hle, heffect,
        receiveBytes_run h]
      rfl
  | endOfStream =>
      refine ⟨[.returns 0 POCO_ENOERR], fun rest err => ⟨POCO_ENOERR, ?_⟩⟩
      exact receiveBytes_returns h hopen (Nat.zero_le _) (Nat.zero_le _) rest err
  | wouldBlock =>
      refine ⟨[.returns (-1) POCO_EWOULDBLOCK], fun rest err => ⟨POCO_EWOULDBLOCK, ?_⟩⟩
      have hcode : lastError ⟨w, rest, POCO_EWOULDBLOCK⟩
          = (.ok POCO_EWOULDBLOCK, ⟨w, rest, POCO_EWOULDBLOCK⟩) := rfl
      rw [List.cons_append, List.nil_append,
        receiveBytes_fails h hopen (by decide) (by decide) (fun _ => hq), receiveFailed,
        Prog.bind_of_ok hcode, act_self_bind h, if_pos ⟨rfl, hq⟩]
      rfl
  | throws e =>
      obtain rfl : e = .poco := hq
      refine ⟨[.returns (-1) POCO_ECONNRESET], fun rest err => ⟨POCO_ECONNRESET, ?_⟩⟩
      have hcode : lastError ⟨w, rest, POCO_ECONNRESET⟩
          = (.ok POCO_ECONNRESET, ⟨w, rest, POCO_ECONNRESET⟩) := rfl
      rw [List.cons_append, List.nil_append, receiveBytes_fails h hopen (by decide) (by decide)
        (fun heq => absurd heq (by decide)), receiveFailed, Prog.bind_of_ok hcode,
        act_self_bind h, if_neg (fun hagain => absurd hagain.1 (by decide)), if_neg (by decide)]
      rfl

/-! ## `sendBytes` -/

theorem socketImpl_sendBytes_fails (p : List Byte)
    (hopen : (w.session.socket d).sockfd ≠ POCO_INVALID_SOCKET) {e : Exception}
    (he : e = .poco ∨ e = .wouldBlock ∧ (w.session.socket d).blocking = false) :
    ∃ code, ∀ rest err, SocketImpl.sendBytes d p ⟨w, .returns (-1) code :: rest, err⟩
      = (.error (.thrown e), ⟨w, rest, code⟩) := by
  have hcode : ∃ code, code ≠ POCO_ENOERR ∧ code ≠ POCO_EINTR ∧
      (code = POCO_EWOULDBLOCK → (w.session.socket d).blocking = false) ∧
      ∀ s : Process, error code s = (.error (.thrown e), s) := by
    rcases he with rfl | ⟨rfl, hblocking⟩
    · exact ⟨POCO_ECONNRESET, by decide, by decide, fun heq => absurd heq (by decide), fun _ => rfl⟩
    · exact ⟨POCO_EWOULDBLOCK, by decide, by decide, fun _ => hblocking, fun _ => rfl⟩
  obtain ⟨code, hne, hintr, hblock, herror⟩ := hcode
  refine ⟨code, fun rest err => ?_⟩
  have hlast : lastError ⟨sendEffect d p (-1) w, rest, code⟩
      = (.ok code, ⟨sendEffect d p (-1) w, rest, code⟩) := rfl
  rw [SocketImpl.sendBytes, send, Prog.bind_of_ok (retrying_returns h hopen
    (.inr ⟨rfl, hne, hblock⟩) (.inr hintr) rest err), if_pos (by omega), Prog.bind_of_ok hlast,
    Prog.bind_of_error (herror _)]
  rfl

theorem socketImpl_sendBytes_returns {p : List Byte}
    (hopen : (w.session.socket d).sockfd ≠ POCO_INVALID_SOCKET) {n : ℕ} (hpos : 1 ≤ n)
    (hle : n ≤ p.length) (rest : List Happening) (err : ErrorCode) :
    SocketImpl.sendBytes d p ⟨w, .returns n POCO_ENOERR :: rest, err⟩
      = (.ok (n : ℤ), ⟨w.accepted d (p.take n), rest, POCO_ENOERR⟩) := by
  rw [SocketImpl.sendBytes, send, Prog.bind_of_ok (retrying_returns h hopen
    (.inl ⟨by omega, Int.ofNat_le.mpr hle⟩) (.inl (by omega)) rest err), if_neg (by omega),
    sendEffect, if_pos (by omega), Int.toNat_natCast]
  rfl

/-- A round in which the socket takes some bytes. -/
theorem sendRound_takes (blocking : Bool) {x : Sending}
    (hopen : (w.session.socket d).sockfd ≠ POCO_INVALID_SOCKET) {n : ℕ} (hpos : 1 ≤ n)
    (hle : n ≤ x.p.length) (rest : List Happening) (err : ErrorCode) :
    sendRound d blocking x ⟨w, .returns n POCO_ENOERR :: rest, err⟩
      = (.ok (if blocking = true ∧ 0 < (x.p.drop n).length then .inl ⟨x.p.drop n, x.sent + n⟩
          else .inr (x.sent + n)), ⟨w.accepted d (x.p.take n), rest, POCO_ENOERR⟩) := by
  have hcall := socketImpl_sendBytes_returns h hopen hpos hle rest err
  rw [sendRound, if_pos (show 0 < x.p.length by omega), Prog.bind_of_ok hcall]
  dsimp only
  rw [Int.toNat_natCast]
  by_cases hmore : blocking = true ∧ 0 < (x.p.drop n).length
  · rw [if_pos hmore, if_pos hmore]
    rfl
  · rw [if_neg hmore, if_neg hmore]
    rfl

omit h in
/-- A round in which the call throws. -/
theorem sendRound_throws (blocking : Bool) {x : Sending} (hx : 0 < x.p.length) {s s' : Process}
    {e : Interruption} (hcall : SocketImpl.sendBytes d x.p s = (.error e, s')) :
    sendRound d blocking x s = (.error e, s') := by
  rw [sendRound, if_pos hx, Prog.bind_of_error hcall]

theorem sendBytes_scripted (o : Outcomes) {buffer : List Byte} {q : SendOutcome}
    (hopen : (w.session.socket d).sockfd ≠ POCO_INVALID_SOCKET)
    (hq : SendOk (w.session.socket d) buffer.length q) (hprompt : Prompt (w.session.socket d) q) :
    ∃ script, Follows (sendBytes d buffer) script w
      (Session.sendBytes d { o with send := q } buffer w) := by
  cases q with
  | accepts n =>
      obtain ⟨hpos, hle, hall⟩ := hq
      refine ⟨[.returns n POCO_ENOERR], fun rest err => ⟨POCO_ENOERR, ?_⟩⟩
      have hround := sendRound_takes h (w.session.socket d).blocking (x := ⟨buffer, 0⟩) hopen
        hpos hle rest err
      have hleave : ¬ ((w.session.socket d).blocking = true ∧ 0 < (buffer.drop n).length) := by
        rintro ⟨hblocking, hmore⟩
        rw [hall hblocking, List.drop_length] at hmore
        exact Nat.lt_irrefl 0 hmore
      rw [if_neg hleave, Int.zero_add] at hround
      rw [List.cons_append, List.nil_append, sendBytes, act_self_bind h, sendBytes_run h]
      exact loop_leave hround
  | throws k e =>
      obtain ⟨hlt, he⟩ := hq
      by_cases hk : k = 0
      · subst hk
        obtain ⟨code, hfails⟩ := socketImpl_sendBytes_fails h buffer hopen he
        refine ⟨[.returns (-1) code], fun rest err => ⟨code, ?_⟩⟩
        rw [List.cons_append, List.nil_append, sendBytes, act_self_bind h, sendBytes_run h]
        dsimp only
        rw [List.take_zero, World.accepted_nil]
        exact loop_error (sendRound_throws _ (show 0 < buffer.length by omega) (hfails rest err))
      · -- a blocking socket has taken `k` bytes, and the next call fails
        have hblocking : (w.session.socket d).blocking = true := by
          cases hb : (w.session.socket d).blocking with
          | true => rfl
          | false => exact absurd (hprompt hb) hk
        have halive : (w.accepted d (buffer.take k)).Alive := h
        have hopen' : ((w.accepted d (buffer.take k)).session.socket d).sockfd
            ≠ POCO_INVALID_SOCKET := by cases d <;> exact hopen
        have he' : e = .poco ∨ e = .wouldBlock ∧
            ((w.accepted d (buffer.take k)).session.socket d).blocking = false := by
          cases d <;> exact he
        obtain ⟨code, hfails⟩ := socketImpl_sendBytes_fails halive (buffer.drop k) hopen' he'
        refine ⟨[.returns k POCO_ENOERR, .returns (-1) code], fun rest err => ⟨code, ?_⟩⟩
        have hmore : 0 < (buffer.drop k).length := by
          rw [List.length_drop]
          omega
        have hround := sendRound_takes h true (x := ⟨buffer, 0⟩) hopen (show 1 ≤ k by omega)
          hlt.le (.returns (-1) code :: rest) err
        rw [if_pos ⟨rfl, hmore⟩] at hround
        rw [List.cons_append, List.cons_append, List.nil_append, sendBytes, act_self_bind h,
          sendBytes_run h]
        dsimp only
        rw [hblocking]
        refine (loop_again hround).trans ?_
        exact loop_error (sendRound_throws true hmore (hfails rest POCO_ENOERR))

end Calls

/-! ## The handlers -/

section Handlers

variable {w : World} (h : w.Alive)
include h

/-- Members are read where they are. -/
theorem self_eq {s : ProxySession} {w' : World} (hself : self w = (.ok s, w')) :
    w.session = s ∧ w = w' := by
  rw [self_run h] at hself
  cases hself
  exact ⟨rfl, rfl⟩

theorem callService_scripted (o : Outcomes) (d : Side) (bs : List Byte)
    (hopen : (w.session.socket d.other).sockfd ≠ POCO_INVALID_SOCKET)
    (hq : SendsOk w.session d bs.length o.send) :
    ∃ script, Follows (callService o (.onReadable d bs)) script w
      (Session.callService o (.onReadable d bs) w) := by
  rw [callService, Session.callService]
  refine follows_bind ⟨[], follows_act self w⟩ fun s w' hself => ?_
  obtain ⟨rfl, rfl⟩ := self_eq h hself
  cases hservice : w.session.m_service with
  | none => exact ⟨[], follows_act (pure ()) w⟩
  | some v =>
      obtain ⟨kind, trace⟩ := v
      refine follows_bind ⟨[], follows_act _ w⟩ fun _ w' hassign => ?_
      rw [assign_run h] at hassign
      cases hassign
      by_cases hkind : kind = .byPass
      · subst hkind
        have hbody : callbackBody o .byPass (.onReadable d bs)
            = (sendBytes d.other bs >>= fun _ => pure ()) := by cases d <;> rfl
        have hbody' : Session.callbackBody o .byPass (.onReadable d bs)
            = (Session.sendBytes d.other o bs >>= fun _ => pure ()) := by cases d <;> rfl
        obtain ⟨hok, hprompt⟩ := hq (by rw [hservice]; rfl)
        rw [hbody, hbody']
        refine follows_bind ?_ fun _ w' _ => ⟨[], follows_act (pure ()) w'⟩
        exact sendBytes_scripted (w := w.called (.onReadable d bs)) h o hopen hok hprompt
      · rw [callbackBody_other hkind]
        exact ⟨[], follows_act _ _⟩

theorem readCalls_scripted (d : Side) (o : Outcomes)
    (hopen : ∀ d, (w.session.socket d).sockfd ≠ POCO_INVALID_SOCKET)
    (hok : CallsOk w.session d o) :
    ∃ script, Follows (readCalls d o) script w (readBlock d o w) := by
  rw [readCalls, readBlock]
  refine follows_bind (receiveBytes_scripted h o (hopen d) hok.1) fun n w' hrun => ?_
  by_cases hn : n ≤ 0
  · rw [if_pos hn, if_pos hn]
    exact ⟨[], follows_act _ w'⟩
  rw [if_neg hn, if_neg hn]
  rw [receiveBytes_run h] at hrun
  cases hr : o.receive with
  | bytes first tail =>
      rw [hr] at hrun
      cases hrun
      have ha : (w.received d (first :: tail)).Alive := h
      have hopen' : ((w.received d (first :: tail)).session.socket d.other).sockfd
          ≠ POCO_INVALID_SOCKET := by
        cases d
        · exact hopen .back
        · exact hopen .front
      have hsends : SendsOk (w.received d (first :: tail)).session d (first :: tail).length
          o.send := by cases d <;> exact hok.2 first tail hr
      refine follows_bind ⟨[], follows_act self _⟩ fun s w' hself => ?_
      obtain ⟨rfl, rfl⟩ := self_eq ha hself
      rw [bufferContent_received]
      exact callService_scripted ha o d (first :: tail) hopen' hsends
  | endOfStream =>
      rw [hr] at hrun
      cases hrun
      exact absurd (Int.le_refl 0) hn
  | wouldBlock =>
      rw [hr] at hrun
      cases hrun
      exact absurd (by omega) hn
  | throws e =>
      rw [hr] at hrun
      cases hrun

theorem onReadable_scripted (d : Side) (o : Outcomes)
    (hopen : ∀ d, (w.session.socket d).sockfd ≠ POCO_INVALID_SOCKET)
    (hok : w.session.m_back_connected = true → CallsOk w.session d o) :
    ∃ script, Follows (onReadable d o) script w (Session.onReadable d o w) := by
  have hblock : ∃ script, Follows (do
      let s ← act self
      if s.m_back_connected = false then pure () else readCalls d o) script w
      ((do
        let s ← self
        if s.m_back_connected = false then pure () else readBlock d o : Act Unit) w) := by
    refine follows_bind ⟨[], follows_act self w⟩ fun s w' hself => ?_
    obtain ⟨rfl, rfl⟩ := self_eq h hself
    by_cases hback : w.session.m_back_connected = false
    · rw [if_pos hback, if_pos hback]
      exact ⟨[], follows_act (pure ()) w⟩
    · rw [if_neg hback, if_neg hback]
      exact readCalls_scripted h d o hopen (hok (Bool.not_eq_false _ ▸ hback))
  obtain ⟨script, hscript⟩ := hblock
  exact ⟨script, follows_tryCatch hscript⟩

/-- **The outcomes are not idle.** A handler of a session with open sockets can come to all that
the sockets can give. -/
theorem handler_scripted (method : Method) (o : Outcomes)
    (hopen : ∀ d, (w.session.socket d).sockfd ≠ POCO_INVALID_SOCKET)
    (hok : ∀ d, readSide method = some d → w.session.m_back_connected = true →
      CallsOk w.session d o) :
    ∃ script, Follows (handler method o) script w (Session.handler method o w) := by
  cases method with
  | onFrontReadable => exact onReadable_scripted h .front o hopen (hok .front rfl)
  | onBackReadable => exact onReadable_scripted h .back o hopen (hok .back rfl)
  | onAccept => exact ⟨[], follows_act _ w⟩
  | onFrontShutdown => exact ⟨[], follows_act _ w⟩
  | onFrontError => exact ⟨[], follows_act _ w⟩
  | onBackWritable => exact ⟨[], follows_act _ w⟩
  | onBackShutdown => exact ⟨[], follows_act _ w⟩
  | onBackError => exact ⟨[], follows_act _ w⟩

end Handlers

end PocoProxy.SocketCalls
