/-
What every run of a session keeps.

The handlers make four changes to a session: they set `m_closed`, they tear the
session down, they enter the connected state, and they hand on bytes. A property
that each of the four keeps is kept by every handler (`handle_stable`), and with
the environment's own steps by every run. `Sound` collects the facts that the
results about single sessions rest on.
-/
import PocoProxy.SessionRun

set_option autoImplicit false

namespace PocoProxy.Session

open PocoProxy.Program PocoProxy.Socket PocoProxy.Reactor PocoProxy.Runs

/-! ## The rule -/

/-- `P` is kept by each change that a handler makes to a session that exists. -/
structure Stable (P : World → Prop) : Prop where
  marked : ∀ w, P w → w.Alive → w.session.m_closed = false → P w.marked
  torn : ∀ w, P w → w.Alive → w.session.m_closed = false → P w.marked.torn
  connected : ∀ w, P w → w.Alive → w.session.m_back_connected = false → P w.connected
  relayed : ∀ w d o first rest, P w → w.Alive → w.session.m_back_connected = true →
    o.receive = .bytes first rest → DataOk w.session d o →
      P ((w.received d (first :: rest)).relayed o d (first :: rest))

namespace Stable

variable {P : World → Prop} (hP : Stable P) {w : World}
include hP

theorem closing (h : P w) (ha : w.Alive) (o : Outcomes) : P (w.closing o) := by
  unfold World.closing
  cases hc : w.session.m_closed with
  | true => exact h
  | false =>
      rw [if_neg (by simp)]
      split
      · exact hP.marked w h ha hc
      · exact hP.torn w h ha hc

theorem readMoved (h : P w) (ha : w.Alive) (d : Side) (o : Outcomes)
    (hdata : w.session.m_back_connected = true → DataOk w.session d o) : P (w.readMoved d o) := by
  unfold World.readMoved
  split
  · rename_i hb
    cases hr : o.receive with
    | bytes first rest => exact hP.relayed w d o first rest h ha hb hr (hdata hb)
    | endOfStream => exact h
    | wouldBlock => exact h
    | throws e => exact h
  · exact h

theorem moved (h : P w) (ha : w.Alive) (m : Method) (o : Outcomes)
    (hdata : ∀ d, readSide m = some d → w.session.m_back_connected = true →
      DataOk w.session d o) : P (w.moved m o) := by
  cases m with
  | onFrontReadable => exact hP.readMoved h ha .front o (hdata .front rfl)
  | onBackReadable => exact hP.readMoved h ha .back o (hdata .back rfl)
  | onBackWritable =>
      change P w.connectMoved
      unfold World.connectMoved
      by_cases hb : w.session.m_back_connected = true
      · rw [if_pos hb]
        exact h
      · rw [if_neg hb]
        exact hP.connected w h ha (by simpa using hb)
  | _ => exact h

/-- **The rule**: what the four changes keep, the handlers keep. -/
theorem handle (h : P w) (ha : w.Alive) (m : Method) (o : Outcomes)
    (hdata : ∀ d, readSide m = some d → w.session.m_back_connected = true →
      DataOk w.session d o) : P (w.handle m o) := by
  have hmoved := hP.moved h ha m o hdata
  rw [handle_eq]
  split
  · exact hP.closing hmoved (moved_alive ha m o) o
  · exact hmoved

end Stable

/-- `P` is also kept by what happens between the handlers. -/
structure Invariant (P : World → Prop) : Prop extends Stable P where
  arrive : ∀ w d bs, P w → P (step w (.arrive d bs))
  connectDone : ∀ w status, P w → w.session.m_back.connect = .pending →
    (status = .succeeded ∨ status = .failed) → P (step w (.connectDone status))
  elsewhere : ∀ w r, P w → P (step w (.elsewhere r))

/-- An invariant is kept by every step. -/
theorem Invariant.step {P : World → Prop} (hP : Invariant P) {w w' : World} {e : Event}
    (h : P w) (hstep : Step w e w') : P w' := by
  obtain ⟨hadm, rfl⟩ := hstep
  cases e with
  | arrive d bs => exact hP.arrive w d bs h
  | connectDone status => exact hP.connectDone w status h hadm.1 hadm.2
  | elsewhere r => exact hP.elsewhere w r h
  | notify m o =>
      obtain ⟨ha, -, hdata⟩ := hadm
      rw [step_notify ha]
      exact hP.toStable.handle h ha m o hdata

/-! ## The base invariant -/

/-- What holds of every session that `createServiceHandler` has registered:
nothing is used after its deletion, there is one deletion and only a closed
session is deleted, the sockets keep their modes, and they are open as long as
the session exists. -/
structure Sound (w : World) : Prop where
  untouched : w.touched = false
  once : w.deletions ≤ 1
  closed : ¬ w.Alive → w.session.m_closed = true
  front_blocking : w.session.m_front.blocking = true
  back_nonblocking : w.session.m_back.blocking = false
  front_connect : w.session.m_front.connect = .succeeded
  front_open : w.Alive → w.session.m_front.sockfd ≠ POCO_INVALID_SOCKET
  back_open : w.Alive → w.session.m_back.sockfd ≠ POCO_INVALID_SOCKET
  received : ∀ d, (w.session.socket d).received <+: (w.session.socket d).arrived

theorem started_sound {w : World} (h : Started w) : Sound w := by
  obtain ⟨backFd, status, service, this, front, backId, r, hf, hb, -, rfl⟩ := h
  constructor
  case received =>
    intro d
    cases d
    · exact hf.received ▸ List.nil_prefix
    · exact List.nil_prefix
  all_goals first | exact hf.blocking | exact hf.connected | exact fun _ => hf.open_ | skip
  · rfl
  · exact Nat.zero_le _
  · exact fun h => absurd rfl h
  · rfl
  · exact fun _ => hb

theorem sound_invariant : Invariant Sound where
  marked w h ha hc := { h with closed := fun _ => rfl }
  torn w h ha hc :=
    { untouched := h.untouched
      once := by
        have hd : w.deletions = 0 := ha
        have htorn : w.marked.torn.deletions = w.deletions + 1 := rfl
        omega
      closed := fun _ => rfl
      front_blocking := h.front_blocking
      back_nonblocking := h.back_nonblocking
      front_connect := h.front_connect
      front_open := fun hgone => absurd hgone (Nat.succ_ne_zero _)
      back_open := fun hgone => absurd hgone (Nat.succ_ne_zero _)
      received := Side.both (h.received .front) (h.received .back) }
  connected w h ha hb := { h with received := Side.both (h.received .front) (h.received .back) }
  relayed w d o first rest h ha hb hr hdata := by
    have hread : (w.session.socket d).received ++ first :: rest
        <+: (w.session.socket d).arrived := by
      simp only [DataOk, hr] at hdata
      exact hdata.2.1
    -- one socket has received the bytes, the other one has accepted some
    cases d
    · exact { h with received := Side.both hread (h.received .back) }
    · exact { h with received := Side.both (h.received .front) hread }
  arrive w d bs h := by
    have hgrown : (w.session.socket d).received <+: (w.session.socket d).arrived ++ bs :=
      (h.received d).trans (List.prefix_append _ _)
    cases d
    · exact { h with received := Side.both hgrown (h.received .back) }
    · exact { h with received := Side.both (h.received .front) hgrown }
  connectDone w status h hp hs :=
    { h with received := Side.both (h.received .front) (h.received .back) }
  elsewhere w r h := { h with }

/-! ## The class of the service -/

/-- The class of the service never changes. -/
theorem hasService_invariant (kind : ServiceKind) : Invariant (HasService kind) := by
  -- each change appends to the trace, if it touches the service at all
  have happend : ∀ {s : ProxySession} {es : List ServiceEvent},
      (∃ trace, s.m_service = some ⟨kind, trace⟩) →
        ∃ trace, (s.m_service.map fun v => { v with trace := v.trace ++ es })
          = some ⟨kind, trace⟩ := by
    rintro s es ⟨trace, hs⟩
    exact ⟨trace ++ es, by rw [hs]; rfl⟩
  exact
    { marked := fun w h _ _ => h
      torn := fun w h _ _ => happend h
      connected := fun w h _ _ => happend h
      relayed := fun w d o first rest h _ _ _ _ => by cases d <;> exact happend h
      arrive := fun w d bs h => by cases d <;> exact h
      connectDone := fun w status h _ _ => h
      elsewhere := fun w r h => h }

/-- What holds along every run that starts with a session whose service is of
this class. -/
theorem sound_and_hasService {kind : ServiceKind} {w w' : World} {e : Event}
    (h : Sound w ∧ HasService kind w) (hstep : Step w e w') : Sound w' ∧ HasService kind w' :=
  ⟨sound_invariant.step h.1 hstep, (hasService_invariant kind).step h.2 hstep⟩

end PocoProxy.Session
