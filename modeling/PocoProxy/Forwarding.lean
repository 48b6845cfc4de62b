/-
What the services are given, and what the peers are sent.

`Relay` says when a bypass session hands on all that it has read. Whatever the sockets do, and
whatever is thrown, the blocks that the data callbacks of a service get are together what has
been read from the socket, in order and once (`services_see_streams`); and what the bypass
handler has sent to a peer has a beginning of each block that was read from the other one
(`relay_never_invents`). So bytes can be lost on the way, but none is sent twice, out of order
or to the peer of another session.
-/
import PocoProxy.Lib.Blocks
import PocoProxy.Relay
import PocoProxy.Sessions

set_option autoImplicit false

namespace PocoProxy.Session

open PocoProxy.Program PocoProxy.Socket PocoProxy.Reactor PocoProxy.Runs PocoProxy.Blocks

/-! ## The blocks of the data callbacks -/

/-- The bytes of a data callback of that side. -/
def blockOf (d : Side) : ServiceEvent → Option (List Byte)
  | .call (.onFrontReadable bs) => if d = .front then some bs else none
  | .call (.onBackReadable bs) => if d = .back then some bs else none
  | _ => none

def blocks (d : Side) (trace : List ServiceEvent) : List (List Byte) :=
  trace.filterMap (blockOf d)

theorem blocks_append (d : Side) (trace es : List ServiceEvent) :
    blocks d (trace ++ es) = blocks d trace ++ blocks d es := List.filterMap_append

theorem blocks_onReadable (d x : Side) (bs : List Byte) :
    blocks d [.call (.onReadable x bs)] = if d = x then [bs] else [] := by
  cases d <;> cases x <;> rfl

/-- Every byte that has been read has been given to the data callbacks, in order, and what the
bypass handler sends comes from there. -/
structure Forwarded (w : World) : Prop where
  received : ∀ d, (w.session.socket d).received <+: (w.session.socket d).arrived
  blocks : ∀ v, w.session.m_service = some v →
    ∀ d, (blocks d v.trace).flatten = (w.session.socket d).received
  sent : ∀ trace, w.session.m_service = some ⟨.byPass, trace⟩ →
    ∀ d, Clipped (w.session.socket d.other).accepted (Session.blocks d trace)

/-- Calls that give no bytes to the service, and no bytes moved. -/
theorem Forwarded.recorded {w w' : World} (h : Forwarded w) {l : List ServiceEvent}
    (hl : ∀ d, Session.blocks d l = [])
    (hstreams : SameStreams w.session w'.session)
    (hservice : w'.session.m_service
      = w.session.m_service.map fun v => { v with trace := v.trace ++ l }) : Forwarded w' where
  received d := by
    rw [(hstreams d).1, (hstreams d).2.1]
    exact h.received d
  blocks v hv d := by
    rw [hservice, Option.map_eq_some_iff] at hv
    obtain ⟨v, hv, rfl⟩ := hv
    rw [blocks_append, hl, List.append_nil, (hstreams d).2.1]
    exact h.blocks v hv d
  sent trace htrace d := by
    rw [hservice, Option.map_eq_some_iff] at htrace
    obtain ⟨⟨kind, trace⟩, hv, heq⟩ := htrace
    cases heq
    rw [blocks_append, hl, List.append_nil, (hstreams d.other).2.2]
    exact h.sent trace hv d

/-- The service stays as it is, and bytes may arrive. -/
theorem Forwarded.mono {w w' : World} (h : Forwarded w)
    (harrived : ∀ d, (w.session.socket d).arrived <+: (w'.session.socket d).arrived)
    (hreceived : ∀ d, (w'.session.socket d).received = (w.session.socket d).received)
    (haccepted : ∀ d, (w'.session.socket d).accepted = (w.session.socket d).accepted)
    (hservice : w'.session.m_service = w.session.m_service) : Forwarded w' where
  received d := by
    rw [hreceived]
    exact (h.received d).trans (harrived d)
  blocks v hv d := by
    rw [hservice] at hv
    rw [hreceived]
    exact h.blocks v hv d
  sent trace htrace d := by
    rw [hservice] at htrace
    rw [haccepted]
    exact h.sent trace htrace d

/-- **One block**: it goes to the service, and a beginning of it to the other peer. -/
theorem Forwarded.relayed {w : World} (h : Forwarded w) {d : Side} {o : Outcomes}
    {bs : List Byte}
    (hfits : (w.session.socket d).received ++ bs <+: (w.session.socket d).arrived) :
    Forwarded ((w.received d bs).relayed o d bs) := by
  have hservice : ((w.received d bs).relayed o d bs).session.m_service
      = w.session.m_service.map fun v => { v with
        trace := v.trace ++ [.call (.onReadable d bs)] } := by cases d <;> rfl
  have harrived : ∀ x, (((w.received d bs).relayed o d bs).session.socket x).arrived
      = (w.session.socket x).arrived := by
    intro x
    cases d <;> cases x <;> rfl
  have hreceived : ∀ x, (((w.received d bs).relayed o d bs).session.socket x).received
      = (w.session.socket x).received ++ (if x = d then bs else []) := by
    intro x
    by_cases hx : x = d
    · subst hx
      rw [if_pos rfl]
      cases x <;> rfl
    · rw [if_neg hx, List.append_nil]
      cases x <;> cases d <;> first | rfl | exact absurd rfl hx
  refine ⟨fun x => ?_, fun v hv x => ?_, fun trace htrace x => ?_⟩
  · rw [harrived, hreceived]
    by_cases hx : x = d
    · rw [if_pos hx, hx]
      exact hfits
    · rw [if_neg hx, List.append_nil]
      exact h.received x
  · rw [hservice, Option.map_eq_some_iff] at hv
    obtain ⟨v, hv, rfl⟩ := hv
    rw [blocks_append, blocks_onReadable, List.flatten_append, h.blocks v hv x, hreceived]
    split
    · rw [List.flatten_singleton]
    · rfl
  · rw [hservice, Option.map_eq_some_iff] at htrace
    obtain ⟨⟨kind, trace⟩, hv, heq⟩ := htrace
    cases heq
    obtain ⟨-, -, -, hacc, hacc'⟩ := relayed_streams ⟨trace, hv⟩ d o bs
    rw [blocks_append, blocks_onReadable]
    by_cases hx : x = d
    · subst hx
      rw [if_pos rfl, hacc']
      exact (h.sent trace hv x).concat (List.take_prefix _ _)
    · -- nothing is sent to the peer that the bytes have come from
      have hother : x.other = d := by cases x <;> cases d <;> first | rfl | exact absurd rfl hx
      have hold := h.sent trace hv x
      rw [hother] at hold
      rw [if_neg hx, List.append_nil, hother, hacc]
      exact hold

theorem forwarded_invariant : Invariant Forwarded where
  marked w h _ _ := h.mono (fun _ => List.prefix_rfl) (fun _ => rfl) (fun _ => rfl) rfl
  torn w h _ _ := h.recorded (fun d => by cases d <;> rfl) (torn_sameStreams w) rfl
  connected w h _ _ := h.recorded (l := [.call .onBackConnect]) (fun d => by cases d <;> rfl)
    (fun d => by cases d <;> exact ⟨rfl, rfl, rfl⟩) rfl
  relayed w d o first rest h _ _ hr hdata := by
    simp only [DataOk, hr] at hdata
    exact h.relayed hdata.2.1
  arrive w d bs h := by
    refine h.mono (fun x => ?_) (fun x => ?_) (fun x => ?_) (by cases d <;> rfl)
    · cases d <;> cases x <;>
        first
        | exact List.prefix_append _ _
        | exact List.prefix_rfl
    · cases d <;> cases x <;> rfl
    · cases d <;> cases x <;> rfl
  connectDone w status h _ _ := by
    refine h.mono (fun x => ?_) (fun x => ?_) (fun x => ?_) rfl
    · cases x <;> exact List.prefix_rfl
    · cases x <;> rfl
    · cases x <;> rfl
  elsewhere w r h := h.mono (fun _ => List.prefix_rfl) (fun _ => rfl) (fun _ => rfl) rfl

/-- Nothing has been moved yet. -/
theorem forwarded_of_fresh {w : World} (hreceived : ∀ d, (w.session.socket d).received = [])
    (haccepted : ∀ d, (w.session.socket d).accepted = [])
    (hblocks : ∀ v, w.session.m_service = some v → ∀ d, Session.blocks d v.trace = []) :
    Forwarded w := by
  refine ⟨fun d => ?_, fun v hv d => ?_, fun trace htrace d => ?_⟩
  · rw [hreceived]
    exact List.nil_prefix
  · rw [hblocks v hv d, hreceived]
    rfl
  · rw [haccepted, hblocks _ htrace d]
    exact clipped_nil

theorem forwarded_created {u : Setup} {o : Outcomes} {this : ObjectId} {front : SocketImpl}
    {backId : SocketId} {r : SocketReactor} {w : World} (hfront : FrontOk front)
    (h : (createServiceHandler u o this front backId r).2 = some w) : Forwarded w := by
  rcases createServiceHandler_leaves h with ⟨status, service, -, -, rfl⟩ | ⟨-, rfl | ⟨service, rfl⟩⟩
  · refine forwarded_of_fresh (Side.both hfront.received rfl) (Side.both hfront.accepted rfl) ?_
    intro v hv d
    obtain ⟨kind, -, rfl⟩ := Option.map_eq_some_iff.mp hv
    cases d <;> rfl
  · exact forwarded_of_fresh (Side.both hfront.received rfl) (Side.both hfront.accepted rfl)
      fun v hv => by cases hv
  · refine forwarded_of_fresh (Side.both hfront.received rfl) (Side.both hfront.accepted rfl) ?_
    intro v hv d
    obtain ⟨kind, -, rfl⟩ := Option.map_eq_some_iff.mp hv
    rfl

end PocoProxy.Session

namespace PocoProxy.ReactorLoop

open PocoProxy.Socket PocoProxy.Session PocoProxy.Runs PocoProxy.Blocks

/-! ## All the sessions on a reactor -/

section

variable (sockfd : Fd) {ts : List (Transition Machine Label)}
  (hrun : IsRun PocoStep (Machine.listening sockfd) ts)
include hrun

theorem forwarded_sessions :
    ∀ m ∈ states (Machine.listening sockfd) ts, ∀ c ∈ m.sessions, Forwarded (c.world m.reactor) :=
  invariant_sessions forwarded_invariant
    (fun _ _ _ _ _ _ _ hfront h => forwarded_created hfront h) sockfd hrun

/-- **Services see the streams.** At every time, the blocks that a service's data callbacks have
got from a side are together what has been read there, the beginning of what the peer of this
very session has sent. -/
theorem services_see_streams :
    ∀ m ∈ states (Machine.listening sockfd) ts, ∀ c ∈ m.sessions, ∀ v,
      c.session.m_service = some v → ∀ d,
        (blocks d v.trace).flatten = (c.session.socket d).received ∧
          (c.session.socket d).received <+: (c.session.socket d).arrived := by
  intro m hm c hc v hv d
  have h := forwarded_sessions sockfd hrun m hm c hc
  exact ⟨h.blocks v hv d, h.received d⟩

/-- **The relay invents nothing.** At every time, what the bypass handler has sent to a peer
consists of a beginning of each block that it has got from the other one; so it is a part of what
that one has sent, in the same order. -/
theorem relay_never_invents :
    ∀ m ∈ states (Machine.listening sockfd) ts, ∀ c ∈ m.sessions, ∀ trace,
      c.session.m_service = some ⟨.byPass, trace⟩ → ∀ d,
        Clipped (c.session.socket d.other).accepted (blocks d trace) ∧
          (c.session.socket d.other).accepted.Sublist (c.session.socket d).arrived := by
  intro m hm c hc trace htrace d
  have h := forwarded_sessions sockfd hrun m hm c hc
  have hsent := h.sent trace htrace d
  have hsub := hsent.sublist
  rw [h.blocks _ htrace d] at hsub
  exact ⟨hsent, hsub.trans (h.received d).sublist⟩

end

/-- Two bypass sessions. The back socket of the first one takes one byte of three. -/
def twoRelays : List Label :=
  [.poll (some [(0, ⟨true, false, false⟩)]), .dispatch,
   .accept (some ⟨5, sampleSetup .byPass, {}⟩),
   .poll (some [(0, ⟨true, false, false⟩)]), .dispatch,
   .accept (some ⟨6, { service := .ok (some .byPass), backFd := 8 }, {}⟩),
   .connectDone 0 .succeeded, .connectDone 1 .succeeded,
   .arrive 0 .front [1, 2, 3], .arrive 1 .front [9],
   .poll (some [(2, ⟨false, true, false⟩), (4, ⟨false, true, false⟩),
     (1, ⟨true, false, false⟩), (3, ⟨true, false, false⟩)]),
   .dispatch, .notify {}, .skip, .skip, .skip,
   .dispatch, .notify {}, .skip, .skip, .skip,
   .dispatch, .notify { receive := .bytes 1 [2, 3], send := .accepts 1 }, .skip, .skip,
   .dispatch, .notify { receive := .bytes 9 [], send := .accepts 1 }]

theorem allowed_twoRelays :
    Allowed (fun m l => Admissible m l ∧ SocketsOk m l) step (Machine.listening 3) twoRelays := by
  decide +kernel

theorem isRun_twoRelays :
    IsRun PocoStep (Machine.listening 3) (unroll step (Machine.listening 3) twoRelays) :=
  (isRun_unroll allowed_twoRelays).imp fun _ _ _ h => ⟨⟨h.1.1, h.2⟩, h.1.2⟩

theorem services_see_streams_twoRelays :
    IsRun PocoStep (Machine.listening 3) (unroll step (Machine.listening 3) twoRelays) ∧
      ∀ m ∈ states (Machine.listening 3) (unroll step (Machine.listening 3) twoRelays),
        ∀ c ∈ m.sessions, ∀ v, c.session.m_service = some v → ∀ d,
          (blocks d v.trace).flatten = (c.session.socket d).received ∧
            (c.session.socket d).received <+: (c.session.socket d).arrived :=
  ⟨isRun_twoRelays, services_see_streams 3 isRun_twoRelays⟩

theorem relay_never_invents_twoRelays :
    IsRun PocoStep (Machine.listening 3) (unroll step (Machine.listening 3) twoRelays) ∧
      ∀ m ∈ states (Machine.listening 3) (unroll step (Machine.listening 3) twoRelays),
        ∀ c ∈ m.sessions, ∀ trace, c.session.m_service = some ⟨.byPass, trace⟩ → ∀ d,
          Clipped (c.session.socket d.other).accepted (blocks d trace) ∧
            (c.session.socket d.other).accepted.Sublist (c.session.socket d).arrived :=
  ⟨isRun_twoRelays, relay_never_invents 3 isRun_twoRelays⟩

end PocoProxy.ReactorLoop
