/-
Reactors on which everything is relayed.

Where the creator makes bypass handlers only, every session has one of these or no service at
all, and a session without a service sends nothing (`OnlyByPass`). So whatever a peer is sent
has come from the other peer of the same session, in order and once (`Relaying.relays`).
-/
import PocoProxy.Accounts
import PocoProxy.Forwarding

set_option autoImplicit false

namespace PocoProxy.Session

open PocoProxy.Socket PocoProxy.Reactor PocoProxy.Runs

/-- The service is a bypass handler if there is one; if there is none, nothing is sent. -/
structure OnlyByPass (w : World) : Prop where
  kind : ∀ v, w.session.m_service = some v → v.kind = .byPass
  silent : w.session.m_service = none → ∀ d, (w.session.socket d).accepted = []

/-- The service and what has been sent stay as they are, but for the calls. -/
theorem OnlyByPass.recorded {w w' : World} (h : OnlyByPass w) (es : List ServiceEvent)
    (hservice : w'.session.m_service
      = w.session.m_service.map fun v => { v with trace := v.trace ++ es })
    (haccepted : w.session.m_service = none →
      ∀ d, (w'.session.socket d).accepted = (w.session.socket d).accepted) : OnlyByPass w' where
  kind v hv := by
    rw [hservice, Option.map_eq_some_iff] at hv
    obtain ⟨v, hv, rfl⟩ := hv
    exact h.kind v hv
  silent hnone d := by
    rw [hservice, Option.map_eq_none_iff] at hnone
    rw [haccepted hnone, h.silent hnone]

theorem OnlyByPass.same {w w' : World} (h : OnlyByPass w)
    (hservice : w'.session.m_service = w.session.m_service)
    (haccepted : ∀ d, (w'.session.socket d).accepted = (w.session.socket d).accepted) :
    OnlyByPass w' := by
  refine h.recorded [] ?_ fun _ => haccepted
  rw [hservice]
  cases w.session.m_service with
  | none => rfl
  | some v => rw [Option.map_some, List.append_nil]

theorem onlyByPass_invariant : Invariant OnlyByPass where
  marked w h _ _ := h.same rfl fun _ => rfl
  torn w h _ _ := h.recorded [.call .onFrontDisconnect, .call .onBackDisconnect, .deleted] rfl
    fun _ d => (torn_sameStreams w d).2.2
  connected w h _ _ := h.recorded [.call .onBackConnect] rfl fun _ d => by cases d <;> rfl
  relayed w d o first rest h _ _ _ _ := by
    refine h.recorded [.call (.onReadable d (first :: rest))] (by cases d <;> rfl) ?_
    intro hnone x
    -- without a service nothing is sent
    have hsent : World.sent o (w.received d (first :: rest)).session (first :: rest) = [] := by
      have hnone' : (w.received d (first :: rest)).session.m_service = none := by
        cases d <;> exact hnone
      rw [World.sent, hnone']
    rw [World.relayed, hsent, World.accepted_nil]
    cases d <;> cases x <;> rfl
  arrive w d bs h := by
    refine h.same (by cases d <;> rfl) fun x => ?_
    cases d <;> cases x <;> rfl
  connectDone w status h _ _ := h.same rfl fun d => by cases d <;> rfl
  elsewhere w r h := h.same rfl fun _ => rfl

/-- A session gets its service from the creator. -/
theorem kind_of_created {u : Setup} {o : Outcomes} {this : ObjectId} {front : SocketImpl}
    {backId : SocketId} {r : SocketReactor} {w : World}
    (h : (createServiceHandler u o this front backId r).2 = some w) :
    ∀ v, w.session.m_service = some v → u.service = .ok (some v.kind) := by
  intro v hv
  rw [createServiceHandler_after] at h
  split at h
  · cases h
  · rw [Option.some.injEq] at h
    subst h
    cases hservice : u.service with
    | error e =>
        rw [hservice] at hv
        cases hv
    | ok service =>
        rw [hservice] at hv
        cases hconnect : u.connect <;> rw [hconnect] at hv <;>
          obtain ⟨kind, rfl, rfl⟩ := Option.map_eq_some_iff.mp hv <;> rfl

/-- The session hands on what it reads, and nothing else. -/
structure Relaying (w : World) : Prop where
  forwarded : Forwarded w
  onlyByPass : OnlyByPass w

theorem Relaying.step {w w' : World} {e : Event} (h : Relaying w) (hstep : Step w e w') :
    Relaying w' :=
  ⟨forwarded_invariant.step h.forwarded hstep, onlyByPass_invariant.step h.onlyByPass hstep⟩

theorem relaying_created {u : Setup} {o : Outcomes} {this : ObjectId} {front : SocketImpl}
    {backId : SocketId} {r : SocketReactor} {w : World} (hfront : FrontOk front)
    (hkind : ∀ kind, u.service = .ok (some kind) → kind = .byPass)
    (h : (createServiceHandler u o this front backId r).2 = some w) : Relaying w where
  forwarded := forwarded_created hfront h
  onlyByPass := by
    refine ⟨fun v hv => hkind _ (kind_of_created h v hv), fun _ => ?_⟩
    rcases createServiceHandler_leaves h with ⟨status, service, -, -, rfl⟩ |
      ⟨-, rfl | ⟨service, rfl⟩⟩ <;> exact Side.both hfront.accepted rfl

/-- What a peer has been sent is a part of what has come from the other one, in order. -/
theorem Relaying.relays {w : World} (h : Relaying w) (d : Side) :
    (w.session.socket d.other).accepted.Sublist (w.session.socket d).arrived := by
  cases hservice : w.session.m_service with
  | none =>
      rw [h.onlyByPass.silent hservice]
      exact List.nil_sublist _
  | some v =>
      obtain ⟨kind, trace⟩ := v
      obtain rfl : kind = .byPass := h.onlyByPass.kind _ hservice
      have hsub := (h.forwarded.sent trace hservice d).sublist
      rw [h.forwarded.blocks _ hservice d] at hsub
      exact hsub.trans (h.forwarded.received d).sublist

end PocoProxy.Session

namespace PocoProxy.ReactorLoop

open PocoProxy.Socket PocoProxy.Session PocoProxy.Runs

/-- The creator makes bypass handlers. -/
def MakesByPass : Label → Prop
  | .accept (some a) => ∀ kind, a.setup.service = .ok (some kind) → kind = .byPass
  | _ => True

/-- A session that was not there before comes with a connection. -/
theorem created_of_new {m : Machine} {l : Label} {i : ℕ} {c' : Cell}
    (hnew : m.sessions.length ≤ i) (hc' : (step m l).sessions[i]? = some c') :
    ∃ a, l = .accept (some a) ∧
      (createServiceHandler a.setup a.outcomes (.session m.sessions.length)
        (m.acceptConnection a.sockfd) (m.nextSocket + 1) m.reactor).2
          = some (c'.world (step m l).reactor) := by
  by_cases haccept : ∃ a, l = .accept (some a)
  · obtain ⟨a, rfl⟩ := haccept
    refine ⟨a, rfl, ?_⟩
    change (m.onAccept a).sessions[i]? = some c' at hc'
    change _ = some (c'.world (m.onAccept a).reactor)
    unfold Machine.onAccept at hc' ⊢
    rcases hcreate : createServiceHandler a.setup a.outcomes (.session m.sessions.length)
        (m.acceptConnection a.sockfd) (m.nextSocket + 1) m.reactor with ⟨result, session⟩
    rw [hcreate] at hc'
    cases session with
    | none =>
        change m.sessions[i]? = some c' at hc'
        rw [List.getElem?_eq_none hnew] at hc'
        cases hc'
    | some w =>
        change (m.sessions ++ [Cell.ofWorld w])[i]? = some c' at hc'
        rw [List.getElem?_append_right hnew] at hc'
        obtain rfl := List.mem_singleton.mp (List.mem_of_getElem? hc')
        rfl
  · have hsame := length_of_not_accept (m := m) fun a ha => haccept ⟨a, ha⟩
    rw [List.getElem?_eq_none (hsame ▸ hnew)] at hc'
    cases hc'

/-- Every session on the reactor relays. -/
structure AllRelaying (m : Machine) : Prop where
  safe : m.Safe
  sessions : ∀ c ∈ m.sessions, Relaying (c.world m.reactor)

theorem allRelaying_listening (sockfd : Fd) : AllRelaying (Machine.listening sockfd) where
  safe := listening_safe sockfd
  sessions c hc := by cases hc

/-- **The step lemma.** -/
theorem allRelaying_step {m m' : Machine} {l : Label} (h : AllRelaying m)
    (hstep : PocoStep m l m') (hmakes : MakesByPass l) : AllRelaying m' where
  safe := safe_step h.safe hstep.1
  sessions c' hc' := by
    obtain ⟨i, hi⟩ := List.getElem?_of_mem hc'
    by_cases hlt : i < m.sessions.length
    · -- it has made a step of its own
      obtain ⟨c, hc⟩ : ∃ c, m.sessions[i]? = some c := ⟨_, List.getElem?_eq_getElem hlt⟩
      obtain ⟨e, he, -⟩ := ownStep h.safe hstep hc hi
      exact (h.sessions c (List.mem_of_getElem? hc)).step he
    · -- it has come with the step
      obtain ⟨⟨hadm, rfl⟩, hok⟩ := hstep
      obtain ⟨a, rfl, hcreate⟩ := created_of_new (Nat.le_of_not_lt hlt) hi
      have haccept : AcceptOk m a := hadm.2 a rfl
      exact relaying_created ⟨haccept.1.1, rfl, rfl, rfl, rfl⟩ hmakes hcreate

end PocoProxy.ReactorLoop
