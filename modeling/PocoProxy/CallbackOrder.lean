/-
The order in which a service sees its callbacks.

Which callbacks can still come is in the two flags and in whether the session
exists: `OnBackConnect` only before `m_back_connected` is set, data only after,
and the disconnect callbacks are the last thing before the deletion. `InOrder`
ties the trace of the service to these; nothing is asked of the exceptions that
cut the handlers short.
-/
import PocoProxy.SessionInvariant

set_option autoImplicit false

namespace PocoProxy.Session

open PocoProxy.Program PocoProxy.Socket PocoProxy.Reactor PocoProxy.Runs

/-! ## The words -/

/-- A data callback, with as many bytes as fit the buffer and at least one. -/
def IsData : ServiceEvent → Prop
  | .call (.onFrontReadable buffer) => 1 ≤ buffer.length ∧ buffer.length ≤ m_buffer_len
  | .call (.onBackReadable buffer) => 1 ≤ buffer.length ∧ buffer.length ≤ m_buffer_len
  | _ => False

/-- What a service sees between its first callback and the disconnect callbacks,
when the back connection has come up and when it has not. -/
def Middle (connected : Bool) (es : List ServiceEvent) : Prop :=
  match connected with
  | true => ∃ data, es = .call .onBackConnect :: data ∧ ∀ e ∈ data, IsData e
  | false => es = []

/-- The end of every complete trace. -/
def farewell : List ServiceEvent := [.call .onFrontDisconnect, .call .onBackDisconnect, .deleted]

/-- `OnFrontConnect`, then `OnBackConnect` and data callbacks or nothing, then the
two disconnect callbacks and the deletion. -/
def CallbackWord (word : List ServiceEvent) : Prop :=
  ∃ connected es, Middle connected es ∧ word = .call .onFrontConnect :: es ++ farewell

/-- Everything but the data callbacks occurs at most once in a word. -/
theorem CallbackWord.count_le {word : List ServiceEvent} (h : CallbackWord word)
    {e : ServiceEvent} (he : ¬ IsData e) : word.count e ≤ 1 := by
  obtain ⟨connected, es, hes, rfl⟩ := h
  have hmiddle : es.count e ≤ [ServiceEvent.call .onBackConnect].count e := by
    cases connected with
    | false =>
        obtain rfl : es = [] := hes
        exact Nat.zero_le _
    | true =>
        obtain ⟨data, rfl, hdata⟩ := hes
        have hnot : data.count e = 0 := List.count_eq_zero.mpr fun hmem => he (hdata e hmem)
        rw [List.count_cons, List.count_singleton, hnot, Nat.zero_add]
  -- the single events are different from each other
  have hnodup : ([ServiceEvent.call .onFrontConnect] ++
      ([ServiceEvent.call .onBackConnect] ++ farewell)).Nodup := by decide
  calc (ServiceEvent.call .onFrontConnect :: es ++ farewell).count e
      = [ServiceEvent.call .onFrontConnect].count e + (es.count e + farewell.count e) := by
        rw [List.cons_append, ← List.singleton_append, List.count_append, List.count_append]
    _ ≤ [ServiceEvent.call .onFrontConnect].count e
        + ([ServiceEvent.call .onBackConnect].count e + farewell.count e) := by omega
    _ = ([ServiceEvent.call .onFrontConnect] ++
          ([ServiceEvent.call .onBackConnect] ++ farewell)).count e := by
        rw [List.count_append, List.count_append]
    _ ≤ 1 := List.nodup_iff_count_le_one.mp hnodup e

/-! ## The invariant -/

/-- The trace of the service is what the flags and the life of the session say. -/
def InOrder (w : World) : Prop :=
  ∀ v, w.session.m_service = some v → ∃ connected es, Middle connected es ∧
    (w.Alive → w.session.m_back_connected = connected) ∧
    v.trace = .call .onFrontConnect :: es ++ if w.Alive then [] else farewell

/-- A trace that is in order can be completed to a word. -/
theorem InOrder.isPrefix {w : World} (h : InOrder w) {v : Service}
    (hv : w.session.m_service = some v) : ∃ word, CallbackWord word ∧ v.trace <+: word := by
  obtain ⟨connected, es, hes, -, htrace⟩ := h v hv
  refine ⟨.call .onFrontConnect :: es ++ farewell, ⟨connected, es, hes, rfl⟩, ?_⟩
  rw [htrace]
  split
  · rw [List.append_nil]
    exact List.prefix_append _ _
  · exact List.prefix_rfl

/-- An event added to the trace of an existing session. -/
theorem InOrder.recorded {w w' : World} (h : InOrder w) (ha : w.Alive) (ha' : w'.Alive)
    {e : ServiceEvent} (hservice : w'.session.m_service = (w.session.recorded e).m_service)
    (hmiddle : ∀ es, Middle w.session.m_back_connected es →
      Middle w'.session.m_back_connected (es ++ [e])) : InOrder w' := by
  intro v hv
  rw [hservice, ProxySession.recorded, Option.map_eq_some_iff] at hv
  obtain ⟨v, hv, rfl⟩ := hv
  obtain ⟨connected, es, hes, hconn, htrace⟩ := h v hv
  rw [← hconn ha] at hes
  refine ⟨_, es ++ [e], hmiddle es hes, fun _ => rfl, ?_⟩
  rw [if_pos ha] at htrace
  simp [htrace, ha']

theorem inOrder_invariant : Invariant InOrder where
  marked w h ha hc := h
  torn w h ha hc := by
    intro v hv
    obtain ⟨v₀, hv₀, rfl⟩ := Option.map_eq_some_iff.mp hv
    obtain ⟨connected, es, hes, -, htrace⟩ := h v₀ hv₀
    -- what `Close` appends is the end of the word
    have hgone : ¬ w.marked.torn.Alive := Nat.succ_ne_zero _
    refine ⟨connected, es, hes, fun halive => absurd halive hgone, ?_⟩
    rw [if_pos ha, List.append_nil] at htrace
    rw [if_neg hgone, htrace]
    rfl
  connected w h ha hb := by
    refine h.recorded ha ha rfl fun es hes => ?_
    rw [hb] at hes
    obtain rfl : es = [] := hes
    exact ⟨[], rfl, fun e he => by cases he⟩
  relayed w d o first rest h ha hb hr hdata := by
    have hlength : (first :: rest).length ≤ m_buffer_len := by
      simp only [DataOk, hr] at hdata
      exact hdata.1
    have hevent : IsData (.call (.onReadable d (first :: rest))) := by
      cases d <;> exact ⟨Nat.succ_le_succ (Nat.zero_le _), hlength⟩
    -- one block of data more, behind the connection
    refine h.recorded (e := .call (.onReadable d (first :: rest))) ha ha (by cases d <;> rfl) ?_
    intro es hes
    have hb' : ((w.received d (first :: rest)).relayed o d (first :: rest)).session.m_back_connected
        = true := by cases d <;> exact hb
    rw [hb] at hes
    rw [hb']
    obtain ⟨data, rfl, hall⟩ := hes
    refine ⟨data ++ [.call (.onReadable d (first :: rest))], rfl, fun e he => ?_⟩
    rcases List.mem_append.mp he with he | he
    · exact hall e he
    · rw [List.mem_singleton.mp he]
      exact hevent
  arrive w d bs h := by
    cases d <;> exact h
  connectDone w status h hp hs := h
  elsewhere w r h := h

theorem started_inOrder (backFd : Fd) (status : ConnectStatus) (service : Option ServiceKind)
    (this : ObjectId) (front : SocketImpl) (backId : SocketId) (r : SocketReactor) :
    InOrder (started backFd status service this front backId r) := by
  intro v hv
  obtain ⟨kind, -, rfl⟩ := Option.map_eq_some_iff.mp hv
  exact ⟨false, [], rfl, fun _ => rfl, rfl⟩

/-! ## The result -/

/-- A service that has never been called. -/
def Uncalled (w : World) : Prop := ∀ v, w.session.m_service = some v → v.trace = []

/-- Only a notification calls the service. -/
theorem uncalled_step {w w' : World} {e : Event} (h : Uncalled w) (hstep : Step w e w')
    (he : ∀ m o, e ≠ .notify m o) : Uncalled w' := by
  obtain ⟨-, rfl⟩ := hstep
  cases e with
  | arrive d bs => cases d <;> exact h
  | connectDone status => exact h
  | elsewhere r => exact h
  | notify m o => exact absurd rfl (he m o)

/-- **The order of the callbacks**, for one session. Whatever `createServiceHandler` leaves, and
whatever is thrown, the calls on the service are at every time the beginning of
a `CallbackWord`. A session whose set-up failed before `RegisterHandler` gets no
notifications; its service is never called. -/
theorem order_of_run {u : Setup} {o : Outcomes} {this : ObjectId} {front : SocketImpl}
    {backId : SocketId} {r : SocketReactor} {w : World}
    (hset : (createServiceHandler u o this front backId r).2 = some w)
    {ts : List (Transition World Event)} (hrun : IsRun Step w ts)
    (hregistered : ¬ Registers u → ∀ t ∈ ts, ∀ m o, t.label ≠ .notify m o) :
    ∀ x ∈ states w ts, ∀ v, x.session.m_service = some v →
      (∃ word, CallbackWord word ∧ v.trace <+: word) ∧
        ∀ e, ¬ IsData e → v.trace.count e ≤ 1 := by
  -- no event of a word but data comes twice, and so none in the beginning of one
  have hcount : ∀ v : Service, (∃ word, CallbackWord word ∧ v.trace <+: word) →
      (∃ word, CallbackWord word ∧ v.trace <+: word) ∧ ∀ e, ¬ IsData e → v.trace.count e ≤ 1 := by
    rintro v ⟨word, hword, hbegin⟩
    exact ⟨⟨word, hword, hbegin⟩,
      fun e he => (hbegin.sublist.count_le e).trans (hword.count_le he)⟩
  rcases createServiceHandler_cases hset with ⟨status, service, -, -, rfl⟩ | ⟨hnot, -, huncalled⟩
  · -- registered: the invariant along the run
    have hrunAll := invariant_states (I := InOrder)
      (fun _ _ _ h hstep => inOrder_invariant.step h hstep) (started_inOrder _ _ _ _ _ _ _) hrun
    intro x hx v hv
    exact hcount v ((hrunAll x hx).isPrefix hv)
  · -- not registered: nothing is ever called
    have hrunAll := invariant_states_of (I := Uncalled) (C := fun _ e => ∀ m o, e ≠ .notify m o)
      (fun _ _ _ h hstep he => uncalled_step h hstep he) huncalled hrun (hregistered hnot)
    intro x hx v hv
    have htrace : v.trace = [] := hrunAll x hx v hv
    refine hcount v ⟨_, ⟨false, [], rfl, rfl⟩, ?_⟩
    rw [htrace]
    exact List.nil_prefix

end PocoProxy.Session
