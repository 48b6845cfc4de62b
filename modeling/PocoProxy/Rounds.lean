/-
One round of the reactor's loop.

Between two polls, `run` dispatches what the poll has returned. Every dispatch takes a snapshot
of a notifier's observers and calls the ones that accept the notification. A round has an end
(`rounds_end`), and it forgets nobody and calls nobody twice: an observer that is registered
when the poll returns is called at most once for its kind of notification, and exactly once if
the poll has reported it, the observer stays registered, and no call lets an exception out of
the snapshot's loop (`round_delivers`).

`RoundStep` says what a step can be in the middle of a round; everything else is derived from
that.
-/
import PocoProxy.Lib.Progress
import PocoProxy.Shutdown
import Mathlib.Data.Prod.Lex

set_option autoImplicit false

namespace PocoProxy.Reactor

open PocoProxy.Socket PocoProxy.PollSet PocoProxy.Registry

/-! ## Who is disabled -/

theorem getOrMakeNotifier_disabled (r : SocketReactor) (s : SocketId) :
    (r.getOrMakeNotifier s).2.disabled = r.disabled := by
  unfold SocketReactor.getOrMakeNotifier
  split <;> rfl

theorem addEventHandler_disabled (r : SocketReactor) (socket : SocketImpl) (t : Target) :
    (r.addEventHandler socket t).disabled = r.disabled := by
  have hmake := getOrMakeNotifier_disabled r socket.id
  unfold SocketReactor.addEventHandler
  rcases hr₁ : r.getOrMakeNotifier socket.id with ⟨p, r₁⟩
  rw [hr₁] at hmake
  dsimp only at hmake ⊢
  split <;> split <;> exact hmake

end PocoProxy.Reactor

namespace PocoProxy.Session

open PocoProxy.Socket PocoProxy.PollSet PocoProxy.Reactor

theorem addHandlers_disabled (r : SocketReactor) (socket : SocketImpl) (object : ObjectId)
    (ms : List Method) : (addHandlers r socket object ms).disabled = r.disabled := by
  induction ms generalizing r with
  | nil => rfl
  | cons m ms ih => exact (ih _).trans (addEventHandler_disabled r socket ⟨object, m⟩)

end PocoProxy.Session

namespace PocoProxy.ReactorLoop

open PocoProxy.Program PocoProxy.Socket PocoProxy.PollSet PocoProxy.Registry PocoProxy.Reactor
open PocoProxy.Session PocoProxy.Runs

/-- Nobody is enabled again. -/
theorem disabled_step {m m' : Machine} {l : Label} (h : m.Safe) (hstep : Step m l m') :
    ∀ i ∈ m.reactor.disabled, i ∈ m'.reactor.disabled := by
  intro i hi
  cases step_effect h hstep with
  | quiet hclose hserver hnext hfaces hreactor hsnapshot => exact hreactor ▸ hi
  | polled hclose hserver hnext hfaces hreactor hsnapshot =>
      rw [hreactor]
      exact hi
  | unregistered f hclose hnew hopen hserver hnext hfaces hreactor hsnapshot => exact hreactor ▸ hi
  | refused hclose hserver hnext hfaces hreactor hsnapshot => exact hreactor ▸ hi
  | torn j w hclose hserver hnext hw halive hold hall hfaces hreactor hsnapshot =>
      rw [hreactor]
      exact (h.torn_becomes hw hold hall).kept.disabled i (hold ▸ hi)
  | registered a status service w hclose hok hconnect hw hserver hnext hfaces hreactor hsnapshot =>
      rw [hreactor, hw, started_reactor, addHandlers_disabled, addHandlers_disabled]
      exact hi

/-- **An observer that a step disables is registered no longer.** -/
theorem enabled_of_registered {m m' : Machine} {l : Label} (h : m.Safe) (hids : Ids m.reactor)
    (hstep : Step m l m') {p : NotifierPtr} {o : Observer}
    (ho : o ∈ (m.reactor.notifiers p).observers) {s : SocketId}
    (ht : o.target ∈ targets m'.reactor s) : o.id ∉ m'.reactor.disabled := by
  have henabled := hids.enabled p o ho
  have hsafe' := safe_step h hstep
  cases step_effect h hstep with
  | quiet hclose hserver hnext hfaces hreactor hsnapshot => exact hreactor ▸ henabled
  | polled hclose hserver hnext hfaces hreactor hsnapshot =>
      rw [hreactor]
      exact henabled
  | unregistered f hclose hnew hopen hserver hnext hfaces hreactor hsnapshot =>
      exact hreactor ▸ henabled
  | refused hclose hserver hnext hfaces hreactor hsnapshot => exact hreactor ▸ henabled
  | registered a status service w hclose hok hconnect hw hserver hnext hfaces hreactor hsnapshot =>
      rw [hreactor, hw, started_reactor, addHandlers_disabled, addHandlers_disabled]
      exact henabled
  | torn j w hclose hserver hnext hw halive hold hall hfaces hreactor hsnapshot =>
      intro hdisabled
      rw [hreactor] at hdisabled
      have hthis : w.session.this = .session j := h.this j _ hw
      rcases (torn_removes (w := w) (hold ▸ hids)).disabled _ hdisabled with
        hbefore | ⟨q, o', ho', hid, hobject⟩
      · exact henabled (hold ▸ hbefore)
      · -- it belongs to the session that has been deleted, and no observer of that is left
        obtain rfl : o' = o := hids.eq_of_id (hold ▸ ho') ho hid
        rcases hsafe'.registered s _ ht with ⟨-, haccept⟩ | ⟨i, f, d, hf, hdel, -, hmem⟩
        · rw [haccept, hthis] at hobject
          cases hobject
        · obtain ⟨method, -, htarget⟩ := List.mem_map.mp hmem
          rw [← htarget, hthis] at hobject
          obtain rfl : i = j := ObjectId.session.inj hobject
          rw [hfaces, List.getElem?_set_self (List.getElem?_eq_some_iff.mp hw).1,
            Option.some.injEq] at hf
          rw [← hf] at hdel
          exact absurd hdel (Nat.succ_ne_zero _)

/-! ## The steps of a round -/

/-- `run` begins something new: a round, or the shutdown. -/
def opensRound : Label → Bool
  | .poll _ => true
  | .idle => true
  | .shutdown => true
  | _ => false

/-- The next observer's callback runs. -/
def isCall : Label → Bool
  | .accept _ => true
  | .notify _ => true
  | _ => false

/-- No exception leaves the callback. -/
def Returns (m : Machine) : Label → Prop
  | .notify o =>
    ∀ x ∈ m.calledSession, (handler x.2 o (x.1.world m.reactor)).1 = .ok ()
  | .accept connection =>
    ∃ a, connection = some a ∧
      (createServiceHandler a.setup a.outcomes (.session m.sessions.length)
        (m.acceptConnection a.sockfd) (m.nextSocket + 1) m.reactor).1 = .ok ()
  | _ => True

def Task.kind : Task → NotificationKind
  | .socket _ kind => kind
  | .notifier _ kind => kind
  | .broadcast kind => kind

/-- The observers of which a dispatch takes its snapshot. -/
def snapshotOf (r : SocketReactor) : Task → List Observer
  | .socket s _ =>
    match r.getNotifier s with
    | some p => (r.notifiers p).observers
    | none => []
  | .notifier p _ => (r.notifiers p).observers
  | .broadcast _ => []

/-- What a step can be in the middle of a round. -/
inductive RoundStep (m : Machine) (l : Label) (m' : Machine) : Prop
  /-- Another thread, a peer or the network. -/
  | outside (hl : isReactorStep l = false) (htasks : m'.tasks = m.tasks)
      (hsnapshot : m'.observersToNotify = m.observersToNotify)
      (hnotification : m'.notification = m.notification) (hreactor : m'.reactor = m.reactor)
  /-- A broadcast lists the notifiers. -/
  | posted (kind : NotificationKind) (rest : List Task) (delegates : List NotifierPtr)
      (hl : l = .broadcast delegates) (htasks : m.tasks = .broadcast kind :: rest)
      (hsnapshot : m.observersToNotify = [])
      (heq : m' = { m with tasks := delegates.map (.notifier · kind) ++ rest })
  /-- The turn of a socket or a notifier. -/
  | dispatched (task : Task) (rest : List Task) (hl : l = .dispatch)
      (htasks : m.tasks = task :: rest) (hbroadcast : task.isBroadcast = false)
      (hsnapshot : m.observersToNotify = []) (hrest : m'.tasks = rest)
      (hobservers : m'.observersToNotify = snapshotOf m.reactor task)
      (hnotification : m'.observersToNotify ≠ [] → m'.notification = task.kind)
      (hreactor : m'.reactor = m.reactor)
  /-- The turn of an observer that is disabled or waits for something else. -/
  | passed (o : Observer) (rest : List Observer) (hl : l = .skip)
      (hsnapshot : m.observersToNotify = o :: rest) (hcall : m.nextCall = none)
      (heq : m' = { m with observersToNotify := rest })
  /-- The turn of an observer that is called. -/
  | called (o : Observer) (rest : List Observer) (hl : isCall l = true)
      (hsnapshot : m.observersToNotify = o :: rest) (hcall : m.nextCall = some o.target)
      (htasks : m'.tasks = m.tasks) (hnotification : m'.notification = m.notification)
      (hrest : m'.observersToNotify = rest ∨ m'.observersToNotify = [])
      (hreturns : Returns m l → m'.observersToNotify = rest)

/-- Who is called is the first observer of the snapshot. -/
theorem head_of_nextCall {m : Machine} {t : Target} (h : m.nextCall = some t) :
    ∃ o rest, m.observersToNotify = o :: rest ∧ o.target = t ∧ o.id ∉ m.reactor.disabled ∧
      o.accepts m.notification = true := by
  unfold Machine.nextCall at h
  cases hobs : m.observersToNotify with
  | nil =>
      rw [hobs] at h
      cases h
  | cons o rest =>
      rw [hobs] at h
      dsimp only at h
      by_cases hcond : o.id ∉ m.reactor.disabled ∧ o.accepts m.notification = true
      · rw [if_pos hcond] at h
        exact ⟨o, rest, rfl, Option.some.inj h, hcond⟩
      · rw [if_neg hcond] at h
        cases h

theorem remaining_cases (result : Except Exception Unit) (o : Observer) (rest : List Observer) :
    (remaining result (o :: rest).tail = rest ∨ remaining result (o :: rest).tail = []) ∧
      (result = .ok () → remaining result (o :: rest).tail = rest) := by
  cases result with
  | ok u => exact ⟨.inl rfl, fun _ => rfl⟩
  | error e => exact ⟨.inr rfl, fun h => by cases h⟩

/-- A session's own event. -/
theorem outside_onSession (m : Machine) (l : Label) (hl : isReactorStep l = false) (i : ℕ)
    {f : World → World} (hf : ∀ w, (f w).reactor = w.reactor) :
    RoundStep m l (m.onSession i f) := by
  unfold Machine.onSession
  split
  · exact .outside hl rfl rfl rfl rfl
  · exact .outside hl rfl rfl rfl (hf _)

/-- A callback of a session. -/
theorem called_onNotify {m : Machine} (h : m.Safe) {o : Outcomes}
    (hadm : Admissible m (.notify o)) : RoundStep m (.notify o) (step m (.notify o)) := by
  rcases hcall : m.nextCall with _ | ⟨_ | i, method⟩
  · rw [Admissible, hcall] at hadm
    cases hadm
  · rw [Admissible, hcall] at hadm
    cases hadm
  · obtain ⟨ob, rest, hobs, htarget, -, -⟩ := head_of_nextCall hcall
    obtain ⟨c, hc, -⟩ := h.alive hcall
    have hstep : step m (.notify o) = m.onNotify i method o := by
      unfold step
      rw [hcall]
    obtain ⟨hrest, hok⟩ := remaining_cases (handler method o (c.world m.reactor)).1 ob rest
    rw [hstep]
    unfold Machine.onNotify
    rw [hc]
    refine .called ob rest rfl hobs (by rw [hcall, htarget]) rfl rfl ?_ fun hreturns => ?_
    · dsimp only
      rw [hobs]
      exact hrest
    · dsimp only
      rw [hobs]
      exact hok (hreturns _ (Machine.calledSession_eq hcall hc))

/-- The callback of the acceptor. -/
theorem called_accept {m : Machine} {connection : Option Accepted}
    (hadm : Admissible m (.accept connection)) :
    RoundStep m (.accept connection) (step m (.accept connection)) := by
  obtain ⟨ob, rest, hobs, htarget, -, -⟩ := head_of_nextCall hadm.1
  have hcall : m.nextCall = some ob.target := by rw [hadm.1, htarget]
  cases connection with
  | none =>
      refine .called ob rest rfl hobs hcall rfl rfl (.inr rfl) fun hreturns => ?_
      obtain ⟨a, ha, -⟩ := hreturns
      cases ha
  | some a =>
      change RoundStep m _ (m.onAccept a)
      unfold Machine.onAccept
      rcases hcreate : createServiceHandler a.setup a.outcomes (.session m.sessions.length)
          (m.acceptConnection a.sockfd) (m.nextSocket + 1) m.reactor with ⟨result, session⟩
      obtain ⟨hrest, hok⟩ := remaining_cases result ob rest
      have hadd : (m.addSession session).tasks = m.tasks ∧
          (m.addSession session).notification = m.notification := by
        cases session <;> exact ⟨rfl, rfl⟩
      refine .called ob rest rfl hobs hcall hadd.1 hadd.2 ?_ fun hreturns => ?_
      · dsimp only
        rw [hobs]
        exact hrest
      · obtain ⟨a', ha, hresult⟩ := hreturns
        obtain rfl := Option.some.inj ha
        rw [hcreate] at hresult
        dsimp only
        rw [hobs]
        exact hok hresult

/-- The turn of a socket, which may have no notifier any more. -/
theorem dispatched_socket {m : Machine} {s : SocketId} {kind : NotificationKind}
    {rest : List Task} (htasks : m.tasks = .socket s kind :: rest)
    (hnil : m.observersToNotify = []) : RoundStep m .dispatch (step m .dispatch) := by
  cases hs : m.reactor.getNotifier s with
  | none =>
      have heq : step m .dispatch = { m with tasks := rest } := by
        unfold step
        rw [htasks]
        dsimp only
        rw [hs]
      have hsnapshot : snapshotOf m.reactor (.socket s kind) = [] := by
        unfold snapshotOf
        dsimp only
        rw [hs]
      rw [heq]
      exact .dispatched _ rest rfl htasks rfl hnil rfl (hnil.trans hsnapshot.symm)
        (fun hne => absurd hnil hne) rfl
  | some p =>
      have heq : step m .dispatch = { m with tasks := rest }.post p kind := by
        unfold step
        rw [htasks]
        dsimp only
        rw [hs]
      have hsnapshot : snapshotOf m.reactor (.socket s kind)
          = (m.reactor.notifiers p).observers := by
        unfold snapshotOf
        dsimp only
        rw [hs]
      rw [heq]
      exact .dispatched _ rest rfl htasks rfl hnil rfl hsnapshot.symm (fun _ => rfl) rfl

/-- **What a step is** in the middle of a round. -/
theorem round_step {m m' : Machine} {l : Label} (h : m.Safe) (hstep : Step m l m')
    (hl : opensRound l = false) : RoundStep m l m' := by
  obtain ⟨hadm, rfl⟩ := hstep
  cases l with
  | poll result => cases hl
  | idle => cases hl
  | shutdown => cases hl
  | stop => exact .outside rfl rfl rfl rfl rfl
  | arrive i d bs =>
      exact outside_onSession m (.arrive i d bs) rfl i fun w => (arrive_sameFace w d bs).2
  | connectDone i status =>
      exact outside_onSession m (.connectDone i status) rfl i fun w =>
        (connectDone_sameFace w status).2
  | notify o => exact called_onNotify h hadm
  | accept connection => exact called_accept hadm
  | skip =>
      obtain ⟨hne, hnone⟩ := hadm
      cases hobs : m.observersToNotify with
      | nil => exact absurd hobs hne
      | cons o rest =>
          refine .passed o rest rfl hobs hnone ?_
          unfold step
          rw [hobs]
          rfl
  | broadcast delegates =>
      obtain ⟨hnil, hhead, -⟩ := hadm
      cases htasks : m.tasks with
      | nil =>
          rw [htasks] at hhead
          cases hhead
      | cons task rest =>
          rw [htasks] at hhead
          cases task with
          | broadcast kind =>
              refine .posted kind rest delegates rfl htasks hnil ?_
              unfold step
              rw [htasks]
          | socket s kind => cases hhead
          | notifier p kind => cases hhead
  | dispatch =>
      obtain ⟨hnil, hhead⟩ := hadm
      cases htasks : m.tasks with
      | nil =>
          rw [htasks] at hhead
          cases hhead
      | cons task rest =>
          rw [htasks] at hhead
          cases task with
          | broadcast kind => cases hhead
          | notifier p kind =>
              have heq : step m .dispatch = { m with tasks := rest }.post p kind := by
                unfold step
                rw [htasks]
              rw [heq]
              exact .dispatched _ rest rfl htasks rfl hnil rfl rfl (fun _ => rfl) rfl
          | socket s kind => exact dispatched_socket htasks hnil

/-! ## Where a target belongs -/

/-- The socket that this target is registered for, if it is registered at all. -/
def Home (m : Machine) (t : Target) (s : SocketId) : Prop :=
  t = Machine.acceptTarget ∧ s = m.server.id ∨
    ∃ (i : ℕ) (f : Face) (d : Side), m.faces[i]? = some f ∧ s = f.socket d ∧
      t ∈ sideTargets (.session i) d

theorem home_of_registered {m : Machine} (h : m.Safe) {t : Target} {s : SocketId}
    (ht : t ∈ targets m.reactor s) : Home m t s := by
  rcases h.registered s t ht with ⟨hs, haccept⟩ | ⟨i, f, d, hf, -, hs, hmem⟩
  · exact .inl ⟨haccept, hs⟩
  · exact .inr ⟨i, f, d, hf, hs, hmem⟩

/-- No method is registered on both sides. -/
theorem side_unique {i i' : ℕ} {d d' : Side} {t : Target} (h : t ∈ sideTargets (.session i) d)
    (h' : t ∈ sideTargets (.session i') d') : i = i' ∧ d = d' := by
  obtain ⟨method, hm, rfl⟩ := List.mem_map.mp h
  obtain ⟨method', hm', heq⟩ := List.mem_map.mp h'
  obtain ⟨hobject, rfl⟩ := Target.mk.inj heq
  refine ⟨ObjectId.session.inj hobject.symm, ?_⟩
  cases d <;> cases d' <;> first | rfl | (exfalso; revert hm hm'; cases method' <;> decide)

theorem acceptTarget_not_side {i : ℕ} {d : Side} :
    Machine.acceptTarget ∉ sideTargets (.session i) d := by
  intro h
  obtain ⟨method, -, heq⟩ := List.mem_map.mp h
  cases heq

theorem Home.unique {m : Machine} {t : Target} {s s' : SocketId} (h : Home m t s)
    (h' : Home m t s') : s = s' := by
  rcases h with ⟨rfl, rfl⟩ | ⟨i, f, d, hf, rfl, hmem⟩ <;>
    rcases h' with ⟨heq, rfl⟩ | ⟨i', f', d', hf', rfl, hmem'⟩
  · rfl
  · exact absurd hmem' acceptTarget_not_side
  · rw [heq] at hmem
    exact absurd hmem acceptTarget_not_side
  · obtain ⟨rfl, rfl⟩ := side_unique hmem hmem'
    rw [hf, Option.some.injEq] at hf'
    rw [hf']

theorem Home.lt {m : Machine} (h : m.Safe) {t : Target} {s : SocketId} (hhome : Home m t s) :
    s < m.nextSocket := by
  rcases hhome with ⟨-, rfl⟩ | ⟨i, f, d, hf, rfl, -⟩
  · exact h.server_lt
  · exact (h.socket_lt i f d hf).2

/-- The sockets of a session stay the same objects. -/
theorem Home.step {m m' : Machine} {l : Label} (h : m.Safe) (hstep : Step m l m') {t : Target}
    {s : SocketId} (hhome : Home m t s) : Home m' t s := by
  have hmove : m'.server = m.server →
      (∀ (i : ℕ) f, m.faces[i]? = some f → ∃ f', m'.faces[i]? = some f' ∧ f'.socket = f.socket) →
        Home m' t s := by
    intro hserver hfaces
    rcases hhome with ⟨ht, rfl⟩ | ⟨i, f, d, hf, rfl, hmem⟩
    · exact .inl ⟨ht, by rw [hserver]⟩
    · obtain ⟨f', hf', hsocket⟩ := hfaces i f hf
      exact .inr ⟨i, f', d, hf', by rw [hsocket], hmem⟩
  have hsame : m'.server = m.server → m'.faces = m.faces → Home m' t s :=
    fun hserver hfaces => hmove hserver fun i f hf => ⟨f, hfaces ▸ hf, rfl⟩
  have hgrown : ∀ f₁, m'.server = m.server → m'.faces = m.faces ++ [f₁] → Home m' t s := by
    intro f₁ hserver hfaces
    refine hmove hserver fun i f hf => ⟨f, ?_, rfl⟩
    rw [hfaces, List.getElem?_append_left (List.getElem?_eq_some_iff.mp hf).1]
    exact hf
  cases step_effect h hstep with
  | quiet hclose hserver hnext hfaces hreactor hsnapshot => exact hsame hserver hfaces
  | polled hclose hserver hnext hfaces hreactor hsnapshot => exact hsame hserver hfaces
  | refused hclose hserver hnext hfaces hreactor hsnapshot => exact hsame hserver hfaces
  | unregistered f hclose hnew hopen hserver hnext hfaces hreactor hsnapshot =>
      exact hgrown f hserver hfaces
  | registered a status service w hclose hok hconnect hw hserver hnext hfaces hreactor hsnapshot =>
      exact hgrown _ hserver hfaces
  | torn j w hclose hserver hnext hw halive hold hall hfaces hreactor hsnapshot =>
      refine hmove hserver fun i f hf => ?_
      rw [hfaces]
      by_cases hij : j = i
      · subst hij
        rw [hw, Option.some.injEq] at hf
        exact ⟨_, List.getElem?_set_self (List.getElem?_eq_some_iff.mp hw).1, hf ▸ rfl⟩
      · exact ⟨f, by rw [List.getElem?_set_ne hij, hf], rfl⟩

/-- Who has been taken out does not come back. -/
theorem registered_before {m m' : Machine} {l : Label} (h : m.Safe) (hstep : Step m l m')
    {t : Target} {s : SocketId} (hhome : Home m t s) (ht : t ∈ targets m'.reactor s) :
    t ∈ targets m.reactor s := by
  rcases targets_step h hstep (hhome.lt h) with heq | ⟨hnil, -⟩
  · exact heq ▸ ht
  · rw [hnil] at ht
    exact absurd ht List.not_mem_nil

/-! ## The invariant of a round -/

/-- What holds in the middle of a round: the broadcasts that it has are time-outs. -/
structure InRound (m : Machine) : Prop where
  safe : m.Safe
  ids : Ids m.reactor
  acceptor : targets m.reactor m.server.id = [Machine.acceptTarget]
  timeout : ∀ task ∈ m.tasks, (∃ s kind, task = .socket s kind) ∨ task.kind = .timeout

/-- No target is registered twice. -/
theorem InRound.nodup {m : Machine} (h : InRound m) (s : SocketId) :
    (targets m.reactor s).Nodup := by
  cases hs : targets m.reactor s with
  | nil => exact List.nodup_nil
  | cons t rest =>
      rw [← hs]
      have ht : t ∈ targets m.reactor s := hs ▸ List.mem_cons_self
      rcases h.safe.registered s t ht with ⟨rfl, -⟩ | ⟨i, f, d, hf, -, rfl, -⟩
      · rw [h.acceptor]
        exact List.nodup_singleton _
      · rcases h.safe.whole i f hf with hall | hnone
        · rw [hall]
          refine List.Nodup.map (fun x y hxy => (Target.mk.inj hxy).2) ?_
          cases d <;> decide
        · rw [hnone]
          exact List.nodup_nil

theorem InRound.step {m m' : Machine} {l : Label} (h : InRound m) (hstep : Step m l m')
    (hl : opensRound l = false) : InRound m' := by
  obtain ⟨hsafe', hids'⟩ := ids_step ⟨h.safe, h.ids⟩ hstep
  refine ⟨hsafe', hids', (acceptor_step ⟨h.safe, h.acceptor⟩ hstep).2, ?_⟩
  cases round_step h.safe hstep hl with
  | outside hl htasks hsnapshot hnotification hreactor =>
      rw [htasks]
      exact h.timeout
  | posted kind rest delegates hl htasks hsnapshot heq =>
      intro task htask
      have hkind : kind = .timeout := by
        rcases h.timeout _ (htasks ▸ List.mem_cons_self) with ⟨s, kind', heq⟩ | hkind
        · cases heq
        · exact hkind
      rw [heq] at htask
      rcases List.mem_append.mp htask with hnew | hold
      · obtain ⟨p, -, rfl⟩ := List.mem_map.mp hnew
        exact .inr hkind
      · exact h.timeout task (htasks ▸ List.mem_cons_of_mem _ hold)
  | dispatched task rest hl htasks hbroadcast hsnapshot hrest hobservers hnotification hreactor =>
      rw [hrest]
      exact fun task' htask' => h.timeout task' (htasks ▸ List.mem_cons_of_mem _ htask')
  | passed o rest hl hsnapshot hcall heq =>
      rw [heq]
      exact h.timeout
  | called o rest hl hsnapshot hcall htasks hnotification hrest hreturns =>
      rw [htasks]
      exact h.timeout

/-! ## The calls that are still to come -/

/-- The observer calls this target when it is notified. -/
def callsTarget (r : SocketReactor) (kind : NotificationKind) (t : Target) (o : Observer) : Bool :=
  decide (o.id ∉ r.disabled) && o.accepts kind && decide (o.target = t)

theorem callsTarget_iff {r : SocketReactor} {kind : NotificationKind} {t : Target}
    {o : Observer} :
    callsTarget r kind t o = true ↔
      o.id ∉ r.disabled ∧ o.accepts kind = true ∧ o.target = t := by
  rw [callsTarget, Bool.and_eq_true, Bool.and_eq_true, decide_eq_true_eq, decide_eq_true_eq,
    and_assoc]

/-- How often the target is still to be called: once for every dispatch of its socket, and for
every observer in the rest of the snapshot. -/
def waiting (t : Target) (s : SocketId) (m : Machine) : ℕ :=
  m.tasks.count (.socket s t.method.kind)
    + m.observersToNotify.countP (callsTarget m.reactor m.notification t)

/-- The step calls the target. -/
def calls (t : Target) (m : Machine) (l : Label) : Bool :=
  isCall l && decide (m.nextCall = some t)

theorem target_of_snapshot {r : SocketReactor} {task : Task} {o : Observer}
    (h : Wf r) (ho : o ∈ snapshotOf r task) :
    ∃ s, o.target ∈ targets r s ∧ ∀ s' kind, task = .socket s' kind → s' = s := by
  cases task with
  | broadcast kind => cases ho
  | notifier p kind =>
      obtain ⟨s, hs⟩ := h.reached p (List.ne_nil_of_mem ho)
      exact ⟨s, targets_of_some hs ▸ List.mem_map_of_mem ho, fun _ _ heq => by cases heq⟩
  | socket s kind =>
      refine ⟨s, ?_, fun s' kind' heq => (Task.socket.inj heq).1.symm⟩
      unfold snapshotOf at ho
      dsimp only at ho
      cases hs : r.getNotifier s with
      | none =>
          rw [hs] at ho
          cases ho
      | some p =>
          rw [hs] at ho
          exact targets_of_some hs ▸ List.mem_map_of_mem ho

/-- In the snapshot of its own socket a target is as often as it is registered. -/
theorem countP_own {m : Machine} (hids : Ids m.reactor) {t : Target} {s : SocketId} :
    (snapshotOf m.reactor (.socket s t.method.kind)).countP
        (callsTarget m.reactor t.method.kind t) = (targets m.reactor s).count t := by
  unfold snapshotOf
  dsimp only
  cases hs : m.reactor.getNotifier s with
  | none =>
      rw [targets_of_none hs]
      rfl
  | some p =>
      rw [targets_of_some hs, List.count_eq_countP, List.countP_map]
      apply List.countP_congr
      intro o ho
      rw [callsTarget_iff, Function.comp_apply, beq_iff_eq]
      constructor
      · exact fun h => h.2.2
      · intro h
        refine ⟨hids.enabled p o ho, ?_, h⟩
        rw [Observer.accepts, h]
        exact beq_self_eq_true _

/-- In every other one it is not at all. -/
theorem countP_other {m : Machine} (h : InRound m) {t : Target} {s : SocketId}
    (hhome : Home m t s) {task : Task} (hround : (∃ s' kind, task = .socket s' kind) ∨
      task.kind = .timeout) (hne : task ≠ .socket s t.method.kind) :
    (snapshotOf m.reactor task).countP (callsTarget m.reactor task.kind t) = 0 := by
  rw [List.countP_eq_zero]
  intro o ho hcalls
  obtain ⟨-, haccepts, rfl⟩ := callsTarget_iff.mp hcalls
  obtain ⟨s', ht, hsocket⟩ := target_of_snapshot h.safe.wf ho
  have hkind : o.target.method.kind = task.kind := beq_iff_eq.mp haccepts
  rcases hround with ⟨s'', kind, rfl⟩ | htimeout
  · obtain rfl := hsocket s'' kind rfl
    obtain rfl := hhome.unique (home_of_registered h.safe ht)
    rw [hkind] at hne
    exact hne rfl
  · rw [htimeout] at hkind
    cases hm : o.target.method <;> rw [hm] at hkind <;> cases hkind

/-- The turn of a task: what it adds to the snapshot is what it takes from the tasks. -/
theorem waiting_dispatched {m m' : Machine} (h : InRound m) {t : Target} {s : SocketId}
    (hhome : Home m t s) {task : Task} {rest : List Task} (htasks : m.tasks = task :: rest)
    (hsnapshot : m.observersToNotify = []) (hrest : m'.tasks = rest)
    (hobservers : m'.observersToNotify = snapshotOf m.reactor task)
    (hnotification : m'.observersToNotify ≠ [] → m'.notification = task.kind)
    (hreactor : m'.reactor = m.reactor) :
    waiting t s m' ≤ waiting t s m ∧
      (t ∈ targets m.reactor s → waiting t s m' = waiting t s m) := by
  have hcount : m'.observersToNotify.countP (callsTarget m'.reactor m'.notification t)
      = (snapshotOf m.reactor task).countP (callsTarget m.reactor task.kind t) := by
    rw [hreactor, hobservers]
    by_cases hnil : snapshotOf m.reactor task = []
    · rw [hnil]
      rfl
    · rw [hnotification (hobservers ▸ hnil)]
  have hbefore : waiting t s m = rest.count (.socket s t.method.kind)
      + (if task = .socket s t.method.kind then 1 else 0) := by
    rw [waiting, htasks, hsnapshot, List.count_cons, List.countP_nil, Nat.add_zero]
    congr 1
    exact if_congr beq_iff_eq rfl rfl
  rw [hbefore, waiting, hrest, hcount]
  by_cases htask : task = .socket s t.method.kind
  · subst htask
    rw [if_pos rfl]
    change _ + (snapshotOf m.reactor (.socket s t.method.kind)).countP
      (callsTarget m.reactor t.method.kind t) ≤ _ ∧ (_ → _ + (snapshotOf m.reactor
        (.socket s t.method.kind)).countP (callsTarget m.reactor t.method.kind t) = _)
    rw [countP_own h.ids]
    have hle := List.nodup_iff_count_le_one.mp (h.nodup s) t
    refine ⟨Nat.add_le_add_left hle _, fun ht => ?_⟩
    rw [List.count_eq_one_of_mem (h.nodup s) ht]
  · rw [if_neg htask, countP_other h hhome (h.timeout _ (htasks ▸ List.mem_cons_self)) htask]
    exact ⟨le_rfl, fun _ => rfl⟩

/-- The turn of an observer that is called. -/
theorem waiting_called {m m' : Machine} {l : Label} (h : InRound m) (hstep : Step m l m')
    {t : Target} {s : SocketId} {o : Observer} {rest : List Observer} (hl : isCall l = true)
    (hsnapshot : m.observersToNotify = o :: rest) (hcall : m.nextCall = some o.target)
    (htasks : m'.tasks = m.tasks) (hnotification : m'.notification = m.notification)
    (hrest : m'.observersToNotify = rest ∨ m'.observersToNotify = [])
    (hreturns : Returns m l → m'.observersToNotify = rest) :
    waiting t s m' + (calls t m l).toNat ≤ waiting t s m ∧
      (t ∈ targets m'.reactor s → Returns m l →
        waiting t s m' + (calls t m l).toNat = waiting t s m) := by
  obtain ⟨o', rest', hobs, -, henabled, haccepts⟩ := head_of_nextCall hcall
  obtain ⟨rfl, rfl⟩ := List.cons.inj (hsnapshot.symm.trans hobs)
  have hcalls : (calls t m l).toNat
      = if callsTarget m.reactor m.notification t o then 1 else 0 := by
    have hiff : callsTarget m.reactor m.notification t o = true ↔ o.target = t := by
      rw [callsTarget_iff]
      exact ⟨fun hc => hc.2.2, fun ht => ⟨henabled, haccepts, ht⟩⟩
    simp only [calls, hl, hcall, Bool.true_and, Option.some.injEq]
    by_cases ht : o.target = t
    · rw [if_pos (hiff.mpr ht), decide_eq_true ht]
      rfl
    · rw [if_neg fun hc => ht (hiff.mp hc), decide_eq_false ht]
      rfl
  have hmono : ∀ x, callsTarget m'.reactor m'.notification t x = true →
      callsTarget m.reactor m.notification t x = true := by
    intro x hx
    rw [callsTarget_iff, hnotification] at hx
    rw [callsTarget_iff]
    exact ⟨fun hd => hx.1 (disabled_step h.safe hstep _ hd), hx.2⟩
  have hle : rest.countP (callsTarget m'.reactor m'.notification t)
      ≤ rest.countP (callsTarget m.reactor m.notification t) :=
    List.countP_mono_left fun x _ => hmono x
  rw [waiting, waiting, htasks, hsnapshot, List.countP_cons, hcalls]
  constructor
  · rcases hrest with heq | heq
    · rw [heq]
      omega
    · rw [heq, List.countP_nil]
      omega
  · intro ht hret
    -- an enabled observer of the target is not disabled by the call
    have heq : rest.countP (callsTarget m'.reactor m'.notification t)
        = rest.countP (callsTarget m.reactor m.notification t) := by
      refine List.countP_congr fun x hx => ⟨hmono x, fun hc => ?_⟩
      obtain ⟨hen, hacc, htarget⟩ := callsTarget_iff.mp hc
      obtain ⟨p, hp⟩ := h.safe.snapshot x (hsnapshot ▸ List.mem_cons_of_mem _ hx) hen
      rw [callsTarget_iff, hnotification]
      exact ⟨enabled_of_registered h.safe h.ids hstep hp (s := s) (htarget ▸ ht), hacc, htarget⟩
    rw [hreturns hret, heq]
    omega

/-- **One step of a round**: what is still to come gets less by what is called, or by more if
observers are lost. -/
theorem waiting_step {m m' : Machine} {l : Label} (h : InRound m) {t : Target} {s : SocketId}
    (hhome : Home m t s) (hstep : Step m l m') (hl : opensRound l = false) :
    waiting t s m' + (calls t m l).toNat ≤ waiting t s m ∧
      (t ∈ targets m'.reactor s → Returns m l →
        waiting t s m' + (calls t m l).toNat = waiting t s m) := by
  have hsame : waiting t s m' = waiting t s m → calls t m l = false →
      waiting t s m' + (calls t m l).toNat ≤ waiting t s m ∧
        (t ∈ targets m'.reactor s → Returns m l →
          waiting t s m' + (calls t m l).toNat = waiting t s m) := by
    intro heq hcalls
    rw [heq, hcalls]
    exact ⟨le_rfl, fun _ _ => rfl⟩
  cases round_step h.safe hstep hl with
  | outside hl htasks hsnapshot hnotification hreactor =>
      refine hsame ?_ ?_
      · rw [waiting, waiting, htasks, hsnapshot, hnotification, hreactor]
      · cases l <;> first | rfl | cases hl
  | posted kind rest delegates hl htasks hsnapshot heq =>
      subst hl heq
      refine hsame ?_ rfl
      have hzero : (delegates.map (Task.notifier · kind)).count (.socket s t.method.kind) = 0 := by
        rw [List.count_eq_zero]
        intro hmem
        obtain ⟨p, -, heq⟩ := List.mem_map.mp hmem
        cases heq
      have hother : ¬ (Task.broadcast kind == .socket s t.method.kind) = true :=
        fun hbeq => by cases beq_iff_eq.mp hbeq
      rw [waiting, waiting, htasks]
      dsimp only
      rw [List.count_append, hzero, Nat.zero_add, List.count_cons, if_neg hother]
      rfl
  | dispatched task rest hl htasks hbroadcast hsnapshot hrest hobservers hnotification hreactor =>
      obtain ⟨hle, heq⟩ :=
        waiting_dispatched h hhome htasks hsnapshot hrest hobservers hnotification hreactor
      subst hl
      exact ⟨hle, fun ht _ => heq (hreactor ▸ ht)⟩
  | passed o rest hl hsnapshot hcall heq =>
      subst hl heq
      refine hsame ?_ rfl
      have hnot : ¬ callsTarget m.reactor m.notification t o = true := by
        intro hc
        obtain ⟨henabled, haccepts, -⟩ := callsTarget_iff.mp hc
        rw [Machine.nextCall, hsnapshot] at hcall
        dsimp only at hcall
        rw [if_pos ⟨henabled, haccepts⟩] at hcall
        cases hcall
      rw [waiting, waiting, hsnapshot, List.countP_cons, if_neg hnot]
      rfl
  | called o rest hl hsnapshot hcall htasks hnotification hrest hreturns =>
      exact waiting_called h hstep hl hsnapshot hcall htasks hnotification hrest hreturns

/-- **A part of a round.** -/
theorem waiting_run {m : Machine} (h : InRound m) {t : Target} {s : SocketId}
    (hhome : Home m t s) {ts : List (Transition Machine Label)} (hrun : IsRun Step m ts)
    (hround : ∀ u ∈ ts, opensRound u.label = false) :
    waiting t s (last m ts) + ts.countP (fun u => calls t u.src u.label) ≤ waiting t s m ∧
      (t ∈ targets (last m ts).reactor s → (∀ u ∈ ts, Returns u.src u.label) →
        t ∈ targets m.reactor s ∧
          waiting t s (last m ts) + ts.countP (fun u => calls t u.src u.label)
            = waiting t s m) := by
  induction ts generalizing m with
  | nil => exact ⟨le_rfl, fun ht _ => ⟨ht, rfl⟩⟩
  | cons u us ih =>
      obtain ⟨rfl, hu, hus⟩ := hrun
      have hl := hround u List.mem_cons_self
      obtain ⟨hle, heq⟩ := waiting_step h hhome hu hl
      obtain ⟨hrest, hexact⟩ := ih (h.step hu hl) (hhome.step h.safe hu) hus
        fun v hv => hround v (List.mem_cons_of_mem _ hv)
      have hcount : (u :: us).countP (fun u => calls t u.src u.label)
          = us.countP (fun u => calls t u.src u.label) + (calls t u.src u.label).toNat := by
        rw [List.countP_cons]
        cases calls t u.src u.label <;> rfl
      rw [last, hcount]
      refine ⟨by omega, fun ht hreturns => ?_⟩
      obtain ⟨hdst, hlast⟩ := hexact ht fun v hv => hreturns v (List.mem_cons_of_mem _ hv)
      refine ⟨registered_before h.safe hu hhome hdst, ?_⟩
      have hthis := heq hdst (hreturns u List.mem_cons_self)
      omega

/-! ## The beginning of a round -/

/-- The mode has the bit that stands for this notification. -/
def modeHas (mode : PollMode) : NotificationKind → Bool
  | .readable => mode.read
  | .writable => mode.write
  | .error => mode.error
  | _ => false

/-- The poll has returned this bit for the socket. -/
def reports (result : List (SocketId × PollMode)) (s : SocketId) (kind : NotificationKind) : Bool :=
  result.any fun e => decide (e.1 = s) && modeHas e.2 kind

theorem count_entryTasks (e : SocketId × PollMode) (s : SocketId) (kind : NotificationKind) :
    (entryTasks e).count (.socket s kind) = (decide (e.1 = s) && modeHas e.2 kind).toNat := by
  obtain ⟨s', read, write, error⟩ := e
  unfold entryTasks
  by_cases hs : s' = s
  · subst hs
    cases kind <;> cases read <;> cases write <;> cases error <;>
      simp [modeHas]
  · have hne : ∀ kind', (Task.socket s' kind' == .socket s kind) = false := by
      intro kind'
      exact beq_eq_false_iff_ne.mpr fun heq => hs (Task.socket.inj heq).1
    rw [decide_eq_false hs, Bool.false_and]
    cases read <;> cases write <;> cases error <;> simp [List.count_cons, hne]

/-- A socket is dispatched once for each bit that has been returned for it. -/
theorem count_roundTasks {result : List (SocketId × PollMode)}
    (hnodup : (result.map Prod.fst).Nodup) (s : SocketId) (kind : NotificationKind) :
    (roundTasks result).count (.socket s kind) = (reports result s kind).toNat := by
  have htail : (if result.any (fun e => e.2.read) then [] else [Task.broadcast .timeout]).count
      (Task.socket s kind) = 0 := by
    split
    · rfl
    · rw [List.count_eq_zero, List.mem_singleton]
      exact fun heq => by cases heq
  rw [roundTasks, List.count_append, htail, Nat.add_zero]
  clear htail
  induction result with
  | nil => rfl
  | cons e es ih =>
      obtain ⟨hnot, hnodup⟩ := List.nodup_cons.mp hnodup
      rw [List.flatMap_cons, List.count_append, count_entryTasks, ih hnodup, reports, reports,
        List.any_cons]
      cases hhead : decide (e.1 = s) && modeHas e.2 kind with
      | false => simp only [Bool.toNat_false, Nat.zero_add, Bool.false_or]
      | true =>
          -- the socket is not in the rest
          have hs : e.1 = s := of_decide_eq_true (Bool.and_eq_true _ _ ▸ hhead).1
          have hrest : (es.any fun e => decide (e.1 = s) && modeHas e.2 kind) = false := by
            rw [List.any_eq_false]
            intro x hx hhas
            have hxs : x.1 = s := of_decide_eq_true (Bool.and_eq_true _ _ ▸ hhas).1
            exact hnot (hs ▸ hxs ▸ List.mem_map_of_mem hx)
          rw [hrest]
          rfl

/-- The poll has returned. -/
theorem inRound_polled {m : Machine} (h : m.Safe) (hids : Ids m.reactor)
    (haccept : targets m.reactor m.server.id = [Machine.acceptTarget])
    {result : List (SocketId × PollMode)} (hadm : Admissible m (.poll (some result))) :
    InRound (step m (.poll (some result))) := by
  have hstep : Step m (.poll (some result)) (step m (.poll (some result))) := ⟨hadm, rfl⟩
  obtain ⟨hsafe', hids'⟩ := ids_step ⟨h, hids⟩ hstep
  refine ⟨hsafe', hids', (acceptor_step ⟨h, haccept⟩ hstep).2, fun task htask => ?_⟩
  rcases List.mem_append.mp htask with hentry | hlast
  · obtain ⟨e, -, he⟩ := List.mem_flatMap.mp hentry
    left
    unfold entryTasks at he
    rcases List.mem_append.mp he with he | he
    · rcases List.mem_append.mp he with he | he
      · split at he
        · exact ⟨_, _, List.mem_singleton.mp he⟩
        · cases he
      · split at he
        · exact ⟨_, _, List.mem_singleton.mp he⟩
        · cases he
    · split at he
      · exact ⟨_, _, List.mem_singleton.mp he⟩
      · cases he
  · right
    split at hlast
    · cases hlast
    · rw [List.mem_singleton.mp hlast]
      rfl

/-- What holds of every state that a reactor gets into. -/
theorem reachable_reactor (sockfd : Fd) {ts : List (Transition Machine Label)}
    (hrun : IsRun Step (Machine.listening sockfd) ts) :
    (last (Machine.listening sockfd) ts).Safe ∧
      Ids (last (Machine.listening sockfd) ts).reactor ∧
      targets (last (Machine.listening sockfd) ts).reactor
        (last (Machine.listening sockfd) ts).server.id = [Machine.acceptTarget] := by
  have hids := invariant_states (I := fun m => m.Safe ∧ Ids m.reactor)
    (fun _ _ _ h hstep => ids_step h hstep) ⟨listening_safe sockfd, listening_ids sockfd⟩ hrun
    _ (last_mem_states _ _)
  have haccept := invariant_states
    (I := fun m => m.Safe ∧ targets m.reactor m.server.id = [Machine.acceptTarget])
    (fun _ _ _ h hstep => acceptor_step h hstep)
    ⟨listening_safe sockfd, acceptor_listening sockfd⟩ hrun _ (last_mem_states _ _)
  exact ⟨hids.1, hids.2, haccept.2⟩

/-! ## Deliveries -/

/-- A round, from the state in which its poll returns. -/
theorem delivered_of_polled {m : Machine} (hsafe : m.Safe) (hids : Ids m.reactor)
    (haccept : targets m.reactor m.server.id = [Machine.acceptTarget])
    {result : List (SocketId × PollMode)} (hnodup : (result.map Prod.fst).Nodup)
    (hpoll : Admissible m (.poll (some result))) {ts : List (Transition Machine Label)}
    (hrun : IsRun Step (step m (.poll (some result))) ts)
    (hround : ∀ u ∈ ts, opensRound u.label = false) {t : Target} {s : SocketId}
    (ht : t ∈ targets m.reactor s) :
    ts.countP (fun u => calls t u.src u.label) ≤ (reports result s t.method.kind).toNat ∧
      (Finished (last (step m (.poll (some result))) ts) →
        (∀ u ∈ ts, Returns u.src u.label) →
        t ∈ targets (last (step m (.poll (some result))) ts).reactor s →
        ts.countP (fun u => calls t u.src u.label)
          = (reports result s t.method.kind).toNat) := by
  have hstart := inRound_polled hsafe hids haccept hpoll
  have ht' : t ∈ targets (step m (.poll (some result))).reactor s := ht
  have hwaiting : waiting t s (step m (.poll (some result)))
      = (reports result s t.method.kind).toNat := by
    rw [← count_roundTasks hnodup, waiting]
    change (roundTasks result).count _ + m.observersToNotify.countP _ = _
    rw [hpoll.1.2.1, List.countP_nil, Nat.add_zero]
  obtain ⟨hle, hexact⟩ := waiting_run hstart (home_of_registered hstart.safe ht') hrun hround
  rw [hwaiting] at hle hexact
  refine ⟨by omega, fun hfinished hreturns hlast => ?_⟩
  -- at the end nothing is waiting any more
  have hzero : ∀ m', Finished m' → waiting t s m' = 0 := by
    rintro m' ⟨htasks, hobs⟩
    rw [waiting, htasks, hobs]
    rfl
  have heq := (hexact hlast hreturns).2
  rw [hzero _ hfinished, Nat.zero_add] at heq
  exact heq

/-- **What a round delivers.** The poll of a reactor returns, and steps of this round follow. A
target that is registered for a socket when the poll returns is called at most once in them, and
not at all unless the poll has returned the bit for its kind of notification. When the round has
come to its end, no exception has left a callback and the target is still registered, it has been
called exactly once if the bit was returned. -/
theorem round_delivers (sockfd : Fd) {before : List (Transition Machine Label)}
    (hbefore : IsRun Step (Machine.listening sockfd) before)
    {result : List (SocketId × PollMode)} (hnodup : (result.map Prod.fst).Nodup)
    (hpoll : Admissible (last (Machine.listening sockfd) before) (.poll (some result)))
    {ts : List (Transition Machine Label)}
    (hrun : IsRun Step (step (last (Machine.listening sockfd) before) (.poll (some result))) ts)
    (hround : ∀ u ∈ ts, opensRound u.label = false) {t : Target} {s : SocketId}
    (ht : t ∈ targets (last (Machine.listening sockfd) before).reactor s) :
    ts.countP (fun u => calls t u.src u.label) ≤ (reports result s t.method.kind).toNat ∧
      (Finished (last (step (last (Machine.listening sockfd) before) (.poll (some result))) ts) →
        (∀ u ∈ ts, Returns u.src u.label) →
        t ∈ targets (last (step (last (Machine.listening sockfd) before)
          (.poll (some result))) ts).reactor s →
        ts.countP (fun u => calls t u.src u.label)
          = (reports result s t.method.kind).toNat) := by
  obtain ⟨hsafe, hids, haccept⟩ := reachable_reactor sockfd hbefore
  exact delivered_of_polled hsafe hids haccept hnodup hpoll hrun hround ht

/-- A session is accepted and connects; its back socket is writable and there are two bytes in
front. -/
def beforeRound : List Label :=
  [.poll (some [(0, ⟨true, false, false⟩)]), .dispatch,
   .accept (some ⟨5, sampleSetup .byPass, {}⟩), .connectDone 0 .succeeded, .arrive 0 .front [1, 2]]

def sampleRound : List Label :=
  [.dispatch, .notify {}, .skip, .stop, .skip, .skip,
   .dispatch, .notify { receive := .bytes 1 [2], send := .accepts 2 }, .skip, .skip]

theorem isRun_beforeRound :
    IsRun Step (Machine.listening 3) (unroll step (Machine.listening 3) beforeRound) :=
  isRun_unroll (by decide +kernel)

theorem round_delivers_sampleRound :
    let m := step (last (Machine.listening 3) (unroll step (Machine.listening 3) beforeRound))
      (.poll (some [(2, ⟨false, true, false⟩), (1, ⟨true, false, false⟩)]))
    (unroll step m sampleRound).countP
        (fun u => calls ⟨.session 0, .onFrontReadable⟩ u.src u.label) ≤ 1 ∧
      (Finished (last m (unroll step m sampleRound)) →
        (∀ u ∈ unroll step m sampleRound, Returns u.src u.label) →
        ⟨.session 0, .onFrontReadable⟩
          ∈ targets (last m (unroll step m sampleRound)).reactor 1 →
        (unroll step m sampleRound).countP
          (fun u => calls ⟨.session 0, .onFrontReadable⟩ u.src u.label) = 1) :=
  round_delivers 3 isRun_beforeRound (by decide) (by decide +kernel)
    (isRun_unroll (A := Admissible) (by decide +kernel)) (by decide) (s := 1) (by decide +kernel)

/-! ## The end of a round -/

/-- What is left of a round: broadcasts, then tasks, then observers. -/
def left (m : Machine) : ℕ ×ₗ ℕ ×ₗ ℕ :=
  toLex (m.tasks.countP Task.isBroadcast, toLex (m.tasks.length, m.observersToNotify.length))

theorem left_lt_of_tasks {m m' : Machine}
    (hbroadcasts : m'.tasks.countP Task.isBroadcast = m.tasks.countP Task.isBroadcast)
    (hless : m'.tasks.length < m.tasks.length) : left m' < left m := by
  rw [left, left, hbroadcasts]
  exact Prod.Lex.toLex_lt_toLex.mpr (.inr ⟨rfl, Prod.Lex.toLex_lt_toLex.mpr (.inl hless)⟩)

theorem left_lt_of_snapshot {m m' : Machine} (htasks : m'.tasks = m.tasks)
    (hless : m'.observersToNotify.length < m.observersToNotify.length) : left m' < left m := by
  rw [left, left, htasks]
  exact Prod.Lex.toLex_lt_toLex.mpr
    (.inr ⟨rfl, Prod.Lex.toLex_lt_toLex.mpr (.inr ⟨rfl, hless⟩)⟩)

/-- **Every step of the reactor leaves less.** -/
theorem left_step {m m' : Machine} {l : Label} (h : m.Safe) (hstep : Step m l m')
    (hl : opensRound l = false) :
    isReactorStep l = false ∧ left m' = left m ∨ left m' < left m := by
  cases round_step h hstep hl with
  | outside hl htasks hsnapshot hnotification hreactor =>
      exact .inl ⟨hl, by rw [left, left, htasks, hsnapshot]⟩
  | posted kind rest delegates hl htasks hsnapshot heq =>
      -- there is a broadcast less, and nothing else counts
      right
      have hnone : (delegates.map (Task.notifier · kind)).countP Task.isBroadcast = 0 := by
        rw [List.countP_eq_zero]
        intro task htask
        obtain ⟨p, -, rfl⟩ := List.mem_map.mp htask
        exact Bool.false_ne_true
      rw [left, left, heq, htasks]
      refine Prod.Lex.toLex_lt_toLex.mpr (.inl ?_)
      dsimp only
      rw [List.countP_append, hnone, Nat.zero_add, List.countP_cons_of_pos rfl]
      exact Nat.lt_succ_self _
  | dispatched task rest hl htasks hbroadcast hsnapshot hrest hobservers hnotification hreactor =>
      right
      apply left_lt_of_tasks
      · rw [hrest, htasks, List.countP_cons_of_neg (by rw [hbroadcast]; exact Bool.false_ne_true)]
      · rw [hrest, htasks, List.length_cons]
        exact Nat.lt_succ_self _
  | passed o rest hl hsnapshot hcall heq =>
      right
      apply left_lt_of_snapshot
      · rw [heq]
      · rw [heq, hsnapshot, List.length_cons]
        exact Nat.lt_succ_self _
  | called o rest hl hsnapshot hcall htasks hnotification hrest hreturns =>
      right
      apply left_lt_of_snapshot htasks
      rw [hsnapshot, List.length_cons]
      rcases hrest with heq | heq
      · rw [heq]
        exact Nat.lt_succ_self _
      · rw [heq]
        exact Nat.succ_pos _

/-- **The reactor is never stuck** in the middle of a round: there is a next step, and it need
not be a new session. -/
theorem round_goes_on {m : Machine} (h : m.Safe) (hnot : ¬ Finished m) :
    ∃ l m', isReactorStep l = true ∧ opensRound l = false ∧ (∀ a, l ≠ .accept (some a)) ∧
      PocoStep m l m' := by
  cases hobs : m.observersToNotify with
  | cons o rest =>
      cases hcall : m.nextCall with
      | none =>
          have hne : m.observersToNotify ≠ [] := by
            rw [hobs]
            exact List.cons_ne_nil _ _
          exact ⟨.skip, _, rfl, rfl, by simp, ⟨⟨hne, hcall⟩, rfl⟩, trivial⟩
      | some t =>
          obtain ⟨o', rest', hobs', htarget, henabled, -⟩ := head_of_nextCall hcall
          have hmem : o' ∈ m.observersToNotify := by
            rw [hobs']
            exact List.mem_cons_self
          rcases h.called hmem henabled with haccept | ⟨i, -, -, -, ⟨d, ht⟩, -⟩
          · -- the acceptor, and `acceptConnection` throws
            rw [← htarget, haccept] at hcall
            refine ⟨.accept none, _, rfl, rfl, by simp, ⟨⟨hcall, ?_⟩, rfl⟩, trivial⟩
            intro a ha
            cases ha
          · -- a session, and the stream has ended
            obtain ⟨method, -, heq⟩ := List.mem_map.mp ht
            rw [← htarget, ← heq] at hcall
            refine ⟨.notify { receive := .endOfStream }, _, rfl, rfl, by simp, ⟨?_, rfl⟩,
              fun x hx d hd hconnected => trivial⟩
            rw [Admissible, hcall]
            rfl
  | nil =>
      cases htasks : m.tasks with
      | nil => exact absurd ⟨htasks, hobs⟩ hnot
      | cons task rest =>
          cases hbroadcast : task.isBroadcast with
          | true =>
              refine ⟨.broadcast _, _, rfl, rfl, by simp, ⟨⟨hobs, ?_, .refl _⟩, rfl⟩, trivial⟩
              rw [htasks, List.head?_cons, Option.map_some, hbroadcast]
          | false =>
              refine ⟨.dispatch, _, rfl, rfl, by simp, ⟨⟨hobs, ?_⟩, rfl⟩, trivial⟩
              rw [htasks, List.head?_cons, Option.map_some, hbroadcast]

/-- In the middle of a round: the back socket has been handled, and the front socket has not. -/
def midRound : Machine :=
  last (Machine.listening 3) (unroll step (Machine.listening 3) (beforeRound ++
    [.poll (some [(2, ⟨false, true, false⟩), (1, ⟨true, false, false⟩)]), .dispatch, .notify {}]))

theorem isRun_midRound :
    IsRun Step (Machine.listening 3) (unroll step (Machine.listening 3) (beforeRound ++
      [.poll (some [(2, ⟨false, true, false⟩), (1, ⟨true, false, false⟩)]), .dispatch,
        .notify {}])) :=
  isRun_unroll (by decide +kernel)

end PocoProxy.ReactorLoop
