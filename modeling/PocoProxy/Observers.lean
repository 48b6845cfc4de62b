/-
The identity of observers.

A broadcast and a dispatch work on snapshots, and whether an observer of the snapshot
is still called is decided by its object having been set to null, which is by its `id`
being in `disabled`. That is harmless for the others only because no two observers
have one `id`, and because nobody in a list is disabled: `Ids`. So taking out the
handlers of one object disables its observers and no others (`Removes`).
-/
import PocoProxy.ReactorRun

set_option autoImplicit false

namespace PocoProxy.Reactor

open PocoProxy.Socket PocoProxy.PollSet PocoProxy.Registry

/-! ## The invariant -/

/-- Every observer in a list has an `id` of its own, given out already, and is enabled. -/
structure Ids (r : SocketReactor) : Prop where
  nodup : ∀ p, ((r.notifiers p).observers.map Observer.id).Nodup
  apart : ∀ p q o o', o ∈ (r.notifiers p).observers → o' ∈ (r.notifiers q).observers →
    o.id = o'.id → p = q
  enabled : ∀ p, ∀ o ∈ (r.notifiers p).observers, o.id ∉ r.disabled
  used : ∀ p, ∀ o ∈ (r.notifiers p).observers, o.id < r.nextObserver
  past : ∀ i ∈ r.disabled, i < r.nextObserver

namespace Ids

variable {r r' : SocketReactor}

theorem empty : Ids {} where
  nodup p := List.nodup_nil
  apart p q o o' ho := by cases ho
  enabled p o ho := by cases ho
  used p o ho := by cases ho
  past i hi := absurd hi (Finset.notMem_empty i)

/-- An observer is known by its `id`. -/
theorem eq_of_id (h : Ids r) {p q : NotifierPtr} {o o' : Observer}
    (ho : o ∈ (r.notifiers p).observers) (ho' : o' ∈ (r.notifiers q).observers)
    (hid : o.id = o'.id) : o = o' := by
  obtain rfl := h.apart p q o o' ho ho' hid
  exact List.inj_on_of_nodup_map (h.nodup p) ho ho' hid

/-- Lists may get shorter. -/
theorem mono (h : Ids r)
    (hsub : ∀ p, (r'.notifiers p).observers.Sublist (r.notifiers p).observers)
    (hdisabled : r'.disabled = r.disabled) (hnext : r'.nextObserver = r.nextObserver) : Ids r' where
  nodup p := (h.nodup p).sublist ((hsub p).map _)
  apart p q o o' ho ho' := h.apart p q o o' ((hsub p).subset ho) ((hsub q).subset ho')
  enabled p o ho := hdisabled ▸ h.enabled p o ((hsub p).subset ho)
  used p o ho := hnext ▸ h.used p o ((hsub p).subset ho)
  past i hi := by
    rw [hnext]
    exact h.past i (hdisabled ▸ hi)

theorem addObserver (h : Ids r) (p : NotifierPtr) (t : Target) : Ids (r.addObserver p t) := by
  -- the new observer is in the one list, with the next `id`
  have hcases : ∀ q, ∀ o ∈ ((r.addObserver p t).notifiers q).observers,
      o ∈ (r.notifiers q).observers ∨ q = p ∧ o = ⟨r.nextObserver, t⟩ := by
    intro q o ho
    rw [addObserver_notifiers] at ho
    by_cases e : q = p
    · rw [e, Function.update_self] at ho
      rcases List.mem_append.mp ho with ho | ho
      · exact .inl (e ▸ ho)
      · exact .inr ⟨e, List.mem_singleton.mp ho⟩
    · rw [Function.update_of_ne e] at ho
      exact .inl ho
  refine ⟨?_, ?_, ?_, ?_, ?_⟩
  · intro q
    rw [addObserver_notifiers]
    by_cases e : q = p
    · rw [e, Function.update_self, SocketNotifier.addObserver, List.map_append, List.map_singleton]
      -- the `id`s in the list are smaller than the new one
      refine (h.nodup p).append (List.nodup_singleton _) ?_
      intro i hi hnew
      obtain ⟨o, ho, rfl⟩ := List.mem_map.mp hi
      exact absurd (List.mem_singleton.mp hnew) (Nat.ne_of_lt (h.used p o ho))
    · rw [Function.update_of_ne e]
      exact h.nodup q
  · intro q q' o o' ho ho' hid
    rcases hcases q o ho with hold | ⟨hq, hnew⟩ <;>
      rcases hcases q' o' ho' with hold' | ⟨hq', hnew'⟩
    · exact h.apart q q' o o' hold hold' hid
    · rw [hnew'] at hid
      exact absurd hid (Nat.ne_of_lt (h.used q o hold))
    · rw [hnew] at hid
      exact absurd hid.symm (Nat.ne_of_lt (h.used q' o' hold'))
    · rw [hq, hq']
  · intro q o ho hdisabled
    rcases hcases q o ho with ho | ⟨-, rfl⟩
    · exact h.enabled q o ho hdisabled
    · exact absurd (h.past _ hdisabled) (Nat.lt_irrefl _)
  · intro q o ho
    rcases hcases q o ho with ho | ⟨-, rfl⟩
    · exact Nat.lt_succ_of_lt (h.used q o ho)
    · exact Nat.lt_succ_self _
  · intro i hi
    exact Nat.lt_succ_of_lt (h.past i hi)

theorem getOrMakeNotifier (h : Ids r) (s : SocketId) : Ids (r.getOrMakeNotifier s).2 := by
  unfold SocketReactor.getOrMakeNotifier
  split
  · exact h
  · -- a new notifier has no observers
    refine h.mono (fun p => ?_) rfl rfl
    change (Function.update r.notifiers r.nextNotifier {} p).observers.Sublist _
    by_cases e : p = r.nextNotifier
    · rw [e, Function.update_self]
      exact List.nil_sublist _
    · rw [Function.update_of_ne e]

theorem setPollSet (h : Ids r) (p : PollSetImpl) : Ids { r with pollSet := p } :=
  ⟨h.nodup, h.apart, h.enabled, h.used, h.past⟩

theorem addEventHandler (h : Ids r) (socket : SocketImpl) (t : Target) :
    Ids (r.addEventHandler socket t) := by
  have hset : ∀ r' : SocketReactor, Ids r' → ∀ mode : PollMode,
      Ids (if mode.nonzero = true then { r' with pollSet := r'.pollSet.add socket mode }
        else r') := by
    intro r' hr' mode
    split
    · exact hr'.setPollSet _
    · exact hr'
  have hmake := h.getOrMakeNotifier socket.id
  unfold SocketReactor.addEventHandler
  rcases hr₁ : r.getOrMakeNotifier socket.id with ⟨p, r₁⟩
  rw [hr₁] at hmake
  dsimp only at hmake ⊢
  by_cases hobs : (r₁.notifiers p).hasObserver t = true
  · rw [if_pos hobs]
    exact hset _ hmake _
  · rw [if_neg hobs]
    exact hset _ (hmake.addObserver p t) _

end Ids

/-! ## Taking out the handlers of an object -/

/-- What it comes to: lists get shorter, and who is disabled by it belongs to the object. -/
structure Removes (r r' : SocketReactor) (object : ObjectId) : Prop where
  ids : Ids r'
  observers : ∀ p, (r'.notifiers p).observers.Sublist (r.notifiers p).observers
  disabled : ∀ i ∈ r'.disabled, i ∈ r.disabled ∨
    ∃ p, ∃ o ∈ (r.notifiers p).observers, o.id = i ∧ o.target.object = object

namespace Removes

variable {r r₁ r₂ r₃ : SocketReactor} {object : ObjectId}

theorem refl (h : Ids r) (object : ObjectId) : Removes r r object :=
  ⟨h, fun _ => .refl _, fun _ hi => .inl hi⟩

theorem trans (h : Removes r₁ r₂ object) (h' : Removes r₂ r₃ object) : Removes r₁ r₃ object where
  ids := h'.ids
  observers p := (h'.observers p).trans (h.observers p)
  disabled i hi := by
    rcases h'.disabled i hi with hi | ⟨p, o, ho, hid, htarget⟩
    · exact h.disabled i hi
    · exact .inr ⟨p, o, (h.observers p).subset ho, hid, htarget⟩

theorem setPollSet (h : Removes r₁ r₂ object) (p : PollSetImpl) :
    Removes r₁ { r₂ with pollSet := p } object :=
  ⟨h.ids.setPollSet p, h.observers, h.disabled⟩

end Removes

/-- The observer that is found first is the one that goes. -/
theorem not_mem_eraseP_of_find? {l : List Observer} {q : Observer → Bool} {o : Observer}
    (h : (l.map Observer.id).Nodup) (hfind : l.find? q = some o) : o ∉ l.eraseP q := by
  induction l with
  | nil => cases hfind
  | cons a l ih =>
      obtain ⟨hnot, hnodup⟩ := List.nodup_cons.mp h
      by_cases hq : q a = true
      · rw [List.find?_cons_of_pos hq, Option.some.injEq] at hfind
        rw [List.eraseP_cons_of_pos hq, ← hfind]
        exact fun hmem => hnot (List.mem_map_of_mem hmem)
      · rw [List.find?_cons_of_neg hq] at hfind
        rw [List.eraseP_cons_of_neg hq, List.mem_cons, not_or]
        refine ⟨?_, ih hnodup hfind⟩
        rintro rfl
        exact hnot (List.mem_map_of_mem (List.mem_of_find?_eq_some hfind))

theorem removeObserver_removes {r : SocketReactor} (h : Ids r) (p : NotifierPtr) (t : Target) :
    Removes r (r.removeObserver p t) t.object := by
  have hsub : ∀ q, ((r.removeObserver p t).notifiers q).observers.Sublist
      (r.notifiers q).observers := by
    intro q
    rw [removeObserver_notifiers]
    by_cases e : q = p
    · rw [e, Function.update_self]
      exact List.eraseP_sublist
    · rw [Function.update_of_ne e]
  -- who is disabled now was disabled, or has left the list
  have hdisabled : ∀ i ∈ (r.removeObserver p t).disabled, i ∈ r.disabled ∨
      ∃ o ∈ (r.notifiers p).observers, o.id = i ∧ o.target = t ∧
        o ∉ ((r.removeObserver p t).notifiers p).observers := by
    intro i hi
    unfold SocketReactor.removeObserver at hi
    dsimp only at hi
    split at hi
    · rename_i o hfind
      rcases Finset.mem_insert.mp hi with rfl | hi
      · refine .inr ⟨o, List.mem_of_find?_eq_some hfind, rfl, ?_, ?_⟩
        · simpa using List.find?_some hfind
        · rw [removeObserver_notifiers, Function.update_self]
          exact not_mem_eraseP_of_find? (h.nodup p) hfind
      · exact .inl hi
    · exact .inl hi
  -- the shorter lists keep what `Ids` says; only the new disabled observer needs an argument
  refine ⟨⟨?_, ?_, ?_, ?_, ?_⟩, hsub, ?_⟩
  · exact fun q => (h.nodup q).sublist ((hsub q).map _)
  · exact fun q q' o o' ho ho' => h.apart q q' o o' ((hsub q).subset ho) ((hsub q').subset ho')
  · intro q o ho hi
    rcases hdisabled _ hi with hi | ⟨o', ho', hid, -, hgone⟩
    · exact h.enabled q o ((hsub q).subset ho) hi
    · -- the observer that has left the list would still be in one
      obtain rfl := h.eq_of_id ho' ((hsub q).subset ho) hid
      obtain rfl := h.apart p q o' o' ho' ((hsub q).subset ho) rfl
      exact hgone ho
  · exact fun q o ho => h.used q o ((hsub q).subset ho)
  · intro i hi
    rcases hdisabled i hi with hi | ⟨o, ho, rfl, -⟩
    · exact h.past i hi
    · exact h.used p o ho
  · intro i hi
    rcases hdisabled i hi with hi | ⟨o, ho, hid, htarget, -⟩
    · exact .inl hi
    · exact .inr ⟨p, o, ho, hid, congrArg Target.object htarget⟩

theorem removeEventHandler_removes {r : SocketReactor} (h : Ids r) (socket : SocketImpl)
    (t : Target) : Removes r (r.removeEventHandler socket t) t.object := by
  have hremoval := removeEventHandler_removal r socket t
  generalize r.removeEventHandler socket t = r' at hremoval ⊢
  cases hremoval with
  | unregistered hs => exact .refl h _
  | unobserved hs hobs => exact .refl h _
  | @last p hs hobs hone pollSet hpoll =>
      -- the map is not in question
      have herased : Ids { r with handlers := r.handlers.erase socket.id } :=
        ⟨h.nodup, h.apart, h.enabled, h.used, h.past⟩
      have hremoves := removeObserver_removes herased p t
      exact ⟨hremoves.ids.setPollSet _, hremoves.observers, hremoves.disabled⟩
  | further hs hobs hone hpoll => exact (removeObserver_removes h _ t).setPollSet _

/-- The notifiers of other sockets stay where they are. -/
theorem removeEventHandler_getNotifier (r : SocketReactor) {socket : SocketImpl} {s : SocketId}
    (hs : s ≠ socket.id) (t : Target) :
    (r.removeEventHandler socket t).getNotifier s = r.getNotifier s := by
  have herase : (r.handlers.erase socket.id).lookup s = r.handlers.lookup s :=
    AList.lookup_erase_ne hs
  have hremoval := removeEventHandler_removal r socket t
  generalize r.removeEventHandler socket t = r' at hremoval ⊢
  cases hremoval with
  | unregistered hs => rfl
  | unobserved hs hobs => rfl
  | last hs hobs hone hpoll => exact herase
  | further hs hobs hone hpoll => rfl

end PocoProxy.Reactor

namespace PocoProxy.Session

open PocoProxy.Socket PocoProxy.PollSet PocoProxy.Reactor

theorem addHandlers_ids {r : SocketReactor} (h : Ids r) (socket : SocketImpl) (object : ObjectId)
    (ms : List Method) : Ids (addHandlers r socket object ms) := by
  induction ms generalizing r with
  | nil => exact h
  | cons m ms ih => exact ih (h.addEventHandler socket _)

theorem removeHandlers_removes {r : SocketReactor} (h : Ids r) (socket : SocketImpl)
    (object : ObjectId) (ms : List Method) :
    Removes r (removeHandlers r socket object ms) object := by
  induction ms generalizing r with
  | nil => exact .refl h _
  | cons m ms ih =>
      have hfirst := removeEventHandler_removes h socket ⟨object, m⟩
      exact hfirst.trans (ih hfirst.ids)

theorem removeHandlers_getNotifier (r : SocketReactor) {socket : SocketImpl} {s : SocketId}
    (hs : s ≠ socket.id) (object : ObjectId) (ms : List Method) :
    (removeHandlers r socket object ms).getNotifier s = r.getNotifier s := by
  induction ms generalizing r with
  | nil => rfl
  | cons m ms ih => exact (ih _).trans (removeEventHandler_getNotifier r hs _)

/-- **The end of a session** disables its own observers. -/
theorem torn_removes {w : World} (h : Ids w.reactor) :
    Removes w.reactor w.torn.reactor w.session.this := by
  have hfront := removeHandlers_removes h w.session.m_front.close w.session.this frontMethods
  rw [ReactorLoop.torn_reactor]
  exact hfront.trans (removeHandlers_removes hfront.ids _ _ _)

theorem torn_getNotifier (w : World) {s : SocketId}
    (hs : ∀ d, s ≠ (w.session.socket d).id) :
    w.torn.reactor.getNotifier s = w.reactor.getNotifier s := by
  have hfront : s ≠ w.session.m_front.close.id := hs .front
  have hback : s ≠ w.session.m_back.close.id := hs .back
  rw [ReactorLoop.torn_reactor, removeHandlers_getNotifier _ hback,
    removeHandlers_getNotifier _ hfront]

end PocoProxy.Session

namespace PocoProxy.ReactorLoop

open PocoProxy.Program PocoProxy.Socket PocoProxy.PollSet PocoProxy.Registry PocoProxy.Reactor
open PocoProxy.Session PocoProxy.Runs

/-! ## Every run -/

theorem ids_step {m m' : Machine} {l : Label} (h : m.Safe ∧ Ids m.reactor) (hstep : Step m l m') :
    m'.Safe ∧ Ids m'.reactor := by
  obtain ⟨hsafe, hids⟩ := h
  refine ⟨safe_step hsafe hstep, ?_⟩
  cases step_effect hsafe hstep with
  | quiet hclose hserver hnext hfaces hreactor hsnapshot => exact hreactor ▸ hids
  | polled hclose hserver hnext hfaces hreactor hsnapshot =>
      rw [hreactor]
      exact hids.setPollSet _
  | unregistered f hclose hnew hopen hserver hnext hfaces hreactor hsnapshot =>
      exact hreactor ▸ hids
  | refused hclose hserver hnext hfaces hreactor hsnapshot => exact hreactor ▸ hids
  | torn i w hclose hserver hnext hw halive hold hall hfaces hreactor hsnapshot =>
      rw [hreactor]
      exact (torn_removes (hold ▸ hids)).ids
  | registered a status service w hclose hok hconnect hw hserver hnext hfaces hreactor hsnapshot =>
      rw [hreactor, hw, started_reactor]
      exact addHandlers_ids (addHandlers_ids hids _ _ _) _ _ _

theorem listening_ids (sockfd : Fd) : Ids (Machine.listening sockfd).reactor :=
  Ids.empty.addEventHandler { SocketImpl.unopened 0 with sockfd := sockfd } Machine.acceptTarget

end PocoProxy.ReactorLoop
