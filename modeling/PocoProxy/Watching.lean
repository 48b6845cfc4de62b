/-
What the poll set watches for the live sessions.

A `Close` leaves entries behind, and the system hands the descriptors out again; so the
array may have several entries for one descriptor, and some that are for nobody. What is
added for a new session replaces what the map has for the descriptor, takes it off the list
of removals, and waits to be made an entry with the mode that the notifier has computed;
and the removals of a session that closes concern the invalid descriptor. So the
descriptors of a live session are watched, for what its handlers wait for, and under its
socket (`live_watched`), and what is signalled on them is what its handlers are called for
(`signals_delivered`).
-/
import PocoProxy.Accepting
import PocoProxy.PollResult
import PocoProxy.Rounds

set_option autoImplicit false

namespace PocoProxy.PollSet

open PocoProxy.Socket

/-! ## An entry that stays -/

/-- The descriptor is watched for the socket, with this mode: it waits to be added, or it is in
the array and `POLLOUT` is wanted if the mode says so. -/
structure Armed (p : PollSetImpl) (fd : Fd) (s : SocketId) (mode : PollMode) : Prop where
  socketMap : p.socketMap.lookup fd = some s
  kept : fd ∉ p.removeSet
  entry : (∃ a, p.addMap.lookup fd = some a ∧ a.mode = mode) ∨
    p.addMap.lookup fd = none ∧
      (∃ e ∈ p.pollfds, e.fd = fd ∧ e.events = PollSetImpl.eventsOf mode) ∧
      (fd ∈ p.wantPollOut ↔ mode.write = true)

theorem mem_setMode {want : Finset Fd} {fd x : Fd} {mode : PollMode} :
    fd ∈ PollSetImpl.setMode want x mode ↔
      fd = x ∧ mode.write = true ∨ fd ≠ x ∧ fd ∈ want := by
  unfold PollSetImpl.setMode
  by_cases hw : mode.write = true
  · rw [if_pos hw, Finset.mem_insert]
    by_cases hfd : fd = x <;> simp [hfd, hw]
  · rw [if_neg hw, Finset.mem_erase]
    simp [hw]

/-- The pending modes decide about `POLLOUT`, the others stay as they are. -/
theorem mem_foldl_setMode {l : List (Sigma fun _ : Fd => PendingAdd)}
    (hnodup : (l.map Sigma.fst).Nodup) {want : Finset Fd} {fd : Fd} :
    fd ∈ l.foldl (fun want a => PollSetImpl.setMode want a.1 a.2.mode) want ↔
      (∃ a ∈ l, a.1 = fd ∧ a.2.mode.write = true) ∨ (∀ a ∈ l, a.1 ≠ fd) ∧ fd ∈ want := by
  induction l generalizing want with
  | nil =>
      constructor
      · exact fun h => .inr ⟨fun a ha => (by cases ha), h⟩
      · rintro (⟨a, ha, -⟩ | h)
        · cases ha
        · exact h.2
  | cons a l ih =>
      rw [List.map_cons, List.nodup_cons] at hnodup
      have hother : a.1 = fd → ∀ b ∈ l, b.1 ≠ fd := by
        intro hfd b hb hbfd
        exact hnodup.1 (List.mem_map.mpr ⟨b, hb, hbfd.trans hfd.symm⟩)
      rw [List.foldl_cons, ih hnodup.2, mem_setMode]
      by_cases hfd : a.1 = fd
      · have hno := hother hfd
        constructor
        · rintro (⟨b, hb, hbfd, -⟩ | ⟨-, ⟨-, hw⟩ | ⟨hne, -⟩⟩)
          · exact absurd hbfd (hno b hb)
          · exact .inl ⟨a, List.mem_cons_self, hfd, hw⟩
          · exact absurd hfd.symm hne
        · rintro (⟨b, hb, hbfd, hw⟩ | ⟨hnone, -⟩)
          · rcases List.mem_cons.mp hb with rfl | hb
            · exact .inr ⟨hno, .inl ⟨hfd.symm, hw⟩⟩
            · exact absurd hbfd (hno b hb)
          · exact absurd hfd (hnone a List.mem_cons_self)
      · constructor
        · rintro (⟨b, hb, hb'⟩ | ⟨hno, ⟨heq, -⟩ | ⟨-, hin⟩⟩)
          · exact .inl ⟨b, List.mem_cons_of_mem _ hb, hb'⟩
          · exact absurd heq.symm hfd
          · exact .inr ⟨List.forall_mem_cons.mpr ⟨hfd, hno⟩, hin⟩
        · rintro (⟨b, hb, hbfd, hw⟩ | ⟨hnone, hin⟩)
          · rcases List.mem_cons.mp hb with rfl | hb
            · exact absurd hbfd hfd
            · exact .inl ⟨b, hb, hbfd, hw⟩
          · exact .inr ⟨fun b hb => hnone b (List.mem_cons_of_mem _ hb),
              .inr ⟨fun heq => hfd heq.symm, hin⟩⟩

namespace Armed

variable {p : PollSetImpl} {fd : Fd} {s : SocketId} {mode : PollMode}

/-- `add`, whatever was there. -/
theorem add_self (p : PollSetImpl) (socket : SocketImpl) (mode : PollMode) :
    Armed (p.add socket mode) socket.sockfd socket.id mode where
  socketMap := AList.lookup_insert _
  kept := Finset.notMem_erase _ _
  entry := .inl ⟨_, AList.lookup_insert _, rfl⟩

theorem add_other (h : Armed p fd s mode) {socket : SocketImpl} (hfd : fd ≠ socket.sockfd)
    (mode' : PollMode) : Armed (p.add socket mode') fd s mode where
  socketMap := (AList.lookup_insert_ne hfd).trans h.socketMap
  kept hin := h.kept (Finset.mem_of_mem_erase hin)
  entry := by
    have hadd : (p.add socket mode').addMap.lookup fd = p.addMap.lookup fd :=
      AList.lookup_insert_ne hfd
    rw [hadd]
    exact h.entry

theorem remove_other (h : Armed p fd s mode) {socket : SocketImpl} (hfd : fd ≠ socket.sockfd) :
    Armed (p.remove socket) fd s mode where
  socketMap := (AList.lookup_erase_ne hfd).trans h.socketMap
  kept hin := h.kept (Finset.mem_of_mem_insert_of_ne hin hfd)
  entry := by
    have hadd : (p.remove socket).addMap.lookup fd = p.addMap.lookup fd :=
      AList.lookup_erase_ne hfd
    rw [hadd]
    exact h.entry

theorem update_other (h : Armed p fd s mode) {socket : SocketImpl} (hfd : fd ≠ socket.sockfd)
    (mode' : PollMode) : Armed (p.update socket mode') fd s mode where
  socketMap := h.socketMap
  kept := h.kept
  entry := by
    refine h.entry.imp id ?_
    rintro ⟨hnone, ⟨e, he, hefd, hevents⟩, hwant⟩
    refine ⟨hnone, ⟨e, ?_, hefd, hevents⟩, ?_⟩
    · refine List.mem_map.mpr ⟨e, he, if_neg ?_⟩
      rw [hefd]
      exact hfd
    · change fd ∈ (if p.pollfds.any (·.fd = socket.sockfd) then
        PollSetImpl.setMode p.wantPollOut socket.sockfd mode' else p.wantPollOut) ↔ _
      split
      · rw [mem_setMode, ← hwant]
        constructor
        · rintro (⟨heq, -⟩ | ⟨-, hin⟩)
          · exact absurd heq hfd
          · exact hin
        · exact fun hin => .inr ⟨hfd, hin⟩
      · exact hwant

/-- When the set has been made ready, there is an entry in the array. -/
theorem prepared (h : Armed p fd s mode) :
    (∃ e ∈ p.prepare.pollfds, e.fd = fd ∧ e.events = PollSetImpl.eventsOf mode) ∧
      (fd ∈ p.prepare.wantPollOut ↔ mode.write = true) := by
  change (∃ e ∈ p.pollfds.filter (fun e => e.fd ∉ p.removeSet) ++ p.addMap.entries.map fun a =>
      (⟨a.1, PollSetImpl.eventsOf a.2.mode, a.2.owner⟩ : PollFd), _) ∧
    (fd ∈ p.addMap.entries.foldl (fun want a => PollSetImpl.setMode want a.1 a.2.mode)
      p.wantPollOut ↔ _)
  rw [mem_foldl_setMode p.addMap.nodupKeys]
  rcases h.entry with ⟨a, ha, rfl⟩ | ⟨hnone, ⟨e, he, rfl, hevents⟩, hwant⟩
  · have hmem := AList.mem_lookup_iff.mp ha
    constructor
    · refine ⟨_, List.mem_append_right _ (List.mem_map.mpr ⟨_, hmem, rfl⟩), rfl, rfl⟩
    · constructor
      · rintro (⟨⟨x, b⟩, hb, rfl, hw⟩ | ⟨hno, -⟩)
        · have hb' := AList.mem_lookup_iff.mpr hb
          rw [Option.mem_def, ha, Option.some.injEq] at hb'
          rw [hb']
          exact hw
        · exact absurd rfl (hno _ hmem)
      · exact fun hw => .inl ⟨_, hmem, rfl, hw⟩
  · have hno : ∀ a ∈ p.addMap.entries, a.1 ≠ e.fd := by
      rintro ⟨x, b⟩ hb rfl
      have hb' := AList.mem_lookup_iff.mpr hb
      rw [Option.mem_def, hnone] at hb'
      cases hb'
    constructor
    · refine ⟨e, List.mem_append_left _ (List.mem_filter.mpr ⟨he, ?_⟩), rfl, hevents⟩
      exact decide_eq_true h.kept
    · rw [← hwant]
      constructor
      · rintro (⟨a, ha, hfd, -⟩ | ⟨-, hin⟩)
        · exact absurd hfd (hno a ha)
        · exact hin
      · exact fun hin => .inr ⟨hno, hin⟩

theorem prepare (h : Armed p fd s mode) : Armed p.prepare fd s mode where
  socketMap := h.socketMap
  kept := Finset.notMem_empty _
  entry := .inr ⟨rfl, h.prepared⟩

end Armed

end PocoProxy.PollSet

namespace PocoProxy.Reactor

open PocoProxy.Socket PocoProxy.PollSet PocoProxy.Registry

/-! ## The poll mode of a socket -/

/-- What these handlers wait for. -/
def modeOf (ts : List Target) : PollMode :=
  ⟨ts.any (·.method.kind == .readable), ts.any (·.method.kind == .writable),
    ts.any (·.method.kind == .error)⟩

/-- `_events` of a notifier counts the notifications of its observers. -/
def SocketNotifier.Counts (n : SocketNotifier) : Prop :=
  n.events.Perm ((n.observers.map fun o => o.target.method.kind).filter SocketNotifier.counted)

namespace SocketNotifier.Counts

variable {n : SocketNotifier}

theorem addObserver (h : n.Counts) (o : Observer) : (n.addObserver o).Counts := by
  unfold SocketNotifier.Counts SocketNotifier.addObserver
  dsimp only
  rw [List.map_append, List.filter_append, List.map_singleton]
  by_cases hcounted : counted o.target.method.kind = true
  · rw [if_pos hcounted, List.filter_cons_of_pos hcounted]
    exact (h.cons _).trans (List.perm_append_singleton _ _).symm
  · rw [if_neg hcounted, List.filter_cons_of_neg hcounted, List.filter_nil, List.append_nil]
    exact h

theorem removeObserver (h : n.Counts) {t : Target} (hobs : n.hasObserver t = true) :
    (n.removeObserver t).Counts := by
  obtain ⟨o, ho, htarget⟩ := List.any_eq_true.mp hobs
  obtain ⟨o, front, back, -, htarget, hlist, herase⟩ :=
    List.exists_of_eraseP (p := fun o => decide (o.target = t)) ho htarget
  have htarget : o.target = t := of_decide_eq_true htarget
  unfold SocketNotifier.Counts at h ⊢
  unfold SocketNotifier.removeObserver
  dsimp only
  rw [hlist, List.map_append, List.map_cons, List.filter_append, htarget] at h
  rw [herase, List.map_append, List.filter_append]
  by_cases hcounted : counted t.method.kind = true
  · rw [List.filter_cons_of_pos hcounted] at h
    have herased := (h.trans List.perm_middle).erase t.method.kind
    rw [List.erase_cons_head] at herased
    exact herased
  · -- it was not counted when it was added
    rw [List.filter_cons_of_neg hcounted, ← List.filter_append] at h
    rw [← List.filter_append, List.erase_of_not_mem]
    · exact h
    · intro hmem
      exact hcounted (List.mem_filter.mp (h.mem_iff.mp hmem)).2

theorem accepts (h : n.Counts) {kind : NotificationKind} (hcounted : counted kind = true) :
    n.accepts kind = (n.observers.map Observer.target).any (·.method.kind == kind) := by
  rw [Bool.eq_iff_iff, SocketNotifier.accepts, List.contains_iff_mem, h.mem_iff, List.mem_filter,
    List.any_eq_true]
  constructor
  · rintro ⟨hmem, -⟩
    obtain ⟨o, ho, rfl⟩ := List.mem_map.mp hmem
    exact ⟨o.target, List.mem_map_of_mem ho, beq_self_eq_true _⟩
  · rintro ⟨t, ht, hkind⟩
    obtain ⟨o, ho, rfl⟩ := List.mem_map.mp ht
    exact ⟨List.mem_map.mpr ⟨o, ho, beq_iff_eq.mp hkind⟩, hcounted⟩

/-- The poll mode is what the observers wait for. -/
theorem mode (h : n.Counts) : n.mode = modeOf (n.observers.map Observer.target) := by
  unfold SocketNotifier.mode modeOf
  rw [h.accepts rfl, h.accepts rfl, h.accepts rfl]

end SocketNotifier.Counts

/-- All the notifiers of the reactor do. -/
def Counted (r : SocketReactor) : Prop := ∀ p, (r.notifiers p).Counts

namespace Counted

variable {r : SocketReactor}

theorem update (h : Counted r) {n : SocketNotifier} (hn : n.Counts) (p : NotifierPtr) :
    ∀ q, (Function.update r.notifiers p n q).Counts := by
  intro q
  by_cases hq : q = p
  · rw [hq, Function.update_self]
    exact hn
  · rw [Function.update_of_ne hq]
    exact h q

theorem getOrMakeNotifier (h : Counted r) (s : SocketId) :
    Counted (r.getOrMakeNotifier s).2 := by
  have hempty : ({} : SocketNotifier).Counts := List.Perm.refl _
  unfold SocketReactor.getOrMakeNotifier
  split
  · exact h
  · exact h.update hempty _

/-- The notifier and the registry after the second statement of `addEventHandler`. -/
theorem observed (h : Counted r) (p : NotifierPtr) (t : Target) :
    Counted (if (r.notifiers p).hasObserver t then r else r.addObserver p t) := by
  split
  · exact h
  · exact h.update ((h p).addObserver _) p

theorem addEventHandler (h : Counted r) (socket : SocketImpl) (t : Target) :
    Counted (r.addEventHandler socket t) := by
  unfold SocketReactor.addEventHandler
  dsimp only
  have hobserved := (h.getOrMakeNotifier socket.id).observed
    (r.getOrMakeNotifier socket.id).1 t
  generalize (if ((r.getOrMakeNotifier socket.id).2.notifiers
      (r.getOrMakeNotifier socket.id).1).hasObserver t then _ else _) = r' at hobserved ⊢
  split
  · exact hobserved
  · exact hobserved

theorem removeEventHandler (h : Counted r) (socket : SocketImpl) (t : Target) :
    Counted (r.removeEventHandler socket t) := by
  have hremoval := removeEventHandler_removal r socket t
  generalize r.removeEventHandler socket t = r' at hremoval ⊢
  cases hremoval with
  | unregistered hs => exact h
  | unobserved hs hobs => exact h
  | @last p hs hobs hone pollSet hpoll => exact h.update ((h p).removeObserver hobs) p
  | @further p hs hobs hone pollSet hpoll => exact h.update ((h p).removeObserver hobs) p

end Counted

/-- **`addEventHandler`** gives the poll set the mode of all handlers of the socket. -/
theorem addEventHandler_mode {r : SocketReactor} (h : Wf r) (hcounted : Counted r)
    (socket : SocketImpl) (t : Target) :
    (r.addEventHandler socket t).pollSet =
      if (modeOf (targets (r.addEventHandler socket t) socket.id)).nonzero then
        r.pollSet.add socket (modeOf (targets (r.addEventHandler socket t) socket.id))
      else r.pollSet := by
  have hmake := getOrMakeNotifier_pollSet r socket.id
  obtain ⟨-, hp⟩ := getOrMakeNotifier_spec h socket.id
  have hcounts := (hcounted.getOrMakeNotifier socket.id).observed
    (r.getOrMakeNotifier socket.id).1 t
  have hnotifier : (r.addEventHandler socket t).getNotifier socket.id
      = some (r.getOrMakeNotifier socket.id).1 := by
    unfold SocketReactor.addEventHandler
    dsimp only
    split <;> split <;> exact hp
  generalize hr' : r.addEventHandler socket t = r' at hnotifier ⊢
  rw [targets_of_some hnotifier]
  unfold SocketReactor.addEventHandler at hr'
  rcases hr₁ : r.getOrMakeNotifier socket.id with ⟨p, r₁⟩
  rw [hr₁] at hmake hp hcounts hr'
  dsimp only at hmake hp hcounts hr' ⊢
  -- the third statement, in the registry that the second one has left
  have hmode : ∀ r₂ : SocketReactor, Counted r₂ → r₂.pollSet = r.pollSet →
      ∀ r' : SocketReactor, r' = (if (r₂.notifiers p).mode.nonzero = true then
          { r₂ with pollSet := r₂.pollSet.add socket (r₂.notifiers p).mode } else r₂) →
        r'.pollSet = if (modeOf ((r'.notifiers p).observers.map Observer.target)).nonzero then
          r.pollSet.add socket (modeOf ((r'.notifiers p).observers.map Observer.target))
        else r.pollSet := by
    rintro r₂ hcounts hpollSet r' rfl
    have hmode := (hcounts p).mode
    cases hnonzero : (r₂.notifiers p).mode.nonzero with
    | true => rw [if_pos rfl, ← hmode, if_pos hnonzero, hpollSet]
    | false =>
        rw [if_neg Bool.false_ne_true, ← hmode, hnonzero, if_neg Bool.false_ne_true, hpollSet]
  by_cases hobs : (r₁.notifiers p).hasObserver t = true
  · rw [if_pos hobs] at hcounts hr'
    exact hmode r₁ hcounts hmake r' hr'.symm
  · rw [if_neg hobs] at hcounts hr'
    exact hmode (r₁.addObserver p t) hcounts hmake r' hr'.symm

/-- A new pair of the map is the one of the descriptor and the socket. -/
theorem addEventHandler_pairs {r : SocketReactor} {socket : SocketImpl} {t : Target} {fd : Fd}
    {s : SocketId} (h : (r.addEventHandler socket t).pollSet.socketMap.lookup fd = some s) :
    r.pollSet.socketMap.lookup fd = some s ∨ fd = socket.sockfd ∧ s = socket.id := by
  rcases addEventHandler_pollSet r socket t with heq | ⟨mode, heq⟩
  · rw [heq] at h
    exact .inl h
  · rw [heq] at h
    change (r.pollSet.socketMap.insert socket.sockfd socket.id).lookup fd = some s at h
    by_cases hfd : fd = socket.sockfd
    · rw [hfd, AList.lookup_insert, Option.some.injEq] at h
      exact .inr ⟨hfd, h.symm⟩
    · rw [AList.lookup_insert_ne hfd] at h
      exact .inl h

/-- There are none when a handler is taken out. -/
theorem removeEventHandler_pairs {r : SocketReactor} {socket : SocketImpl} {t : Target} {fd : Fd}
    {s : SocketId} (h : (r.removeEventHandler socket t).pollSet.socketMap.lookup fd = some s) :
    r.pollSet.socketMap.lookup fd = some s := by
  have hremove : (r.pollSet.remove socket).socketMap.lookup fd = some s →
      r.pollSet.socketMap.lookup fd = some s := by
    intro hs
    change (r.pollSet.socketMap.erase socket.sockfd).lookup fd = some s at hs
    by_cases hfd : fd = socket.sockfd
    · rw [hfd, AList.lookup_erase] at hs
      cases hs
    · rwa [AList.lookup_erase_ne hfd] at hs
  have hremoval := removeEventHandler_removal r socket t
  generalize r.removeEventHandler socket t = r' at h hremoval
  cases hremoval with
  | unregistered hs => exact h
  | unobserved hs hobs => exact h
  | last hs hobs hone hpoll =>
      rcases hpoll with rfl | ⟨mode, rfl⟩
      · exact hremove h
      · exact hremove h
  | further hs hobs hone hpoll =>
      rcases hpoll with rfl | ⟨mode, rfl⟩
      · exact h
      · exact h

/-- Taking out a handler of another descriptor leaves an entry as it is. -/
theorem removeEventHandler_armed {r : SocketReactor} {fd : Fd} {s : SocketId} {mode : PollMode}
    (h : Armed r.pollSet fd s mode) {socket : SocketImpl} (hfd : fd ≠ socket.sockfd)
    (t : Target) : Armed (r.removeEventHandler socket t).pollSet fd s mode := by
  have hremoval := removeEventHandler_removal r socket t
  generalize r.removeEventHandler socket t = r' at hremoval ⊢
  cases hremoval with
  | unregistered hs => exact h
  | unobserved hs hobs => exact h
  | last hs hobs hone hpoll =>
      rcases hpoll with rfl | ⟨mode', rfl⟩
      · exact h.remove_other hfd
      · exact (h.remove_other hfd).update_other hfd mode'
  | further hs hobs hone hpoll =>
      rcases hpoll with rfl | ⟨mode', rfl⟩
      · exact h
      · exact h.update_other hfd mode'

/-- The poll set watches the descriptor for what the handlers of the socket wait for, and has
the socket for no other descriptor. -/
structure Arms (r : SocketReactor) (fd : Fd) (s : SocketId) : Prop where
  armed : Armed r.pollSet fd s (modeOf (targets r s))
  own : ∀ fd', r.pollSet.socketMap.lookup fd' = some s → fd' = fd

/-- A handler of another socket, on another descriptor, changes nothing of that. -/
theorem Arms.addEventHandler {r : SocketReactor} (hwf : Wf r) {fd : Fd} {s : SocketId}
    (h : Arms r fd s) {socket : SocketImpl} (hfd : fd ≠ socket.sockfd) (hs : s ≠ socket.id)
    (t : Target) : Arms (r.addEventHandler socket t) fd s where
  armed := by
    have htargets : targets (r.addEventHandler socket t) s = targets r s := by
      rw [(addEventHandler_spec hwf socket t).view, add]
      split
      · rfl
      · rw [Function.update_of_ne hs]
    rw [htargets]
    rcases addEventHandler_pollSet r socket t with heq | ⟨mode, heq⟩
    · rw [heq]
      exact h.armed
    · rw [heq]
      exact h.armed.add_other hfd mode
  own fd' hfd' := by
    rcases addEventHandler_pairs hfd' with hold | ⟨-, rfl⟩
    · exact h.own fd' hold
    · exact absurd rfl hs

end PocoProxy.Reactor

namespace PocoProxy.Session

open PocoProxy.Socket PocoProxy.PollSet PocoProxy.Registry PocoProxy.Reactor

/-! ## The handlers of a session -/

theorem addHandlers_counted {r : SocketReactor} (h : Counted r) (socket : SocketImpl)
    (object : ObjectId) (ms : List Method) : Counted (addHandlers r socket object ms) := by
  induction ms generalizing r with
  | nil => exact h
  | cons m ms ih => exact ih (h.addEventHandler socket _)

theorem removeHandlers_counted {r : SocketReactor} (h : Counted r) (socket : SocketImpl)
    (object : ObjectId) (ms : List Method) : Counted (removeHandlers r socket object ms) := by
  induction ms generalizing r with
  | nil => exact h
  | cons m ms ih => exact ih (h.removeEventHandler socket _)

theorem removeHandlers_armed {r : SocketReactor} {fd : Fd} {s : SocketId} {mode : PollMode}
    (h : Armed r.pollSet fd s mode) {socket : SocketImpl} (hfd : fd ≠ socket.sockfd)
    (object : ObjectId) (ms : List Method) :
    Armed (removeHandlers r socket object ms).pollSet fd s mode := by
  induction ms generalizing r with
  | nil => exact h
  | cons m ms ih => exact ih (removeEventHandler_armed h hfd _)

theorem removeHandlers_pairs {r : SocketReactor} {socket : SocketImpl} {object : ObjectId}
    {ms : List Method} {fd : Fd} {s : SocketId}
    (h : (removeHandlers r socket object ms).pollSet.socketMap.lookup fd = some s) :
    r.pollSet.socketMap.lookup fd = some s := by
  induction ms generalizing r with
  | nil => exact h
  | cons m ms ih => exact removeEventHandler_pairs (ih h)

/-- The handlers of another socket. -/
theorem addHandlers_other {r : SocketReactor} (hwf : Wf r) {fd : Fd} {s : SocketId}
    (h : Arms r fd s) {socket : SocketImpl} (hfd : fd ≠ socket.sockfd) (hs : s ≠ socket.id)
    (object : ObjectId) (ms : List Method) : Arms (addHandlers r socket object ms) fd s := by
  induction ms generalizing r with
  | nil => exact h
  | cons m ms ih =>
      exact ih (addEventHandler_spec hwf socket _).wf (h.addEventHandler hwf hfd hs _)

/-- The handlers of this one: once something is polled for, the descriptor is watched for all
that the handlers wait for. -/
theorem addHandlers_own {r : SocketReactor} (hwf : Wf r) (hcounted : Counted r)
    (socket : SocketImpl)
    (hown : ∀ fd, r.pollSet.socketMap.lookup fd = some socket.id → fd = socket.sockfd)
    (harmed : (modeOf (targets r socket.id)).nonzero = true →
      Armed r.pollSet socket.sockfd socket.id (modeOf (targets r socket.id)))
    (object : ObjectId) (ms : List Method)
    (hnonzero : (modeOf (targets (addHandlers r socket object ms) socket.id)).nonzero = true) :
    Arms (addHandlers r socket object ms) socket.sockfd socket.id := by
  induction ms generalizing r with
  | nil => exact ⟨harmed hnonzero, hown⟩
  | cons m ms ih =>
      have hmode := addEventHandler_mode hwf hcounted socket ⟨object, m⟩
      refine ih (addEventHandler_spec hwf socket _).wf (hcounted.addEventHandler socket _) ?_ ?_
        hnonzero
      · intro fd hfd
        rcases addEventHandler_pairs hfd with hold | ⟨heq, -⟩
        · exact hown fd hold
        · exact heq
      · intro hpolled
        rw [if_pos hpolled] at hmode
        rw [hmode]
        exact .add_self _ _ _

/-- The handlers of a socket that has none yet. -/
theorem addHandlers_fresh {r : SocketReactor} (hwf : Wf r) (hcounted : Counted r)
    (socket : SocketImpl) (hfree : targets r socket.id = [])
    (hpair : ∀ fd, r.pollSet.socketMap.lookup fd ≠ some socket.id) (object : ObjectId)
    {ms : List Method} (hms : ms.Nodup)
    (hnonzero : (modeOf (ms.map (Target.mk object))).nonzero = true) :
    Arms (addHandlers r socket object ms) socket.sockfd socket.id := by
  have hspec := addHandlers_new hwf socket rfl object ms hms hfree
  refine addHandlers_own hwf hcounted socket (fun fd hfd => absurd hfd (hpair fd)) ?_ object ms ?_
  · intro hempty
    rw [hfree] at hempty
    cases hempty
  · rw [hspec.view, Function.update_self]
    exact hnonzero

end PocoProxy.Session

namespace PocoProxy.ReactorLoop

open PocoProxy.Program PocoProxy.Socket PocoProxy.PollSet PocoProxy.Registry PocoProxy.Reactor
open PocoProxy.Session PocoProxy.Runs

/-! ## All live sessions -/

/-- What is to be watched is watched, whatever else the poll set holds. -/
structure Watching (m : Machine) : Prop where
  safe : m.Safe
  known : m.Known
  counted : Counted m.reactor
  opened : ∀ fd s, Watched m fd s → fd ≠ POCO_INVALID_SOCKET
  arms : ∀ fd s, Watched m fd s → Arms m.reactor fd s

/-- A socket that is watched exists. -/
theorem watched_lt {m : Machine} (h : m.Safe) {fd : Fd} {s : SocketId} (hw : Watched m fd s) :
    s < m.nextSocket := by
  rcases hw with ⟨-, rfl⟩ | ⟨i, f, d, hf, -, -, rfl⟩
  · exact h.server_lt
  · exact (h.socket_lt i f d hf).2

namespace Watching

variable {m m' : Machine}

/-- No entry is for a socket that does not exist yet. -/
theorem no_pair (h : Watching m) {s : SocketId} (hs : m.nextSocket ≤ s) (fd : Fd) :
    m.reactor.pollSet.socketMap.lookup fd ≠ some s := by
  intro hfd
  exact Nat.not_lt_of_le hs (h.known s (.inr (.inl ⟨fd, hfd⟩)))

/-- `RegisterHandler` of a new session. -/
theorem started_arms (h : Watching m) {a : Accepted} (hok : AcceptOk m a)
    {status : ConnectStatus} (hconnect : a.setup.connect = .ok status)
    (service : Option ServiceKind) (this : ObjectId) {r' : SocketReactor}
    (hr' : r' = (started a.setup.backFd status service this (m.acceptConnection a.sockfd)
      (m.nextSocket + 1) m.reactor).reactor) :
    Counted r' ∧ (∀ fd s, Watched m fd s → Arms r' fd s) ∧ Arms r' a.sockfd m.nextSocket ∧
      Arms r' a.setup.backFd (m.nextSocket + 1) := by
  obtain ⟨⟨-, hfresh⟩, hback, hrest⟩ := hok
  rw [hconnect] at hrest
  obtain ⟨⟨-, hfresh'⟩, hne⟩ := hback hrest.1
  have hfree : targets m.reactor m.nextSocket = [] := h.safe.targets_new le_rfl
  have hfree' : targets m.reactor (m.nextSocket + 1) = [] := h.safe.targets_new (Nat.le_succ _)
  have hsuccne : m.nextSocket + 1 ≠ m.nextSocket := Nat.succ_ne_self _
  rw [started_reactor] at hr'
  -- the reactor between the two sockets
  have hspec := addHandlers_new (s := m.nextSocket) h.safe.wf (m.acceptConnection a.sockfd) rfl
    this frontMethods (by decide) hfree
  have hcounted := addHandlers_counted h.counted (m.acceptConnection a.sockfd) this frontMethods
  have hfront : Arms (addHandlers m.reactor (m.acceptConnection a.sockfd) this frontMethods)
      a.sockfd m.nextSocket :=
    addHandlers_fresh h.safe.wf h.counted (m.acceptConnection a.sockfd) hfree (h.no_pair le_rfl)
      this (by decide) rfl
  have hold : ∀ fd s, Watched m fd s →
      Arms (addHandlers m.reactor (m.acceptConnection a.sockfd) this frontMethods) fd s := by
    intro fd s hw
    refine addHandlers_other h.safe.wf (h.arms fd s hw) ?_ ?_ this frontMethods
    · rintro rfl
      exact hfresh (watched_open hw)
    · exact Nat.ne_of_lt (watched_lt h.safe hw)
  rw [hr']
  refine ⟨addHandlers_counted hcounted _ this backMethods, fun fd s hw => ?_, ?_, ?_⟩
  · refine addHandlers_other hspec.wf (hold fd s hw) ?_ ?_ this backMethods
    · rintro rfl
      exact hfresh' (watched_open hw)
    · exact Nat.ne_of_lt (Nat.lt_succ_of_lt (watched_lt h.safe hw))
  · exact addHandlers_other hspec.wf hfront (Ne.symm hne) hsuccne.symm this backMethods
  · refine addHandlers_fresh hspec.wf hcounted
      ⟨m.nextSocket + 1, a.setup.backFd, false, status, [], [], []⟩ ?_ ?_ this (by decide) rfl
    · rw [hspec.view, Function.update_of_ne hsuccne]
      exact hfree'
    · intro fd hfd
      -- the entries that there are now belong to older sockets
      rcases refers_addHandlers (.inr (.inl ⟨fd, hfd⟩)) with hrefers | heq
      · exact absurd (h.known _ hrefers) (Nat.not_lt_of_le (Nat.le_succ _))
      · exact absurd heq hsuccne

/-- Who is watched after a session has gone was watched before, and is not one of its sockets. -/
theorem watched_torn (h : m.Safe) {i : ℕ} {w : World}
    (hw : m.faces[i]? = some (Cell.ofWorld w).face) (hold : w.reactor = m.reactor)
    (hall : ∀ d, targets m.reactor (w.session.socket d).id = sideTargets (.session i) d)
    (hserver : m'.server = m.server)
    (hfaces : m'.faces = m.faces.set i (Cell.ofWorld w).face.torn)
    (hreactor : m'.reactor = w.torn.reactor) {fd : Fd} {s : SocketId} (hwatched : Watched m' fd s) :
    Watched m fd s ∧ targets m'.reactor s = targets m.reactor s := by
  have hview := (h.torn_becomes hw hold hall).view
  rw [← hreactor] at hview
  have hother : ∀ s', (∀ d, s' ≠ (w.session.socket d).id) →
      targets m'.reactor s' = targets m.reactor s' := by
    intro s' hne
    have hfront : s' ≠ w.session.m_front.id := hne .front
    have hback : s' ≠ w.session.m_back.id := hne .back
    rw [hview, Function.update_of_ne hback, Function.update_of_ne hfront]
  rcases hwatched with ⟨rfl, rfl⟩ | ⟨j, g, d, hg, hne, rfl, rfl⟩
  · rw [hserver]
    exact ⟨.inl ⟨rfl, rfl⟩, hother _ fun d => (h.socket_lt i _ d hw).1.symm⟩
  · rw [hfaces] at hg
    rcases getElem?_set_torn hw hg with ⟨rfl, rfl⟩ | ⟨hji, hg⟩
    · -- the session that has gone is not registered
      refine absurd ?_ hne
      change targets m'.reactor w.session.m_front.id = []
      have hfrontback : w.session.m_front.id ≠ w.session.m_back.id := by
        intro heq
        cases (h.socket_inj j j _ _ .front .back hw hw heq).2
      rw [hview, Function.update_of_ne hfrontback, Function.update_self]
    · have hside : ∀ d', targets m'.reactor (g.socket d') = targets m.reactor (g.socket d') := by
        intro d'
        refine hother _ fun d'' heq => ?_
        exact hji (h.socket_inj j i g _ d' d'' hg hw heq).1
      rw [hside] at hne
      exact ⟨.inr ⟨j, g, d, hg, hne, rfl, rfl⟩, hside d⟩

/-- Where the reactor is the same, nothing more is to be watched. -/
theorem of_same (h : Watching m) (hsafe : m'.Safe) (hknown : m'.Known)
    (hreactor : m'.reactor = m.reactor) (hbefore : ∀ fd s, Watched m' fd s → Watched m fd s) :
    Watching m' where
  safe := hsafe
  known := hknown
  counted := hreactor ▸ h.counted
  opened fd s hw := h.opened fd s (hbefore fd s hw)
  arms fd s hw := hreactor ▸ h.arms fd s (hbefore fd s hw)

/-- The same for a reactor whose poll set has been made ready. -/
theorem of_prepared (h : Watching m) (hsafe : m'.Safe) (hknown : m'.Known)
    (hreactor : m'.reactor = { m.reactor with pollSet := m.reactor.pollSet.prepare })
    (hbefore : ∀ fd s, Watched m' fd s → Watched m fd s) : Watching m' where
  safe := hsafe
  known := hknown
  counted := hreactor ▸ h.counted
  opened fd s hw := h.opened fd s (hbefore fd s hw)
  arms fd s hw := by
    obtain ⟨harmed, hown⟩ := h.arms fd s (hbefore fd s hw)
    rw [hreactor]
    exact ⟨harmed.prepare, hown⟩

/-- Taking out the handlers of closed sockets leaves what is armed for others. -/
theorem torn_arms {w : World} {fd : Fd} {s : SocketId} (hopen : fd ≠ POCO_INVALID_SOCKET)
    (h : Arms w.reactor fd s) (htargets : targets w.torn.reactor s = targets w.reactor s) :
    Arms w.torn.reactor fd s := by
  obtain ⟨harmed, hown⟩ := h
  constructor
  · -- the descriptors of the session are invalid by now
    rw [htargets, torn_reactor]
    exact removeHandlers_armed (removeHandlers_armed harmed (by exact hopen) _ _)
      (by exact hopen) _ _
  · intro fd' hfd'
    rw [torn_reactor] at hfd'
    exact hown fd' (removeHandlers_pairs (removeHandlers_pairs hfd'))

/-- **The step lemma.** -/
theorem step (h : Watching m) {l : Label} (hstep : Step m l m') : Watching m' := by
  obtain ⟨hsafe, hknown⟩ := known_step ⟨h.safe, h.known⟩ hstep
  cases step_effect h.safe hstep with
  | quiet hclose hserver hnext hfaces hreactor hsnapshot =>
      refine h.of_same hsafe hknown hreactor fun fd s hw => ?_
      exact (watched_congr hserver hfaces (by rw [hreactor]) fd s).mpr hw
  | refused hclose hserver hnext hfaces hreactor hsnapshot =>
      refine h.of_same hsafe hknown hreactor fun fd s hw => ?_
      exact (watched_congr hserver hfaces (by rw [hreactor]) fd s).mpr hw
  | unregistered f hclose hnew hopen hserver hnext hfaces hreactor hsnapshot =>
      refine h.of_same hsafe hknown hreactor fun fd s hw => ?_
      exact (watched_unregistered h.safe hserver hnew.front.ge hfaces hreactor fd s).mpr hw
  | polled hclose hserver hnext hfaces hreactor hsnapshot =>
      refine h.of_prepared hsafe hknown hreactor fun fd s hw => ?_
      exact (watched_congr hserver hfaces (by rw [hreactor]; rfl) fd s).mpr hw
  | torn i w hclose hserver hnext hw halive hold hall hfaces hreactor hsnapshot =>
      have hbefore : ∀ fd s, Watched m' fd s →
          Watched m fd s ∧ targets m'.reactor s = targets m.reactor s :=
        fun fd s hwatched => watched_torn h.safe hw hold hall hserver hfaces hreactor hwatched
      refine ⟨hsafe, hknown, ?_, fun fd s hwatched => h.opened fd s (hbefore fd s hwatched).1, ?_⟩
      · rw [hreactor, torn_reactor, hold]
        exact removeHandlers_counted (removeHandlers_counted h.counted _ _ _) _ _ _
      · intro fd s hwatched
        obtain ⟨hwatched, htargets⟩ := hbefore fd s hwatched
        rw [hreactor, ← hold] at htargets
        rw [hreactor]
        exact torn_arms (h.opened fd s hwatched) (hold ▸ h.arms fd s hwatched) htargets
  | registered a status service w hclose hok hconnect hw hserver hnext hfaces hreactor hsnapshot =>
      -- an old pair, or one of the two new ones
      have hbefore := fun fd s =>
        (watched_started h.safe hw hserver hfaces hreactor fd s).mpr
      obtain ⟨hcounted, hold, hfront, hback⟩ :=
        h.started_arms hok hconnect service (.session m.sessions.length) (hw ▸ hreactor)
      obtain ⟨⟨hvalid, -⟩, -, hconnected⟩ := hok
      rw [hconnect] at hconnected
      refine ⟨hsafe, hknown, hcounted, ?_, ?_⟩
      · intro fd s hwatched
        rcases hbefore fd s hwatched with (hin | ⟨rfl, -⟩) | ⟨rfl, -⟩
        · exact h.opened fd s hin
        · exact hvalid
        · exact hconnected.1
      · intro fd s hwatched
        rcases hbefore fd s hwatched with (hin | ⟨rfl, rfl⟩) | ⟨rfl, rfl⟩
        · exact hold fd s hin
        · exact hfront
        · exact hback

end Watching

theorem listening_watching {sockfd : Fd} (hvalid : sockfd ≠ POCO_INVALID_SOCKET) :
    Watching (Machine.listening sockfd) := by
  have hempty : Counted {} := fun p => List.Perm.refl _
  have hserver : ∀ fd s, Watched (Machine.listening sockfd) fd s → fd = sockfd ∧ s = 0 := by
    rintro fd s (hs | ⟨i, f, d, hf, -⟩)
    · exact hs
    · cases hf
  have hcounted : Counted (Machine.listening sockfd).reactor := hempty.addEventHandler
    { SocketImpl.unopened 0 with sockfd := sockfd } Machine.acceptTarget
  refine ⟨listening_safe sockfd, listening_known sockfd, hcounted, ?_, ?_⟩
  · intro fd s hw
    rw [(hserver fd s hw).1]
    exact hvalid
  · intro fd s hw
    obtain ⟨rfl, rfl⟩ := hserver fd s hw
    refine addHandlers_own wf_empty hempty { SocketImpl.unopened 0 with sockfd := fd }
      (fun fd' hfd' => by cases hfd') (fun hnonzero => by cases hnonzero) .acceptor [.onAccept] ?_
    change (modeOf (targets (Machine.listening fd).reactor 0)).nonzero = true
    rw [targets_listening, Function.update_self]
    rfl

/-- Every state that a reactor gets into. -/
theorem reachable_watching {sockfd : Fd} (hvalid : sockfd ≠ POCO_INVALID_SOCKET)
    {ts : List (Transition Machine Label)} (hrun : IsRun Step (Machine.listening sockfd) ts) :
    ∀ m ∈ states (Machine.listening sockfd) ts, Watching m :=
  invariant_states (I := Watching) (fun _ _ _ h hstep => h.step hstep)
    (listening_watching hvalid) hrun

/-- The descriptors of a live session are watched. -/
theorem watched_of_live {m : Machine} {c : Cell} (hc : c ∈ m.sessions) (hlive : m.Live c)
    (d : Side) : Watched m (c.session.socket d).sockfd (c.session.socket d).id := by
  obtain ⟨i, hi⟩ := List.getElem?_of_mem hc
  exact .inr ⟨i, c.face, d, Machine.faces_of_some hi, hlive.2, rfl, rfl⟩

/-- A live session has all its handlers. -/
theorem targets_of_live {m : Machine} (h : m.Safe) {c : Cell} (hc : c ∈ m.sessions)
    (hlive : m.Live c) (d : Side) :
    targets m.reactor (c.session.socket d).id = sideTargets c.session.this d := by
  obtain ⟨i, hi⟩ := List.getElem?_of_mem hc
  have hface := Machine.faces_of_some hi
  have hthis : c.session.this = .session i := h.this i c.face hface
  rw [hthis]
  rcases h.whole i c.face hface with hall | hnone
  · exact hall d
  · exact absurd (hnone .front) hlive.2

theorem modeOf_sideTargets (this : ObjectId) (d : Side) :
    modeOf (sideTargets this d) = ⟨true, decide (d = .back), true⟩ := by
  cases d <;> rfl

/-- What the next poll has of a live session. -/
theorem Watching.live {m : Machine} (h : Watching m) {c : Cell} (hc : c ∈ m.sessions)
    (hlive : m.Live c) (d : Side) :
    (∃ e ∈ m.reactor.pollSet.prepare.pollfds, e.fd = (c.session.socket d).sockfd ∧
        e.events = ⟨true, true⟩) ∧
      ((c.session.socket d).sockfd ∈ m.reactor.pollSet.prepare.wantPollOut ↔ d = .back) ∧
      ∀ fd, m.reactor.pollSet.prepare.socketMap.lookup fd = some (c.session.socket d).id ↔
        fd = (c.session.socket d).sockfd := by
  obtain ⟨harmed, hown⟩ := h.arms _ _ (watched_of_live hc hlive d)
  rw [targets_of_live h.safe hc hlive d, modeOf_sideTargets] at harmed
  obtain ⟨hentry, hwant⟩ := harmed.prepared
  refine ⟨hentry, hwant.trans decide_eq_true_iff, fun fd => ⟨hown fd, ?_⟩⟩
  rintro rfl
  exact harmed.socketMap

/-- **A live session is watched.** In every state that a reactor gets into, whatever sessions
have been closed and whichever descriptors have been used again, the next poll waits on both
descriptors of every live session, for input and for `POLLOUT`, of which it wants the latter at the
back only; and what it finds there it returns under the socket of that session and no other. -/
theorem live_watched {sockfd : Fd} (hvalid : sockfd ≠ POCO_INVALID_SOCKET)
    {ts : List (Transition Machine Label)} (hrun : IsRun Step (Machine.listening sockfd) ts) :
    ∀ m ∈ states (Machine.listening sockfd) ts, ∀ c ∈ m.sessions, m.Live c → ∀ d,
      (∃ e ∈ m.reactor.pollSet.prepare.pollfds, e.fd = (c.session.socket d).sockfd ∧
          e.events = ⟨true, true⟩) ∧
        ((c.session.socket d).sockfd ∈ m.reactor.pollSet.prepare.wantPollOut ↔ d = .back) ∧
        ∀ fd, m.reactor.pollSet.prepare.socketMap.lookup fd = some (c.session.socket d).id ↔
          fd = (c.session.socket d).sockfd :=
  fun m hm _ hc hlive d => (reachable_watching hvalid hrun m hm).live hc hlive d

/-- A session closes, its two descriptors are given to the next one, and that one is not yet
in the array. -/
def reuse : List Label :=
  acceptThenError ++
    [.broadcast [0], .dispatch, .skip,
     .poll (some [(0, ⟨true, false, false⟩)]), .dispatch,
     .accept (some ⟨5, sampleSetup .byPass, {}⟩)]

theorem isRun_reuse :
    IsRun Step (Machine.listening 3) (unroll step (Machine.listening 3) reuse) :=
  isRun_unroll (by decide +kernel)

theorem live_watched_reuse :
    (3 : Fd) ≠ POCO_INVALID_SOCKET ∧
      ∀ m ∈ states (Machine.listening 3) (unroll step (Machine.listening 3) reuse),
        ∀ c ∈ m.sessions, m.Live c → ∀ d,
          (∃ e ∈ m.reactor.pollSet.prepare.pollfds, e.fd = (c.session.socket d).sockfd ∧
              e.events = ⟨true, true⟩) ∧
            ((c.session.socket d).sockfd ∈ m.reactor.pollSet.prepare.wantPollOut ↔ d = .back) ∧
            ∀ fd, m.reactor.pollSet.prepare.socketMap.lookup fd
              = some (c.session.socket d).id ↔ fd = (c.session.socket d).sockfd :=
  ⟨by decide, live_watched (by decide) isRun_reuse⟩

/-! ## From the descriptor to the handler -/

/-- The signal for this kind of notification is there for an entry of the descriptor. -/
def signalledOn (p : PollSetImpl) (revents : List PollRevents) (fd : Fd)
    (kind : NotificationKind) : Bool :=
  (p.pollfds.zip revents).any fun x => decide (x.1.fd = fd) && modeHas (p.signalled x) kind

theorem reports_entries {collected : SocketModeMap} {result : List (SocketId × PollMode)}
    (hresult : result.Perm (collected.entries.map fun e => (e.1, e.2))) (s : SocketId)
    (kind : NotificationKind) :
    reports result s kind = modeHas ((collected.lookup s).getD .zero) kind := by
  rw [Bool.eq_iff_iff, reports, List.any_eq_true]
  constructor
  · rintro ⟨e, he, hhas⟩
    rw [Bool.and_eq_true, decide_eq_true_eq] at hhas
    obtain ⟨a, ha, rfl⟩ := List.mem_map.mp (hresult.mem_iff.mp he)
    have hlookup : collected.lookup a.1 = some a.2 := AList.mem_lookup_iff.mpr ha
    rw [← hhas.1, hlookup]
    exact hhas.2
  · intro hhas
    cases hlookup : collected.lookup s with
    | none =>
        rw [hlookup] at hhas
        cases kind <;> cases hhas
    | some mode =>
        rw [hlookup] at hhas
        refine ⟨(s, mode), hresult.mem_iff.mpr (List.mem_map.mpr ⟨⟨s, mode⟩, ?_, rfl⟩), ?_⟩
        · exact AList.mem_lookup_iff.mp hlookup
        · rw [decide_eq_true rfl, Bool.true_and]
          exact hhas

/-- The poll returns for a socket that is watched what is signalled on its descriptor. -/
theorem reports_signalled {r : SocketReactor} {fd : Fd} {s : SocketId} (h : Arms r fd s)
    {revents : List PollRevents} {result : List (SocketId × PollMode)}
    (hresult : result.Perm
      ((r.pollSet.prepare.collect revents).entries.map fun e => (e.1, e.2)))
    (kind : NotificationKind) :
    reports result s kind = signalledOn r.pollSet.prepare revents fd kind := by
  have hzero : modeHas .zero kind = false := by cases kind <;> rfl
  have hor : ∀ a b, modeHas (a.or b) kind = (modeHas a kind || modeHas b kind) := by
    intro a b
    cases kind <;> rfl
  have hpair : ∀ fd', r.pollSet.prepare.socketMap.lookup fd' = some s ↔ fd' = fd := by
    intro fd'
    constructor
    · exact h.own fd'
    · rintro rfl
      exact h.armed.socketMap
  rw [reports_entries hresult, PollSetImpl.collect_bit (f := fun mode => modeHas mode kind)
    hzero hor, signalledOn]
  simp only [hpair]

/-- **From the descriptor to the handler.** The poll set is made ready, and the wait ends with
`revents`. Then the handlers of a live session are called, in the round that follows, only for
what is signalled on the descriptor of their own socket, and at most once each; and when the
round has come to its end without an exception and the handler is still registered, it has been
called for it. -/
theorem signals_delivered {sockfd : Fd} (hvalid : sockfd ≠ POCO_INVALID_SOCKET)
    {before : List (Transition Machine Label)}
    (hbefore : IsRun Step (Machine.listening sockfd) before) {m : Machine}
    (hm : m = last (Machine.listening sockfd) before) {timeout : ℕ} {waits : List Wait}
    {revents : List PollRevents}
    (hwait : m.reactor.pollSet.prepare.awaitSignals timeout waits = some (.ok revents))
    {result : List (SocketId × PollMode)}
    (hresult : result.Perm
      ((m.reactor.pollSet.prepare.collect revents).entries.map fun e => (e.1, e.2)))
    (hpoll : Admissible m (.poll (some result))) {ts : List (Transition Machine Label)}
    (hrun : IsRun Step (step m (.poll (some result))) ts)
    (hround : ∀ u ∈ ts, opensRound u.label = false) {c : Cell} (hc : c ∈ m.sessions)
    (hlive : m.Live c) {d : Side} {t : Target} (ht : t ∈ sideTargets c.session.this d) :
    m.reactor.pollSet.poll timeout waits
        = some (.ok (m.reactor.pollSet.prepare.collect revents), m.reactor.pollSet.prepare) ∧
      ts.countP (fun u => calls t u.src u.label) ≤
        (signalledOn m.reactor.pollSet.prepare revents (c.session.socket d).sockfd
          t.method.kind).toNat ∧
      (Finished (last (step m (.poll (some result))) ts) →
        (∀ u ∈ ts, Returns u.src u.label) →
        t ∈ targets (last (step m (.poll (some result))) ts).reactor (c.session.socket d).id →
        ts.countP (fun u => calls t u.src u.label) =
          (signalledOn m.reactor.pollSet.prepare revents (c.session.socket d).sockfd
            t.method.kind).toNat) := by
  obtain ⟨hsafe, hids, haccept⟩ := reachable_reactor sockfd hbefore
  have hwatching := reachable_watching hvalid hbefore _ (last_mem_states _ _)
  rw [← hm] at hsafe hids haccept hwatching
  have harms := hwatching.arms _ _ (watched_of_live hc hlive d)
  have hnodup : (result.map Prod.fst).Nodup := by
    refine (hresult.map Prod.fst).nodup_iff.mpr ?_
    rw [List.map_map]
    exact (m.reactor.pollSet.prepare.collect revents).nodupKeys
  rw [← reports_signalled harms hresult]
  constructor
  · -- the array is not empty
    obtain ⟨e, he, -⟩ := harms.armed.prepared.1
    unfold PollSetImpl.poll
    dsimp only
    rw [if_neg (List.ne_nil_of_mem he), hwait]
    rfl
  · refine delivered_of_polled hsafe hids haccept hnodup hpoll hrun hround ?_
    rw [targets_of_live hsafe hc hlive d]
    exact ht

def afterReuse : Machine :=
  last (Machine.listening 3) (unroll step (Machine.listening 3) reuse)

/-- There is input in front and the back is writable; the entries that the first session has
left are signalled too. -/
def reuseRevents : List PollRevents :=
  [.none, ⟨false, false, true, false⟩, ⟨true, false, false, false⟩, ⟨false, false, true, false⟩,
   ⟨true, false, false, false⟩]

theorem signals_delivered_reuse :
    let m' := step afterReuse (.poll (some [(4, ⟨false, true, false⟩), (3, ⟨true, false, false⟩)]))
    let c := afterReuse.sessions.get ⟨1, by decide +kernel⟩
    afterReuse.reactor.pollSet.poll 250000 [⟨.signalled reuseRevents, 40⟩]
        = some (.ok (afterReuse.reactor.pollSet.prepare.collect reuseRevents),
            afterReuse.reactor.pollSet.prepare) ∧
      (unroll step m' sampleRound).countP
          (fun u => calls ⟨.session 1, .onFrontReadable⟩ u.src u.label) ≤
        (signalledOn afterReuse.reactor.pollSet.prepare reuseRevents
          (c.session.socket .front).sockfd .readable).toNat ∧
      (Finished (last m' (unroll step m' sampleRound)) →
        (∀ u ∈ unroll step m' sampleRound, Returns u.src u.label) →
        ⟨.session 1, .onFrontReadable⟩ ∈
          targets (last m' (unroll step m' sampleRound)).reactor (c.session.socket .front).id →
        (unroll step m' sampleRound).countP
            (fun u => calls ⟨.session 1, .onFrontReadable⟩ u.src u.label) =
          (signalledOn afterReuse.reactor.pollSet.prepare reuseRevents
            (c.session.socket .front).sockfd .readable).toNat) :=
  signals_delivered (by decide) isRun_reuse rfl (by decide +kernel) (by decide +kernel)
    (by decide +kernel) (isRun_unroll (A := Admissible) (by decide +kernel)) (by decide)
    (List.get_mem _ _) ⟨by decide +kernel, by decide +kernel⟩ (by decide +kernel)

/-! ## How long a poll takes -/

/-- No descriptor waits for `POLLOUT`, and none is going to. -/
structure Unwanting (p : PollSetImpl) : Prop where
  wanted : p.wantPollOut = ∅
  pending : ∀ fd a, p.addMap.lookup fd = some a → a.mode.write = false

theorem Unwanting.prepare {p : PollSetImpl} (h : Unwanting p) : Unwanting p.prepare where
  wanted := by
    rw [Finset.eq_empty_iff_forall_notMem]
    intro fd hfd
    change fd ∈ p.addMap.entries.foldl
      (fun want a => PollSetImpl.setMode want a.1 a.2.mode) p.wantPollOut at hfd
    rcases (mem_foldl_setMode p.addMap.nodupKeys).mp hfd with ⟨⟨x, a⟩, ha, -, hwrite⟩ | ⟨-, hin⟩
    · have hnot := h.pending x a (AList.mem_lookup_iff.mpr ha)
      rw [hnot] at hwrite
      cases hwrite
    · rw [h.wanted] at hin
      cases hin
  pending fd a ha := by cases ha

/-- As long as no session has been made, nobody waits for `POLLOUT`. -/
def UnwantingAlone (m : Machine) : Prop := m.faces = [] → Unwanting m.reactor.pollSet

theorem unwantingAlone_step {m m' : Machine} {l : Label} (h : m.Safe ∧ UnwantingAlone m)
    (hstep : Step m l m') : m'.Safe ∧ UnwantingAlone m' := by
  obtain ⟨hsafe, halone⟩ := h
  refine ⟨safe_step hsafe hstep, fun hnil => ?_⟩
  cases step_effect hsafe hstep with
  | quiet hclose hserver hnext hfaces hreactor hsnapshot =>
      rw [hreactor]
      exact halone (hfaces ▸ hnil)
  | refused hclose hserver hnext hfaces hreactor hsnapshot =>
      rw [hreactor]
      exact halone (hfaces ▸ hnil)
  | polled hclose hserver hnext hfaces hreactor hsnapshot =>
      rw [hreactor]
      exact (halone (hfaces ▸ hnil)).prepare
  -- in the other cases there is a session
  | torn i w hclose hserver hnext hw halive hold hall hfaces hreactor hsnapshot =>
      rw [hfaces, List.set_eq_nil_iff] at hnil
      rw [hnil] at hw
      cases hw
  | registered a status service w hclose hok hconnect hw hserver hnext hfaces hreactor hsnapshot =>
      rw [hfaces] at hnil
      exact absurd hnil (List.append_ne_nil_of_right_ne_nil _ (List.cons_ne_nil _ _))
  | unregistered f hclose hnew hopen hserver hnext hfaces hreactor hsnapshot =>
      rw [hfaces] at hnil
      exact absurd hnil (List.append_ne_nil_of_right_ne_nil _ (List.cons_ne_nil _ _))

theorem listening_unwanting (sockfd : Fd) : UnwantingAlone (Machine.listening sockfd) := by
  intro _
  have hmode := addEventHandler_mode wf_empty (fun p => List.Perm.refl _)
    { SocketImpl.unopened 0 with sockfd := sockfd } Machine.acceptTarget
  change (Machine.listening sockfd).reactor.pollSet = _ at hmode
  have htargets : targets (({} : SocketReactor).addEventHandler
      { SocketImpl.unopened 0 with sockfd := sockfd } Machine.acceptTarget) 0
        = [Machine.acceptTarget] := by
    change targets (Machine.listening sockfd).reactor 0 = _
    rw [targets_listening, Function.update_self]
  rw [hmode, show ({ SocketImpl.unopened 0 with sockfd := sockfd } : SocketImpl).id = 0 from rfl,
    htargets, if_pos (show (modeOf [Machine.acceptTarget]).nonzero = true from rfl)]
  refine ⟨rfl, fun fd a ha => ?_⟩
  change ((∅ : AList fun _ : Fd => PendingAdd).insert sockfd _).lookup fd = some a at ha
  by_cases hfd : fd = sockfd
  · rw [hfd, AList.lookup_insert, Option.some.injEq] at ha
    rw [← ha]
    rfl
  · rw [AList.lookup_insert_ne hfd] at ha
    cases ha

/-- **How long a poll takes.** While a session is live, the first signals end the wait, with
interruptions before it or not. Until the first session has been accepted, a poll that comes back
before its time is over returns nothing: a connection that waits to be accepted is not seen
earlier. And if the calls take some time and are not interrupted, each poll comes to its end. -/
theorem signals_end_poll {sockfd : Fd} (hvalid : sockfd ≠ POCO_INVALID_SOCKET)
    {ts : List (Transition Machine Label)} (hrun : IsRun Step (Machine.listening sockfd) ts) :
    ∀ m ∈ states (Machine.listening sockfd) ts,
      (∀ c ∈ m.sessions, m.Live c → ∀ (timeout waited : ℕ) (interrupted rest : List Wait)
        (revents : List PollRevents), (∀ w ∈ interrupted, w.answer = .failed true) →
        revents.length = m.reactor.pollSet.prepare.pollfds.length →
        m.reactor.pollSet.poll timeout (interrupted ++ ⟨.signalled revents, waited⟩ :: rest)
          = some (.ok (m.reactor.pollSet.prepare.collect revents), m.reactor.pollSet.prepare)) ∧
      (m.sessions = [] → ∀ (timeout : ℕ) (waits : List Wait) (collected : SocketModeMap) p',
        (∀ w ∈ waits, m.reactor.pollSet.prepare.WaitOk w) →
        (waits.map Wait.waited).sum < timeout →
        m.reactor.pollSet.poll timeout waits = some (.ok collected, p') → collected = ∅) ∧
      ∀ (timeout : ℕ) (waits : List Wait),
        (∀ w ∈ waits, 0 < w.waited ∧ w.answer ≠ .failed true) → timeout < waits.length →
        m.reactor.pollSet.poll timeout waits ≠ none := by
  intro m hm
  refine ⟨?_, ?_, ?_⟩
  · intro c hc hlive timeout waited interrupted rest revents hinterrupted hlength
    obtain ⟨⟨e, he, hfd, -⟩, hwant, -⟩ :=
      (reachable_watching hvalid hrun m hm).live hc hlive .back
    have hwait := PollSetImpl.awaitSignals_prompt ⟨e, he, hfd ▸ hwant.mpr rfl⟩ hinterrupted
      hlength timeout waited rest
    unfold PollSetImpl.poll
    dsimp only
    rw [if_neg (List.ne_nil_of_mem he), hwait]
    rfl
  · intro hnil timeout waits collected p' hok hearly hpoll
    have hinvariant := invariant_states (I := fun m => m.Safe ∧ UnwantingAlone m)
      (fun _ _ _ h hstep => unwantingAlone_step h hstep)
      ⟨listening_safe sockfd, listening_unwanting sockfd⟩ hrun m hm
    have hunwanting := (hinvariant.2 (by rw [Machine.faces, hnil]; rfl)).prepare
    unfold PollSetImpl.poll at hpoll
    dsimp only at hpoll
    split at hpoll
    · rw [Option.some.injEq, Prod.mk.injEq, Except.ok.injEq] at hpoll
      exact hpoll.1.symm
    · obtain ⟨result, hwait, heq⟩ := Option.map_eq_some_iff.mp hpoll
      cases result with
      | error e => cases heq
      | ok revents =>
          rw [Prod.mk.injEq] at heq
          have hnone := PollSetImpl.awaitSignals_late
            (fun e _ => hunwanting.wanted ▸ Finset.notMem_empty _) hok hearly hwait
          rw [← Except.ok.inj heq.1, hnone, PollSetImpl.collect_none]
  · intro timeout waits hwaits hlong
    unfold PollSetImpl.poll
    dsimp only
    split
    · exact Option.some_ne_none _
    · rw [ne_eq, Option.map_eq_none_iff]
      exact PollSetImpl.awaitSignals_ends _ timeout (fun w hw => (hwaits w hw).1)
        (fun w hw => (hwaits w hw).2) hlong

/-- A connection comes after 20 milliseconds, and is not seen before the time is over. -/
def lateWaits : List Wait :=
  [⟨.signalled [⟨true, false, false, false⟩], 20000⟩, ⟨.timedOut, 229000⟩]

theorem signals_end_poll_reuse :
    (∀ c ∈ afterReuse.sessions, afterReuse.Live c →
      afterReuse.reactor.pollSet.poll 250000
          [⟨.failed true, 10⟩, ⟨.signalled reuseRevents, 40⟩]
        = some (.ok (afterReuse.reactor.pollSet.prepare.collect reuseRevents),
            afterReuse.reactor.pollSet.prepare)) ∧
      ((Machine.listening 3).reactor.pollSet.poll 250000 lateWaits).isSome = true ∧
      (∀ collected p', (Machine.listening 3).reactor.pollSet.poll 250000 lateWaits
        = some (.ok collected, p') → collected = ∅) ∧
      afterReuse.reactor.pollSet.poll 0 [⟨.signalled reuseRevents, 1⟩] ≠ none := by
  have hvalid : (3 : Fd) ≠ POCO_INVALID_SOCKET := by decide
  have hlate : ∀ w ∈ lateWaits, (Machine.listening 3).reactor.pollSet.prepare.WaitOk w := by
    intro w hw revents hanswer
    rcases List.mem_cons.mp hw with rfl | hw
    · rw [← Answer.signalled.inj hanswer]
      decide +kernel
    · rw [List.mem_singleton.mp hw] at hanswer
      cases hanswer
  refine ⟨fun c hc hlive => ?_, by decide +kernel, fun collected p' hpoll => ?_, ?_⟩
  · exact (signals_end_poll hvalid isRun_reuse afterReuse (last_mem_states _ _)).1 c hc hlive 250000
      40 [⟨.failed true, 10⟩] [] reuseRevents (by decide) (by decide +kernel)
  · exact (signals_end_poll hvalid isRun_reuse _ (mem_states.mpr (.inl rfl))).2.1 rfl 250000
      lateWaits collected p' hlate (by decide) hpoll
  · exact (signals_end_poll hvalid isRun_reuse afterReuse (last_mem_states _ _)).2.2 0
      [⟨.signalled reuseRevents, 1⟩] (by decide) (by decide)

end PocoProxy.ReactorLoop
