/-
The reactor's registry refines a plain one.

`targets` forgets the notifiers and the observer objects of a `SocketReactor` and
keeps, for each socket, which methods of which objects are called. On that view
`addEventHandler` and `removeEventHandler` are the `add` and `remove` of
`Lib/Registry`, one call after the other for the handlers of a session.

A dispatch holds on to observers that it has found earlier. `Kept` says what it
can rely on meanwhile: such an observer is still in its notifier's list, or it
has been disabled.
-/
import PocoProxy.Lib.Registry
import PocoProxy.Session
import Mathlib.Tactic.Common

set_option autoImplicit false

namespace PocoProxy.Reactor

open PocoProxy.Socket PocoProxy.PollSet PocoProxy.Registry

/-! ## The view -/

/-- What is called for a socket, in the order of registration. -/
def targets (r : SocketReactor) : Entries SocketId Target := fun s =>
  match r.getNotifier s with
  | some p => (r.notifiers p).observers.map Observer.target
  | none => []

/-- Each notifier belongs to one socket, and one without a socket is empty. -/
structure Wf (r : SocketReactor) : Prop where
  injective : ∀ s₁ s₂ p, r.getNotifier s₁ = some p → r.getNotifier s₂ = some p → s₁ = s₂
  allocated : ∀ s p, r.getNotifier s = some p → p < r.nextNotifier
  reached : ∀ p, (r.notifiers p).observers ≠ [] → ∃ s, r.getNotifier s = some p

/-- An observer that was in a list is still there, or it has been disabled. -/
structure Kept (r r' : SocketReactor) : Prop where
  observers : ∀ p o, o ∈ (r.notifiers p).observers →
    o ∈ (r'.notifiers p).observers ∨ o.id ∈ r'.disabled
  disabled : ∀ i ∈ r.disabled, i ∈ r'.disabled

/-- `r'` comes from `r` by a change after which the view is `reg`. -/
structure Becomes (r r' : SocketReactor) (reg : Entries SocketId Target) : Prop where
  wf : Wf r'
  view : targets r' = reg
  kept : Kept r r'

theorem targets_of_some {r : SocketReactor} {s : SocketId} {p : NotifierPtr}
    (h : r.getNotifier s = some p) :
    targets r s = (r.notifiers p).observers.map Observer.target := by
  rw [targets, h]

theorem targets_of_none {r : SocketReactor} {s : SocketId} (h : r.getNotifier s = none) :
    targets r s = [] := by
  rw [targets, h]

theorem wf_empty : Wf {} where
  injective s₁ s₂ p h := by cases h
  allocated s p h := by cases h
  reached p h := absurd rfl h

theorem Kept.refl (r : SocketReactor) : Kept r r := ⟨fun _ _ h => .inl h, fun _ h => h⟩

theorem Kept.trans {r₁ r₂ r₃ : SocketReactor} (h : Kept r₁ r₂) (h' : Kept r₂ r₃) : Kept r₁ r₃ where
  observers p o ho := by
    rcases h.observers p o ho with hin | hdis
    · exact h'.observers p o hin
    · exact .inr (h'.disabled _ hdis)
  disabled i hi := h'.disabled i (h.disabled i hi)

theorem Becomes.refl {r : SocketReactor} (h : Wf r) : Becomes r r (targets r) :=
  ⟨h, rfl, .refl r⟩

theorem Becomes.trans {r₁ r₂ r₃ : SocketReactor} {reg₂ reg₃ : Entries SocketId Target}
    (h : Becomes r₁ r₂ reg₂) (h' : Becomes r₂ r₃ reg₃) : Becomes r₁ r₃ reg₃ :=
  ⟨h'.wf, h'.view, h.kept.trans h'.kept⟩

/-- The poll set plays no part in the view. -/
theorem Becomes.setPollSet {r r' : SocketReactor} {reg : Entries SocketId Target}
    (h : Becomes r r' reg) (p : PollSetImpl) : Becomes r { r' with pollSet := p } reg :=
  ⟨⟨h.wf.injective, h.wf.allocated, h.wf.reached⟩, h.view, ⟨h.kept.observers, h.kept.disabled⟩⟩

theorem Becomes.ite_setPollSet {r r' : SocketReactor} {reg : Entries SocketId Target}
    (h : Becomes r r' reg) (c : Prop) [Decidable c] (p : PollSetImpl) :
    Becomes r (if c then { r' with pollSet := p } else r') reg := by
  split
  · exact h.setPollSet p
  · exact h

theorem hasObserver_iff (n : SocketNotifier) (t : Target) :
    n.hasObserver t = true ↔ t ∈ n.observers.map Observer.target := by
  rw [SocketNotifier.hasObserver, List.any_eq_true, List.mem_map]
  simp only [decide_eq_true_eq]

@[simp] theorem addObserver_notifiers (r : SocketReactor) (p : NotifierPtr) (t : Target) :
    (r.addObserver p t).notifiers
      = Function.update r.notifiers p ((r.notifiers p).addObserver ⟨r.nextObserver, t⟩) := rfl

@[simp] theorem removeObserver_notifiers (r : SocketReactor) (p : NotifierPtr) (t : Target) :
    (r.removeObserver p t).notifiers
      = Function.update r.notifiers p ((r.notifiers p).removeObserver t) := rfl

/-! ## Adding -/

theorem getOrMakeNotifier_spec {r : SocketReactor} (h : Wf r) (s : SocketId) :
    Becomes r (r.getOrMakeNotifier s).2 (targets r) ∧
      (r.getOrMakeNotifier s).2.getNotifier s = some (r.getOrMakeNotifier s).1 := by
  unfold SocketReactor.getOrMakeNotifier
  cases hs : r.getNotifier s with
  | some p => exact ⟨.refl h, hs⟩
  | none =>
      -- the new notifier's place in the heap has never been used
      have hempty : (r.notifiers r.nextNotifier).observers = [] := by
        by_contra hne
        obtain ⟨s', hs'⟩ := h.reached _ hne
        exact Nat.lt_irrefl _ (h.allocated s' _ hs')
      have hobservers : ∀ p, (Function.update r.notifiers r.nextNotifier {} p).observers
          = (r.notifiers p).observers := by
        intro p
        by_cases hp : p = r.nextNotifier
        · rw [hp, Function.update_self, hempty]
        · rw [Function.update_of_ne hp]
      have hself : (r.handlers.insert s r.nextNotifier).lookup s = some r.nextNotifier :=
        AList.lookup_insert _
      have hother : ∀ s', s' ≠ s →
          (r.handlers.insert s r.nextNotifier).lookup s' = r.handlers.lookup s' :=
        fun s' hne => AList.lookup_insert_ne hne
      have hfresh : ∀ s', r.handlers.lookup s' ≠ some r.nextNotifier := by
        intro s' hs'
        exact Nat.lt_irrefl _ (h.allocated s' _ hs')
      refine ⟨⟨⟨?_, ?_, ?_⟩, ?_, ?_, fun _ hi => hi⟩, hself⟩
      · intro s₁ s₂ p h₁ h₂
        change (r.handlers.insert s r.nextNotifier).lookup s₁ = some p at h₁
        change (r.handlers.insert s r.nextNotifier).lookup s₂ = some p at h₂
        by_cases e₁ : s₁ = s <;> by_cases e₂ : s₂ = s
        · rw [e₁, e₂]
        · rw [e₁, hself, Option.some.injEq] at h₁
          rw [hother s₂ e₂, ← h₁] at h₂
          exact absurd h₂ (hfresh s₂)
        · rw [e₂, hself, Option.some.injEq] at h₂
          rw [hother s₁ e₁, ← h₂] at h₁
          exact absurd h₁ (hfresh s₁)
        · rw [hother s₁ e₁] at h₁
          rw [hother s₂ e₂] at h₂
          exact h.injective s₁ s₂ p h₁ h₂
      · intro s' p hs'
        change (r.handlers.insert s r.nextNotifier).lookup s' = some p at hs'
        change p < r.nextNotifier + 1
        by_cases e : s' = s
        · rw [e, hself, Option.some.injEq] at hs'
          exact hs' ▸ Nat.lt_succ_self _
        · rw [hother s' e] at hs'
          exact Nat.lt_succ_of_lt (h.allocated s' p hs')
      · intro p hp
        change (Function.update r.notifiers r.nextNotifier {} p).observers ≠ [] at hp
        rw [hobservers] at hp
        obtain ⟨s', hs'⟩ := h.reached p hp
        have hne : s' ≠ s := by
          intro e
          rw [e, hs] at hs'
          cases hs'
        exact ⟨s', (hother s' hne).trans hs'⟩
      · funext s'
        by_cases e : s' = s
        · rw [e, targets_of_none hs, targets_of_some (by exact hself), hobservers, hempty,
            List.map_nil]
        · simp only [targets, SocketReactor.getNotifier, hother s' e, hobservers]
      · intro p o ho
        left
        rw [hobservers]
        exact ho

/-- Two sockets have two notifiers. -/
theorem Wf.ne_of_ne {r : SocketReactor} (h : Wf r) {s s' : SocketId} {p q : NotifierPtr}
    (hs : r.getNotifier s = some p) (hs' : r.getNotifier s' = some q) (e : s' ≠ s) : q ≠ p := by
  rintro rfl
  exact e (h.injective s' s q hs' hs)

section OneNotifier

variable {r r' : SocketReactor} {s : SocketId} {p : NotifierPtr}

/-- When only the notifier of a socket changes, its pointers stay as they should be. -/
theorem Wf.of_other (h : Wf r) (hs : r.getNotifier s = some p)
    (hmap : ∀ s', r'.getNotifier s' = r.getNotifier s')
    (hnext : r'.nextNotifier = r.nextNotifier)
    (hother : ∀ q, q ≠ p → r'.notifiers q = r.notifiers q) : Wf r' := by
  refine ⟨fun s₁ s₂ q => ?_, fun s' q => ?_, fun q hq => ?_⟩
  · rw [hmap, hmap]
    exact h.injective s₁ s₂ q
  · rw [hmap, hnext]
    exact h.allocated s' q
  · by_cases e : q = p
    · rw [e]
      exact ⟨s, (hmap s).trans hs⟩
    · rw [hother q e] at hq
      obtain ⟨s', hs'⟩ := h.reached q hq
      exact ⟨s', (hmap s').trans hs'⟩

/-- And only the targets of that socket change. -/
theorem targets_of_other (h : Wf r) (hs : r.getNotifier s = some p)
    (hmap : ∀ s', r'.getNotifier s' = r.getNotifier s')
    (hother : ∀ q, q ≠ p → r'.notifiers q = r.notifiers q) :
    targets r' = Function.update (targets r) s
      ((r'.notifiers p).observers.map Observer.target) := by
  funext s'
  by_cases e : s' = s
  · rw [e, Function.update_self, targets_of_some ((hmap s).trans hs)]
  · rw [Function.update_of_ne e]
    cases hs' : r.getNotifier s' with
    | none => rw [targets_of_none hs', targets_of_none ((hmap s').trans hs')]
    | some q =>
        rw [targets_of_some hs', targets_of_some ((hmap s').trans hs'),
          hother q (h.ne_of_ne hs hs' e)]

end OneNotifier

theorem addObserver_spec {r : SocketReactor} (h : Wf r) {s : SocketId} {p : NotifierPtr}
    (hs : r.getNotifier s = some p) (t : Target) :
    Becomes r (r.addObserver p t) (Function.update (targets r) s (targets r s ++ [t])) := by
  have hself : ((r.addObserver p t).notifiers p).observers
      = (r.notifiers p).observers ++ [⟨r.nextObserver, t⟩] := by
    rw [addObserver_notifiers, Function.update_self]
    rfl
  have hmap : ∀ s', (r.addObserver p t).getNotifier s' = r.getNotifier s' := fun _ => rfl
  have hother : ∀ q, q ≠ p → (r.addObserver p t).notifiers q = r.notifiers q :=
    fun q hq => Function.update_of_ne hq _ _
  refine ⟨h.of_other hs hmap rfl hother, ?_, ?_, fun _ hi => hi⟩
  · rw [targets_of_other h hs hmap hother, hself, targets_of_some hs, List.map_append,
      List.map_singleton]
  · intro q o ho
    left
    by_cases e : q = p
    · rw [e] at ho ⊢
      rw [hself]
      exact List.mem_append_left _ ho
    · rw [hother q e]
      exact ho

/-- **`addEventHandler`** registers the observer if it is not there yet. -/
theorem addEventHandler_spec {r : SocketReactor} (h : Wf r) (socket : SocketImpl) (t : Target) :
    Becomes r (r.addEventHandler socket t) (add (targets r) socket.id t) := by
  obtain ⟨hmake, hp⟩ := getOrMakeNotifier_spec h socket.id
  rcases hr₁ : r.getOrMakeNotifier socket.id with ⟨p, r₁⟩
  rw [hr₁] at hmake hp
  -- the registry after the second statement
  have hadd : Becomes r (if (r₁.notifiers p).hasObserver t then r₁ else r₁.addObserver p t)
      (add (targets r) socket.id t) := by
    have hmem : (r₁.notifiers p).hasObserver t = true ↔ t ∈ targets r socket.id := by
      rw [hasObserver_iff, ← targets_of_some hp, hmake.view]
    by_cases hobs : (r₁.notifiers p).hasObserver t = true
    · rw [if_pos hobs, add_of_mem (hmem.mp hobs)]
      exact hmake
    · rw [if_neg hobs, add_of_notMem (fun hin => hobs (hmem.mpr hin))]
      have hadded := addObserver_spec hmake.wf hp t
      rw [hmake.view] at hadded
      exact hmake.trans hadded
  unfold SocketReactor.addEventHandler
  rw [hr₁]
  exact hadd.ite_setPollSet _ _

/-! ## Removing -/

/-- The notifier's list without the observer. -/
theorem removeObserver_targets (n : SocketNotifier) (t : Target) :
    (n.removeObserver t).observers.map Observer.target
      = (n.observers.map Observer.target).erase t := by
  have hsame : (fun o : Observer => decide (o.target = t))
      = (fun x => t == x) ∘ Observer.target := by
    funext o
    rw [Function.comp_apply, beq_eq_decide, decide_eq_decide, eq_comm]
  rw [List.erase_eq_eraseP, List.eraseP_map, ← hsame]
  rfl

/-- An observer that the notifier's list has lost is the one that is disabled. -/
theorem mem_eraseP_or_find? {α : Type} {q : α → Bool} {a : α} {l : List α} (h : a ∈ l) :
    a ∈ l.eraseP q ∨ l.find? q = some a := by
  induction l with
  | nil => cases h
  | cons b l ih =>
      by_cases hq : q b = true
      · rw [List.eraseP_cons_of_pos hq, List.find?_cons_of_pos hq]
        rcases List.mem_cons.mp h with rfl | h
        · exact .inr rfl
        · exact .inl h
      · rw [List.eraseP_cons_of_neg hq, List.find?_cons_of_neg hq]
        rcases List.mem_cons.mp h with rfl | h
        · exact .inl List.mem_cons_self
        · exact (ih h).imp_left (List.mem_cons_of_mem _)

theorem removeObserver_kept (r : SocketReactor) (p : NotifierPtr) (t : Target) :
    Kept r (r.removeObserver p t) where
  observers q o ho := by
    by_cases e : q = p
    · rw [e] at ho ⊢
      rcases mem_eraseP_or_find? (q := fun o => o.target = t) ho with hin | hfind
      · left
        rw [removeObserver_notifiers, Function.update_self]
        exact hin
      · right
        rw [SocketReactor.removeObserver, hfind]
        exact Finset.mem_insert_self _ _
    · left
      rw [removeObserver_notifiers, Function.update_of_ne e]
      exact ho
  disabled i hi := by
    rw [SocketReactor.removeObserver]
    dsimp only
    split
    · exact Finset.mem_insert_of_mem hi
    · exact hi

/-- `removeObserver` on the notifier of a socket. -/
theorem removeObserver_spec {r : SocketReactor} (h : Wf r) {s : SocketId} {p : NotifierPtr}
    (hs : r.getNotifier s = some p) (t : Target) :
    Becomes r (r.removeObserver p t) (remove (targets r) s t) := by
  have hmap : ∀ s', (r.removeObserver p t).getNotifier s' = r.getNotifier s' := fun _ => rfl
  have hother : ∀ q, q ≠ p → (r.removeObserver p t).notifiers q = r.notifiers q :=
    fun q hq => Function.update_of_ne hq _ _
  refine ⟨h.of_other hs hmap rfl hother, ?_, removeObserver_kept r p t⟩
  rw [targets_of_other h hs hmap hother, remove, targets_of_some hs,
    ← removeObserver_targets, removeObserver_notifiers, Function.update_self]

/-- When the last observer goes, the notifier leaves the map first. -/
theorem eraseNotifier_spec {r : SocketReactor} (h : Wf r) {s : SocketId} {p : NotifierPtr}
    (hs : r.getNotifier s = some p) {o : Observer} (ho : (r.notifiers p).observers = [o]) :
    Becomes r ({ r with handlers := r.handlers.erase s }.removeObserver p o.target)
      (remove (targets r) s o.target) := by
  -- the map without the socket
  have hself : (r.handlers.erase s).lookup s = none := AList.lookup_erase _ _
  have hkeeps : ∀ s', s' ≠ s → (r.handlers.erase s).lookup s' = r.handlers.lookup s' :=
    fun s' hne => AList.lookup_erase_ne hne
  have hback : ∀ s' q, (r.handlers.erase s).lookup s' = some q →
      s' ≠ s ∧ r.handlers.lookup s' = some q := by
    intro s' q hq
    by_cases e : s' = s
    · rw [e, hself] at hq
      cases hq
    · rw [hkeeps s' e] at hq
      exact ⟨e, hq⟩
  -- the notifier that is left behind has no observers, so nothing has to reach it
  have hempty : (Function.update r.notifiers p
      ((r.notifiers p).removeObserver o.target) p).observers = [] := by
    rw [Function.update_self, SocketNotifier.removeObserver, ho, List.eraseP_cons_of_pos (by simp)]
  have hother : ∀ q, q ≠ p → Function.update r.notifiers p
      ((r.notifiers p).removeObserver o.target) q = r.notifiers q :=
    fun q hq => Function.update_of_ne hq _ _
  have hkept := removeObserver_kept { r with handlers := r.handlers.erase s } p o.target
  refine ⟨⟨?_, ?_, ?_⟩, ?_, ⟨hkept.observers, hkept.disabled⟩⟩
  · intro s₁ s₂ q h₁ h₂
    exact h.injective s₁ s₂ q (hback s₁ q h₁).2 (hback s₂ q h₂).2
  · intro s' q hq
    exact h.allocated s' q (hback s' q hq).2
  · intro q hq
    by_cases e : q = p
    · rw [e] at hq
      exact absurd hempty hq
    · have hq' : (r.notifiers q).observers ≠ [] := by
        rw [← hother q e]
        exact hq
      obtain ⟨s', hs'⟩ := h.reached q hq'
      have hne : s' ≠ s := by
        intro heq
        rw [heq, hs, Option.some.injEq] at hs'
        exact e hs'.symm
      exact ⟨s', (hkeeps s' hne).trans hs'⟩
  · funext s'
    by_cases e : s' = s
    · rw [e, remove, Function.update_self, targets_of_none (by exact hself), targets_of_some hs, ho,
        List.map_singleton, List.erase_cons_head]
    · rw [remove, Function.update_of_ne e]
      cases hs' : r.getNotifier s' with
      | none => rw [targets_of_none hs', targets_of_none (by exact (hkeeps s' e).trans hs')]
      | some q =>
          rw [targets_of_some hs', targets_of_some (by exact (hkeeps s' e).trans hs')]
          exact congrArg (fun n : SocketNotifier => n.observers.map Observer.target)
            (hother q (h.ne_of_ne hs hs' e))

/-- What `removeEventHandler` can make of the reactor: it leaves it as it is, or takes the
observer out, and with the last one the entry of the socket. -/
inductive Removal (r : SocketReactor) (socket : SocketImpl) (t : Target) : SocketReactor → Prop
  | unregistered (hs : r.getNotifier socket.id = none) : Removal r socket t r
  | unobserved {p : NotifierPtr} (hs : r.getNotifier socket.id = some p)
      (hobs : ¬ (r.notifiers p).hasObserver t = true) : Removal r socket t r
  | last {p : NotifierPtr} (hs : r.getNotifier socket.id = some p)
      (hobs : (r.notifiers p).hasObserver t = true) (hone : (r.notifiers p).countObservers = 1)
      {pollSet : PollSetImpl} (hpoll : pollSet = r.pollSet.remove socket ∨
        ∃ mode, pollSet = (r.pollSet.remove socket).update socket mode) :
      Removal r socket t
        { { r with handlers := r.handlers.erase socket.id }.removeObserver p t with
          pollSet := pollSet }
  | further {p : NotifierPtr} (hs : r.getNotifier socket.id = some p)
      (hobs : (r.notifiers p).hasObserver t = true)
      (hone : ¬ (r.notifiers p).countObservers = 1)
      {pollSet : PollSetImpl} (hpoll : pollSet = r.pollSet ∨
        ∃ mode, pollSet = r.pollSet.update socket mode) :
      Removal r socket t { r.removeObserver p t with pollSet := pollSet }

theorem removeEventHandler_removal (r : SocketReactor) (socket : SocketImpl) (t : Target) :
    Removal r socket t (r.removeEventHandler socket t) := by
  unfold SocketReactor.removeEventHandler
  cases hs : r.getNotifier socket.id with
  | none => exact .unregistered hs
  | some p =>
      dsimp only
      by_cases hobs : (r.notifiers p).hasObserver t = true
      · rw [if_pos hobs]
        by_cases hone : (r.notifiers p).countObservers = 1
        · rw [if_pos hone]
          split
          · exact .last hs hobs hone (.inr ⟨_, rfl⟩)
          · exact .last hs hobs hone (.inl rfl)
        · rw [if_neg hone]
          split
          · exact .further hs hobs hone (.inr ⟨_, rfl⟩)
          · exact .further hs hobs hone (.inl rfl)
      · rw [if_neg hobs]
        exact .unobserved hs hobs

/-- **`removeEventHandler`** takes the equal observer out. -/
theorem removeEventHandler_spec {r : SocketReactor} (h : Wf r) (socket : SocketImpl) (t : Target) :
    Becomes r (r.removeEventHandler socket t) (remove (targets r) socket.id t) := by
  have hnothing : t ∉ targets r socket.id → remove (targets r) socket.id t = targets r := by
    intro hnot
    rw [remove, List.erase_of_not_mem hnot, Function.update_eq_self]
  have hremoval := removeEventHandler_removal r socket t
  generalize r.removeEventHandler socket t = r' at hremoval ⊢
  cases hremoval with
  | unregistered hs =>
      rw [hnothing (by rw [targets_of_none hs]; exact List.not_mem_nil)]
      exact .refl h
  | unobserved hs hobs =>
      rw [hnothing (by rwa [targets_of_some hs, ← hasObserver_iff])]
      exact .refl h
  | @last p hs hobs hone pollSet hpoll =>
      -- the last observer, which takes the notifier with it
      obtain ⟨o, ho⟩ := List.length_eq_one_iff.mp hone
      have htarget : o.target = t := by
        rw [hasObserver_iff, ho, List.map_singleton, List.mem_singleton] at hobs
        exact hobs.symm
      rw [← htarget]
      exact (eraseNotifier_spec h hs ho).setPollSet _
  | further hs hobs hone hpoll => exact (removeObserver_spec h hs t).setPollSet _

end PocoProxy.Reactor

namespace PocoProxy.Session

open PocoProxy.Socket PocoProxy.PollSet PocoProxy.Registry PocoProxy.Reactor

/-! ## The handlers of a session -/

theorem addHandlers_spec {r : SocketReactor} (h : Wf r) (socket : SocketImpl) (object : ObjectId)
    (ms : List Method) :
    Becomes r (addHandlers r socket object ms)
      (addAll (targets r) socket.id (ms.map (Target.mk object))) := by
  induction ms generalizing r with
  | nil => exact .refl h
  | cons m ms ih =>
      have hfirst := addEventHandler_spec h socket ⟨object, m⟩
      have hrest := ih hfirst.wf
      rw [hfirst.view] at hrest
      exact hfirst.trans hrest

theorem removeHandlers_spec {r : SocketReactor} (h : Wf r) (socket : SocketImpl) (object : ObjectId)
    (ms : List Method) :
    Becomes r (removeHandlers r socket object ms)
      (removeAll (targets r) socket.id (ms.map (Target.mk object))) := by
  induction ms generalizing r with
  | nil => exact .refl h
  | cons m ms ih =>
      have hfirst := removeEventHandler_spec h socket ⟨object, m⟩
      have hrest := ih hfirst.wf
      rw [hfirst.view] at hrest
      exact hfirst.trans hrest

/-- On a socket with no observers, the methods are all there is afterwards. -/
theorem addHandlers_new {r : SocketReactor} (h : Wf r) (socket : SocketImpl) {s : SocketId}
    (hs : socket.id = s) (object : ObjectId) (ms : List Method) (hms : ms.Nodup)
    (hfree : targets r s = []) :
    Becomes r (addHandlers r socket object ms)
      (Function.update (targets r) s (ms.map (Target.mk object))) := by
  have hspec := addHandlers_spec h socket object ms
  have hnodup : (ms.map (Target.mk object)).Nodup :=
    hms.map fun _ _ heq => (Target.mk.inj heq).2
  rw [hs, addAll_eq (by rw [hfree]; exact hnodup), hfree, List.nil_append] at hspec
  exact hspec

/-- If they are all there is, nothing is left afterwards. -/
theorem removeHandlers_all {r : SocketReactor} (h : Wf r) (socket : SocketImpl) {s : SocketId}
    (hs : socket.id = s) (object : ObjectId) (ms : List Method)
    (hall : targets r s = ms.map (Target.mk object)) :
    Becomes r (removeHandlers r socket object ms) (Function.update (targets r) s []) := by
  have hspec := removeHandlers_spec h socket object ms
  rw [hs, removeAll_clears hall] at hspec
  exact hspec

end PocoProxy.Session
