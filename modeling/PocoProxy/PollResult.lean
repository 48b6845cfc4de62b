/-
What the poll set waits for and what it returns: the rest of `PollSetImpl::poll`.

When the set has been made ready, `WSAPoll` is called for the array until it says
something else than that it was interrupted, and then the bits that it has set in
`revents` are collected under the sockets of the map. What the calls come to, and how
long they take, is a list of `Wait`s here; the function returns `none` as long as it
has not come to an end with them.

`hasSignaledFDs` was meant to keep the loop from ending with signals that nobody
waits for. It tests `revents | POLLOUT`, which is never zero; so it says whether a
descriptor of the array waits for `POLLOUT` at all (`hasSignaledFDs_iff`).
-/
import PocoProxy.PollSet
import Mathlib.Algebra.GroupWithZero.Nat

set_option autoImplicit false

namespace PocoProxy.PollSet

open PocoProxy.Socket

/-- The bits of `revents` that are looked at. -/
structure PollRevents where
  pollIn : Bool
  pollHup : Bool
  pollOut : Bool
  pollErr : Bool
  deriving DecidableEq, Repr

/-- No bit is set. -/
def PollRevents.none : PollRevents := ⟨false, false, false, false⟩

/-- `revents | POLLOUT`. -/
def PollRevents.orPollOut (revents : PollRevents) : PollRevents := { revents with pollOut := true }

/-- A `short` as a condition. -/
def PollRevents.nonzero (revents : PollRevents) : Bool :=
  revents.pollIn || revents.pollHup || revents.pollOut || revents.pollErr

/-- What one call of `WSAPoll` comes to. -/
inductive Answer where
  /-- A number greater than zero, with the `revents` of the entries. -/
  | signalled (revents : List PollRevents)
  /-- Zero. -/
  | timedOut
  /-- Less than zero, and whether the error is `POCO_EINTR`. -/
  | failed (interrupted : Bool)
  deriving DecidableEq, Repr

structure Wait where
  answer : Answer
  /-- `end - start`, in microseconds. -/
  waited : ℕ
  deriving DecidableEq, Repr

namespace PollMode

/-- The bits of `0`. -/
def zero : PollMode := ⟨false, false, false⟩

/-- `|`. -/
def or (a b : PollMode) : PollMode := ⟨a.read || b.read, a.write || b.write, a.error || b.error⟩

theorem or_assoc (a b c : PollMode) : (a.or b).or c = a.or (b.or c) := by
  unfold or
  simp only [Bool.or_assoc]

end PollMode

/-- `PollSet::SocketModeMap`. -/
abbrev SocketModeMap := AList fun _ : SocketId => PollMode

/-- `result[socket] |= mode`. -/
def SocketModeMap.orInto (result : SocketModeMap) (s : SocketId) (mode : PollMode) :
    SocketModeMap :=
  result.insert s (((result.lookup s).getD .zero).or mode)

namespace PollSetImpl

/-- `PollSetImpl::empty`. -/
def empty (p : PollSetImpl) : Bool := p.socketMap.entries.isEmpty

/-- `PollSetImpl::hasSignaledFDs`. -/
def hasSignaledFDs (p : PollSetImpl) (revents : List PollRevents) : Bool :=
  (p.pollfds.zip revents).any fun x =>
    x.2.orPollOut.nonzero && decide (x.1.fd ∈ p.wantPollOut)

/-- The loop around `WSAPoll`. -/
def awaitSignals (p : PollSetImpl) : ℕ → List Wait →
    Option (Except Exception (List PollRevents))
  | _, [] => none
  | _, ⟨.timedOut, _⟩ :: _ => some (.ok (p.pollfds.map fun _ => .none))
  | remainingTime, ⟨.signalled revents, waited⟩ :: rest =>
    if 0 < remainingTime ∧ p.hasSignaledFDs revents = false then
      p.awaitSignals (remainingTime - waited) rest
    else some (.ok revents)
  | remainingTime, ⟨.failed interrupted, waited⟩ :: rest =>
    if interrupted then p.awaitSignals (remainingTime - waited) rest else some (.error .poco)

/-- The bits of one entry. -/
def collectEntry (p : PollSetImpl) (result : SocketModeMap) (x : PollFd × PollRevents) :
    SocketModeMap :=
  match p.socketMap.lookup x.1.fd with
  | none => result
  | some s =>
    let result := if x.2.pollIn || x.2.pollHup then
      result.orInto s ⟨true, false, false⟩ else result
    let result := if x.2.pollOut && decide (x.1.fd ∈ p.wantPollOut) then
      result.orInto s ⟨false, true, false⟩ else result
    if x.2.pollErr then result.orInto s ⟨false, false, true⟩ else result

/-- The loop over the array, after the wait. -/
def collect (p : PollSetImpl) (revents : List PollRevents) : SocketModeMap :=
  if p.empty then ∅ else (p.pollfds.zip revents).foldl p.collectEntry ∅

/-- `PollSetImpl::poll`. -/
def poll (p : PollSetImpl) (timeout : ℕ) (waits : List Wait) :
    Option (Except Exception SocketModeMap × PollSetImpl) :=
  let p := p.prepare
  if p.pollfds = [] then some (.ok ∅, p)
  else (p.awaitSignals timeout waits).map fun revents => (revents.map p.collect, p)

/-! ## What is collected -/

/-- The bits that one entry stands for. -/
def signalled (p : PollSetImpl) (x : PollFd × PollRevents) : PollMode :=
  ⟨x.2.pollIn || x.2.pollHup, x.2.pollOut && decide (x.1.fd ∈ p.wantPollOut), x.2.pollErr⟩

theorem orInto_orInto (result : SocketModeMap) (s : SocketId) (a b : PollMode) :
    (result.orInto s a).orInto s b = result.orInto s (a.or b) := by
  unfold SocketModeMap.orInto
  rw [AList.lookup_insert, Option.getD_some, AList.insert_insert, PollMode.or_assoc]

/-- The three statements together. -/
theorem collectEntry_eq (p : PollSetImpl) (result : SocketModeMap) (x : PollFd × PollRevents) :
    p.collectEntry result x =
      match p.socketMap.lookup x.1.fd with
      | none => result
      | some s => if (p.signalled x).nonzero then result.orInto s (p.signalled x) else result := by
  unfold collectEntry signalled PollMode.nonzero
  cases p.socketMap.lookup x.1.fd with
  | none => rfl
  | some s =>
      dsimp only
      cases x.2.pollIn || x.2.pollHup <;> cases x.2.pollOut && decide (x.1.fd ∈ p.wantPollOut) <;>
        cases x.2.pollErr <;>
        simp only [Bool.or_true, Bool.or_false, Bool.false_eq_true, if_true, if_false,
          orInto_orInto, PollMode.or]

section

-- `f` is one of the three bits
variable {f : PollMode → Bool} (hzero : f .zero = false)
  (hor : ∀ a b, f (a.or b) = (f a || f b))

include hzero hor

theorem collectEntry_bit (p : PollSetImpl) (result : SocketModeMap) (x : PollFd × PollRevents)
    (s : SocketId) :
    f (((p.collectEntry result x).lookup s).getD .zero) =
      (f ((result.lookup s).getD .zero) ||
        (decide (p.socketMap.lookup x.1.fd = some s) && f (p.signalled x))) := by
  rw [collectEntry_eq]
  cases hsocket : p.socketMap.lookup x.1.fd with
  | none => simp
  | some s' =>
      dsimp only
      by_cases hs : s = s'
      · subst hs
        rw [decide_eq_true rfl, Bool.true_and]
        cases hnonzero : (p.signalled x).nonzero with
        | true =>
            rw [if_pos rfl, SocketModeMap.orInto, AList.lookup_insert, Option.getD_some, hor]
        | false =>
            -- no bit is set, this one neither
            have hnone : p.signalled x = .zero := by
              rcases hx : p.signalled x with ⟨read, write, error⟩
              rw [hx] at hnonzero
              cases read <;> cases write <;> cases error <;> first | rfl | cases hnonzero
            rw [if_neg Bool.false_ne_true, hnone, hzero, Bool.or_false]
      · have hne : decide (some s' = some s) = false :=
          decide_eq_false fun h => hs (Option.some.inj h).symm
        rw [hne, Bool.false_and, Bool.or_false]
        split
        · rw [SocketModeMap.orInto, AList.lookup_insert_ne hs]
        · rfl

/-- **What is collected**: a bit is set for a socket exactly if it is signalled for an entry
whose descriptor the map has that socket for. -/
theorem collect_bit (p : PollSetImpl) (revents : List PollRevents) (s : SocketId) :
    f (((p.collect revents).lookup s).getD .zero) =
      (p.pollfds.zip revents).any fun x =>
        decide (p.socketMap.lookup x.1.fd = some s) && f (p.signalled x) := by
  have hfold : ∀ (l : List (PollFd × PollRevents)) (result : SocketModeMap),
      f (((l.foldl p.collectEntry result).lookup s).getD .zero) =
        (f ((result.lookup s).getD .zero) ||
          l.any fun x => decide (p.socketMap.lookup x.1.fd = some s) && f (p.signalled x)) := by
    intro l
    induction l with
    | nil =>
        intro result
        rw [List.foldl_nil, List.any_nil, Bool.or_false]
    | cons x xs ih =>
        intro result
        rw [List.foldl_cons, ih, collectEntry_bit hzero hor, List.any_cons, Bool.or_assoc]
  unfold collect
  split
  · next hempty =>
      -- an empty map has no socket
      have hnone : ∀ fd, p.socketMap.lookup fd = none := by
        intro fd
        rw [AList.lookup_eq_none]
        intro hmem
        have hnil : p.socketMap.entries = [] := List.isEmpty_iff.mp hempty
        rw [AList.mem_keys, AList.keys, hnil] at hmem
        cases hmem
      simp only [hnone, reduceCtorEq, decide_false, Bool.false_and]
      rw [List.any_eq_false.mpr fun _ _ => Bool.false_ne_true]
      exact hzero
  · rw [hfold]
    change (f (((∅ : SocketModeMap).lookup s).getD .zero) || _) = _
    rw [AList.lookup_empty, Option.getD_none, hzero, Bool.false_or]

end

/-- Where no bit is set nothing is collected. -/
theorem collect_none (p : PollSetImpl) : p.collect (p.pollfds.map fun _ => .none) = ∅ := by
  have hfold : ∀ l : List PollFd,
      (l.zip (l.map fun _ => PollRevents.none)).foldl p.collectEntry ∅ = ∅ := by
    intro l
    induction l with
    | nil => rfl
    | cons e l ih =>
        have hentry : p.collectEntry ∅ (e, .none) = ∅ := by
          rw [collectEntry_eq]
          split
          · rfl
          · rfl
        rw [List.map_cons, List.zip_cons_cons, List.foldl_cons, hentry, ih]
  unfold collect
  split
  · rfl
  · exact hfold p.pollfds

/-! ## How long the set waits -/

/-- `hasSignaledFDs` says nothing about the signals. -/
theorem hasSignaledFDs_iff (p : PollSetImpl) {revents : List PollRevents}
    (hlength : revents.length = p.pollfds.length) :
    p.hasSignaledFDs revents = true ↔ ∃ e ∈ p.pollfds, e.fd ∈ p.wantPollOut := by
  unfold hasSignaledFDs
  rw [List.any_eq_true]
  constructor
  · rintro ⟨⟨e, x⟩, hmem, hx⟩
    exact ⟨e, (List.of_mem_zip hmem).1, of_decide_eq_true (Bool.and_eq_true _ _ ▸ hx).2⟩
  · rintro ⟨e, he, hwant⟩
    obtain ⟨i, hi, rfl⟩ := List.getElem_of_mem he
    refine ⟨(p.pollfds[i], revents[i]), ?_, ?_⟩
    · rw [List.mem_iff_getElem]
      refine ⟨i, by rw [List.length_zip]; omega, ?_⟩
      rw [List.getElem_zip]
    · rw [Bool.and_eq_true, decide_eq_true_eq]
      refine ⟨?_, hwant⟩
      unfold PollRevents.nonzero PollRevents.orPollOut
      rw [Bool.or_true, Bool.true_or]

/-- The array has as many `revents` as entries. -/
def WaitOk (p : PollSetImpl) (w : Wait) : Prop :=
  ∀ revents, w.answer = .signalled revents → revents.length = p.pollfds.length

/-- Interruptions are waited through. -/
theorem awaitSignals_interrupted (p : PollSetImpl) {waits : List Wait}
    (h : ∀ w ∈ waits, w.answer = .failed true) (remainingTime : ℕ) (rest : List Wait) :
    ∃ remaining',
      p.awaitSignals remainingTime (waits ++ rest) = p.awaitSignals remaining' rest := by
  induction waits generalizing remainingTime with
  | nil => exact ⟨remainingTime, rfl⟩
  | cons w ws ih =>
      obtain ⟨answer, waited⟩ := w
      obtain rfl : answer = .failed true := h _ List.mem_cons_self
      rw [List.cons_append, awaitSignals, if_pos rfl]
      exact ih (fun w hw => h w (List.mem_cons_of_mem _ hw)) _

/-- When a descriptor waits for `POLLOUT`, the first signals end the wait. -/
theorem awaitSignals_prompt {p : PollSetImpl} (hwant : ∃ e ∈ p.pollfds, e.fd ∈ p.wantPollOut)
    {waits : List Wait} (h : ∀ w ∈ waits, w.answer = .failed true) {revents : List PollRevents}
    (hlength : revents.length = p.pollfds.length) (remainingTime waited : ℕ) (rest : List Wait) :
    p.awaitSignals remainingTime (waits ++ ⟨.signalled revents, waited⟩ :: rest)
      = some (.ok revents) := by
  obtain ⟨remaining', heq⟩ := p.awaitSignals_interrupted h remainingTime
    (⟨.signalled revents, waited⟩ :: rest)
  have hsignaled := (p.hasSignaledFDs_iff hlength).mpr hwant
  rw [heq, awaitSignals, if_neg]
  rw [hsignaled]
  exact fun hlate => Bool.false_ne_true hlate.2.symm

/-- When none does, a wait that ends before its time is over ends without signals. -/
theorem awaitSignals_late {p : PollSetImpl} (hwant : ∀ e ∈ p.pollfds, e.fd ∉ p.wantPollOut)
    {remainingTime : ℕ} {waits : List Wait} (hok : ∀ w ∈ waits, p.WaitOk w)
    (hearly : (waits.map Wait.waited).sum < remainingTime) {revents : List PollRevents}
    (h : p.awaitSignals remainingTime waits = some (.ok revents)) :
    revents = p.pollfds.map fun _ => .none := by
  induction waits generalizing remainingTime with
  | nil => cases h
  | cons w ws ih =>
      obtain ⟨answer, waited⟩ := w
      rw [List.map_cons, List.sum_cons] at hearly
      dsimp only at hearly
      have hrest : p.awaitSignals (remainingTime - waited) ws = some (.ok revents) →
          revents = p.pollfds.map fun _ => .none :=
        ih (fun w hw => hok w (List.mem_cons_of_mem _ hw)) (by omega)
      cases answer with
      | timedOut =>
          rw [awaitSignals, Option.some.injEq, Except.ok.injEq] at h
          exact h.symm
      | failed interrupted =>
          rw [awaitSignals] at h
          split at h
          · exact hrest h
          · cases h
      | signalled revents' =>
          have hlength := hok _ List.mem_cons_self revents' rfl
          have hsignaled : p.hasSignaledFDs revents' = false := by
            rw [Bool.eq_false_iff]
            intro hsignaled
            obtain ⟨e, he, hin⟩ := (p.hasSignaledFDs_iff hlength).mp hsignaled
            exact hwant e he hin
          rw [awaitSignals, if_pos ⟨by omega, hsignaled⟩] at h
          exact hrest h

/-- **The wait ends.** When every call takes some time and none is interrupted, there are at
most as many calls as microseconds, and one more. -/
theorem awaitSignals_ends (p : PollSetImpl) (timeout : ℕ) {waits : List Wait}
    (hwaited : ∀ w ∈ waits, 0 < w.waited) (hnot : ∀ w ∈ waits, w.answer ≠ .failed true)
    (hlong : timeout < waits.length) : p.awaitSignals timeout waits ≠ none := by
  induction waits generalizing timeout with
  | nil => cases hlong
  | cons w ws ih =>
      obtain ⟨answer, waited⟩ := w
      have hpositive := hwaited _ List.mem_cons_self
      have huninterrupted := hnot _ List.mem_cons_self
      dsimp only at hpositive huninterrupted
      cases answer with
      | timedOut =>
          rw [awaitSignals]
          exact Option.some_ne_none _
      | failed interrupted =>
          cases interrupted with
          | true => exact absurd rfl huninterrupted
          | false =>
              rw [awaitSignals, if_neg Bool.false_ne_true]
              exact Option.some_ne_none _
      | signalled revents =>
          rw [awaitSignals]
          split
          · next hlate =>
              rw [List.length_cons] at hlong
              exact ih _ (fun w hw => hwaited w (List.mem_cons_of_mem _ hw))
                (fun w hw => hnot w (List.mem_cons_of_mem _ hw)) (by omega)
          · exact Option.some_ne_none _

end PollSetImpl

end PocoProxy.PollSet
