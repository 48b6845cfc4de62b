/-
What cannot go on for ever, and what is reached.

An infinite run is a sequence of states with a label at each step. Where a measure in a
well-founded order never grows and the counted steps make it smaller, there is a last one of
these.

A maximal run is one that stops only in a state without a step; it is a sequence as well, which
then stays in that state. It is weakly fair to a class of steps when one of them is taken as often
as there is one to take all the time. Where in each state such a class is due and helps on, a
maximal run that is fair reaches its goal: it neither stops before that nor goes round for ever.
From every state there is such a run (`exists_fair`).
-/
import PocoProxy.Lib.Runs
import Mathlib.Order.OrderIsoNat

set_option autoImplicit false

namespace PocoProxy.Runs

variable {σ ℓ α : Type} [PartialOrder α] [WellFoundedLT α]

/-- **The rule for infinite runs.** -/
theorem eventually_not_counted {R : σ → ℓ → σ → Prop} {I : σ → Prop} {m : σ → α}
    {C : ℓ → Bool} (hI : ∀ s l s', I s → R s l s' → I s')
    (hle : ∀ s l s', I s → R s l s' → m s' ≤ m s)
    (hlt : ∀ s l s', I s → R s l s' → C l = true → m s' < m s)
    {f : ℕ → σ} {ls : ℕ → ℓ} (hstart : I (f 0)) (hrun : ∀ n, R (f n) (ls n) (f (n + 1))) :
    ∃ N, ∀ n, N ≤ n → C (ls n) = false := by
  have hall : ∀ n, I (f n) := by
    intro n
    induction n with
    | zero => exact hstart
    | succ n ih => exact hI _ _ _ ih (hrun n)
  have hantitone : Antitone fun n => m (f n) :=
    antitone_nat_of_succ_le fun n => hle _ _ _ (hall n) (hrun n)
  obtain ⟨N, hN⟩ := WellFoundedLT.antitone_chain_condition hantitone
  refine ⟨N, fun n hn => ?_⟩
  by_contra hcounted
  have hsmaller := hlt _ _ _ (hall n) (hrun n) (Bool.not_eq_false _ ▸ hcounted)
  have hsame : m (f (n + 1)) = m (f n) := (hN (n + 1) (Nat.le_succ_of_le hn)).symm.trans (hN n hn)
  exact absurd hsame hsmaller.ne

/-! ## Maximal runs -/

/-- A step is taken, or there is none to take. -/
def Moves (R : σ → ℓ → σ → Prop) (s : σ) : Option ℓ → σ → Prop
  | some l, s' => R s l s'
  | none, s' => s' = s ∧ ∀ l t, ¬ R s l t

/-- A run that goes on as long as there is a step to take. -/
def IsMaximal (R : σ → ℓ → σ → Prop) (f : ℕ → σ) (ls : ℕ → Option ℓ) : Prop :=
  ∀ n, Moves R (f n) (ls n) (f (n + 1))

/-- From no state on, a counted step is possible all the time and none is taken. -/
def WeaklyFair (R : σ → ℓ → σ → Prop) (C : ℓ → Bool) (f : ℕ → σ) (ls : ℕ → Option ℓ) : Prop :=
  ∀ N, (∀ n, N ≤ n → ∃ l s', C l = true ∧ R (f n) l s') →
    ∃ n, N ≤ n ∧ ∃ l, ls n = some l ∧ C l = true

/-- A maximal run takes a step where there is one. -/
theorem IsMaximal.exists_step {R : σ → ℓ → σ → Prop} {f : ℕ → σ} {ls : ℕ → Option ℓ}
    (hrun : IsMaximal R f ls) {n : ℕ} (hgoes : ∃ l s', R (f n) l s') :
    ∃ l, ls n = some l ∧ R (f n) l (f (n + 1)) := by
  have hmoves := hrun n
  cases hl : ls n with
  | none =>
      rw [hl] at hmoves
      obtain ⟨l, s', hstep⟩ := hgoes
      exact absurd hstep (hmoves.2 l s')
  | some l =>
      rw [hl] at hmoves
      exact ⟨l, rfl, hmoves⟩

/-- **The rule of justice.** In each state the class `k` is due: there is a step of it to take,
and it makes the measure smaller. Any other step makes the measure smaller as well, or leaves
it, and the class that is due, as they are. -/
theorem eventually_of_just {K : Type} {R : σ → ℓ → σ → Prop} {P : σ → Prop} {m : σ → α}
    {C : K → ℓ → Bool} {k : σ → K} {f : ℕ → σ} {ls : ℕ → Option ℓ}
    (hstep : ∀ n l, ¬ P (f n) → R (f n) l (f (n + 1)) → m (f (n + 1)) < m (f n) ∨
      C (k (f n)) l = false ∧ m (f (n + 1)) = m (f n) ∧ k (f (n + 1)) = k (f n))
    (hgoes : ∀ n, ¬ P (f n) → ∃ l s', C (k (f n)) l = true ∧ R (f n) l s')
    (hrun : IsMaximal R f ls) (hfair : ∀ c, WeaklyFair R (C c) f ls) : ∃ n, P (f n) := by
  by_contra hnone
  have hnever : ∀ n, ¬ P (f n) := fun n hn => hnone ⟨n, hn⟩
  have htaken : ∀ n, ∃ l, ls n = some l ∧ R (f n) l (f (n + 1)) := by
    intro n
    obtain ⟨l, s', -, hl⟩ := hgoes n (hnever n)
    exact hrun.exists_step ⟨l, s', hl⟩
  -- the induction is on the measure
  have hfalse : ∀ a, ∀ n, m (f n) = a → False := by
    intro a
    induction a using WellFoundedLT.induction with
    | ind a ih =>
        intro n hn
        have hnot : ∀ i, ¬ m (f (n + i)) < a := fun i hlt => ih _ hlt (n + i) rfl
        have hsame : ∀ i, m (f (n + i)) = a ∧ k (f (n + i)) = k (f n) := by
          intro i
          induction i with
          | zero => exact ⟨hn, rfl⟩
          | succ i hi =>
              obtain ⟨l, -, hl⟩ := htaken (n + i)
              rcases hstep (n + i) l (hnever _) hl with hlt | ⟨-, hm, hk⟩
              · exact absurd (hi.1 ▸ hlt) (hnot (i + 1))
              · exact ⟨hm.trans hi.1, hk.trans hi.2⟩
        have hat : ∀ j, n ≤ j → m (f j) = a ∧ k (f j) = k (f n) := by
          intro j hj
          obtain ⟨i, rfl⟩ := Nat.exists_eq_add_of_le hj
          exact hsame i
        -- what is due is possible all the time, so it is taken
        obtain ⟨j, hj, l, hl, hcounted⟩ := hfair (k (f n)) n fun j hj => by
          rw [← (hat j hj).2]
          exact hgoes j (hnever j)
        obtain ⟨i, rfl⟩ := Nat.exists_eq_add_of_le hj
        obtain ⟨l', hl', hmove⟩ := htaken (n + i)
        obtain rfl := Option.some.inj (hl.symm.trans hl')
        rcases hstep (n + i) l (hnever _) hmove with hlt | ⟨hnotcounted, -⟩
        · exact hnot (i + 1) ((hsame i).1 ▸ hlt)
        · rw [(hsame i).2, hcounted] at hnotcounted
          cases hnotcounted
  exact hfalse _ 0 rfl

/-- The rule for one class. -/
theorem eventually_of_fair {R : σ → ℓ → σ → Prop} {I P : σ → Prop} {m : σ → α} {C : ℓ → Bool}
    (hI : ∀ s l s', I s → ¬ P s → R s l s' → I s')
    (hle : ∀ s l s', I s → ¬ P s → R s l s' → m s' ≤ m s)
    (hlt : ∀ s l s', I s → ¬ P s → R s l s' → C l = true → m s' < m s)
    (hgoes : ∀ s, I s → ¬ P s → ∃ l s', C l = true ∧ R s l s')
    {f : ℕ → σ} {ls : ℕ → Option ℓ} (hstart : I (f 0)) (hrun : IsMaximal R f ls)
    (hfair : WeaklyFair R C f ls) : ∃ n, I (f n) ∧ P (f n) := by
  by_contra hnone
  have hnever : ∀ n, I (f n) → ¬ P (f n) := fun n hn hp => hnone ⟨n, hn, hp⟩
  have hall : ∀ n, I (f n) := by
    intro n
    induction n with
    | zero => exact hstart
    | succ n ih =>
        obtain ⟨l, s', -, hl⟩ := hgoes _ ih (hnever n ih)
        obtain ⟨l', -, hmove⟩ := hrun.exists_step ⟨l, s', hl⟩
        exact hI _ _ _ ih (hnever n ih) hmove
  obtain ⟨n, hn⟩ := eventually_of_just (K := Unit) (R := R) (P := P) (m := m) (C := fun _ => C)
    (k := fun _ => ())
    (fun n l hp hmove => by
      rcases (hle _ _ _ (hall n) hp hmove).lt_or_eq with hsmaller | hsame
      · exact .inl hsmaller
      · by_cases hcounted : C l = true
        · exact .inl (hlt _ _ _ (hall n) hp hmove hcounted)
        · exact .inr ⟨Bool.not_eq_true _ ▸ hcounted, hsame, rfl⟩)
    (fun n hp => hgoes _ (hall n) hp) hrun fun _ => hfair
  exact hnever n (hall n) hn

/-! ## There are such runs -/

section Existence

variable {σ ℓ : Type} {R : σ → ℓ → σ → Prop}

theorem exists_moves (R : σ → ℓ → σ → Prop) (C : ℓ → Bool) (s : σ) :
    ∃ o s', Moves R s o s' ∧
      ((∃ l t, C l = true ∧ R s l t) → ∃ l, o = some l ∧ C l = true) := by
  by_cases hdue : ∃ l t, C l = true ∧ R s l t
  · obtain ⟨l, t, hl, ht⟩ := hdue
    exact ⟨some l, t, ht, fun _ => ⟨l, rfl, hl⟩⟩
  · by_cases hgoes : ∃ l t, R s l t
    · obtain ⟨l, t, ht⟩ := hgoes
      exact ⟨some l, t, ht, fun h => absurd h hdue⟩
    · exact ⟨none, s, ⟨rfl, fun l t ht => hgoes ⟨l, t, ht⟩⟩, fun h => absurd h hdue⟩

/-- **From every state there is a maximal run that is fair**: a counted step is taken wherever
there is one. -/
theorem exists_fair (R : σ → ℓ → σ → Prop) (C : ℓ → Bool) (s : σ) :
    ∃ f ls, f 0 = s ∧ IsMaximal R f ls ∧ WeaklyFair R C f ls := by
  choose label next hmoves hcounted using exists_moves R C
  refine ⟨fun n => next^[n] s, fun n => label (next^[n] s), rfl, fun n => ?_, fun N hdue => ?_⟩
  · dsimp only
    rw [Function.iterate_succ_apply']
    exact hmoves _
  · exact ⟨N, le_refl N, hcounted _ (hdue N (le_refl N))⟩

/-- What a list of labels leads to, and the end of that for ever. -/
def stopped (step : σ → ℓ → σ) (s : σ) (as : List ℓ) (n : ℕ) : σ :=
  last s (unroll step s (as.take n))

theorem stopped_zero (step : σ → ℓ → σ) (s : σ) (as : List ℓ) : stopped step s as 0 = s := rfl

theorem stopped_of_le (step : σ → ℓ → σ) (s : σ) {as : List ℓ} {n : ℕ} (h : as.length ≤ n) :
    stopped step s as n = last s (unroll step s as) := by
  rw [stopped, List.take_of_length_le h]

theorem stopped_mem_states (step : σ → ℓ → σ) (s : σ) (as : List ℓ) (n : ℕ) :
    stopped step s as n ∈ states s (unroll step s as) := by
  induction as generalizing s n with
  | nil =>
      rw [stopped_of_le step s (Nat.zero_le n)]
      exact List.mem_cons_self
  | cons a as ih =>
      cases n with
      | zero => exact List.mem_cons_self
      | succ n => exact List.mem_cons_of_mem _ (ih (step s a) n)

/-- A list of labels that are allowed in turn is a maximal run when there is no step after it. -/
theorem isMaximal_stopped {A : σ → ℓ → Prop} {step : σ → ℓ → σ} {s : σ} {as : List ℓ}
    (hall : Allowed A step s as) (hend : ∀ l, ¬ A (last s (unroll step s as)) l) :
    IsMaximal (fun s l s' => A s l ∧ s' = step s l) (stopped step s as) fun n => as[n]? := by
  induction as generalizing s with
  | nil =>
      intro n
      rw [stopped_of_le step s (Nat.zero_le n), stopped_of_le step s (Nat.zero_le _)]
      exact ⟨rfl, fun l _ hl => hend l hl.1⟩
  | cons a as ih =>
      rintro (_ | n)
      · exact ⟨hall.1, rfl⟩
      · exact ih hall.2 hend n

/-- It is fair, as nothing is due at the end. -/
theorem weaklyFair_stopped {A : σ → ℓ → Prop} {step : σ → ℓ → σ} {s : σ} {as : List ℓ}
    (hend : ∀ l, ¬ A (last s (unroll step s as)) l) (C : ℓ → Bool) :
    WeaklyFair (fun s l s' => A s l ∧ s' = step s l) C (stopped step s as) fun n => as[n]? := by
  intro N hdue
  obtain ⟨l, s', -, hl, -⟩ := hdue (max N as.length) (le_max_left _ _)
  rw [stopped_of_le step s (le_max_right _ _)] at hl
  exact absurd hl (hend l)

end Existence

end PocoProxy.Runs
