/-
One system seen through another.

A map takes the states of a system to the states of a smaller one. The first system refines the
second when each of its steps is, through the map, a step of the second or no step at all; the
second one is then free to leave out what it does not speak about. What holds in every run of
the second holds, through the map, in every run of the first.

A step of the first system may also take several steps of the second on the same states. Then
the second reaches what the first one reaches.
-/
import PocoProxy.Lib.Runs

set_option autoImplicit false

namespace PocoProxy.Runs

variable {σ ℓ τ ε : Type}

/-- From a state with `I`, a step of `R` is a step of `S` through `f`, or none. -/
def Refines (I : σ → Prop) (R : σ → ℓ → σ → Prop) (S : τ → ε → τ → Prop) (f : σ → τ) : Prop :=
  ∀ s l s', I s → R s l s' → (∃ e, S (f s) e (f s')) ∨ f s' = f s

namespace Refines

variable {I : σ → Prop} {R : σ → ℓ → σ → Prop} {S : τ → ε → τ → Prop} {f : σ → τ}

/-- A run of the first system is one of the second. It passes through the same states, and
ends in the same one. -/
theorem run (h : Refines I R S f) (hI : ∀ s l s', I s → R s l s' → I s') {s : σ} (hs : I s)
    {ts : List (Transition σ ℓ)} (hrun : IsRun R s ts) :
    ∃ us : List (Transition τ ε), IsRun S (f s) us ∧ last (f s) us = f (last s ts) ∧
      ∀ x ∈ states s ts, f x ∈ states (f s) us := by
  induction ts generalizing s with
  | nil =>
      refine ⟨[], trivial, rfl, ?_⟩
      intro x hx
      rw [List.mem_singleton.mp hx]
      exact List.mem_cons_self
  | cons u us ih =>
      obtain ⟨rfl, hu, hus⟩ := hrun
      obtain ⟨vs, hvs, hlast, hstates⟩ := ih (hI _ _ _ hs hu) hus
      rcases h _ _ _ hs hu with ⟨e, he⟩ | hsame
      · refine ⟨⟨f u.src, e, f u.dst⟩ :: vs, ⟨rfl, he, hvs⟩, hlast, ?_⟩
        intro x hx
        rcases List.mem_cons.mp hx with rfl | hx
        · exact List.mem_cons_self
        · exact List.mem_cons_of_mem _ (hstates x hx)
      · -- the step does not show
        rw [hsame] at hvs hlast hstates
        refine ⟨vs, hvs, hlast, ?_⟩
        intro x hx
        rcases List.mem_cons.mp hx with rfl | hx
        · exact List.mem_cons_self
        · exact hstates x hx

/-- **The transfer rule.** -/
theorem transfer (h : Refines I R S f) (hI : ∀ s l s', I s → R s l s' → I s') {s : σ} (hs : I s)
    {P : τ → Prop} (hP : ∀ us, IsRun S (f s) us → ∀ y ∈ states (f s) us, P y)
    {ts : List (Transition σ ℓ)} (hrun : IsRun R s ts) : ∀ x ∈ states s ts, P (f x) := by
  obtain ⟨us, hus, -, hstates⟩ := h.run hI hs hrun
  exact fun x hx => hP us hus (f x) (hstates x hx)

end Refines

/-! ## Steps that take several -/

/-- A run leads from one state to the other. -/
def Reaches (R : σ → ℓ → σ → Prop) (s s' : σ) : Prop := ∃ ts, IsRun R s ts ∧ last s ts = s'

namespace Reaches

variable {R : σ → ℓ → σ → Prop} {S : σ → ε → σ → Prop} {s s' s'' : σ}

theorem refl (R : σ → ℓ → σ → Prop) (s : σ) : Reaches R s s := ⟨[], trivial, rfl⟩

theorem step {l : ℓ} (h : Reaches R s s') (hstep : R s' l s'') : Reaches R s s'' := by
  obtain ⟨ts, hrun, rfl⟩ := h
  exact ⟨_, isRun_concat hrun hstep, last_concat s ts _⟩

theorem trans (h : Reaches R s s') (h' : Reaches R s' s'') : Reaches R s s'' := by
  obtain ⟨ts, hrun, rfl⟩ := h'
  induction ts generalizing s s' with
  | nil => exact h
  | cons t ts ih =>
      obtain ⟨rfl, ht, hts⟩ := hrun
      exact ih (h.step ht) hts

/-- **The rule for steps that take several.** -/
theorem simulated (hstep : ∀ s' l s'', Reaches S s s' → R s' l s'' → Reaches S s' s'')
    (h : Reaches R s s') : Reaches S s s' := by
  obtain ⟨ts, hrun, rfl⟩ := h
  have hall : ∀ x ∈ states s ts, Reaches S s x :=
    invariant_states (I := Reaches S s) (fun s' l s'' hs' ht => hs'.trans (hstep s' l s'' hs' ht))
      (refl S s) hrun
  exact hall _ (last_mem_states s ts)

end Reaches

end PocoProxy.Runs
