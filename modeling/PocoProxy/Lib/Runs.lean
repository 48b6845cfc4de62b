/-
Runs of a labelled transition system.

A run is the list of the transitions taken, each with the state before, the
label and the state after, so that a property of the states reached and a
property of the steps taken are both statements about the members of one list.

`invariant_run` is the usual induction. `run_iff` is the rule for a property
that some steps break: when, from a state that has the property, a step keeps it
exactly if the step meets a condition, then the property holds all along a run
exactly if all the steps of the run meet the condition.
-/
import Mathlib.Data.List.Basic

set_option autoImplicit false

namespace PocoProxy.Runs

variable {σ ℓ : Type}

/-- One step of a run. -/
structure Transition (σ ℓ : Type) where
  src : σ
  label : ℓ
  dst : σ

/-- The transitions `ts` follow each other under `R`, the first one from `s`. -/
def IsRun (R : σ → ℓ → σ → Prop) : σ → List (Transition σ ℓ) → Prop
  | _, [] => True
  | s, t :: ts => t.src = s ∧ R t.src t.label t.dst ∧ IsRun R t.dst ts

/-- The states that a run passes through, the first one included. -/
def states (s : σ) (ts : List (Transition σ ℓ)) : List σ := s :: ts.map Transition.dst

/-- The state in which a run ends. -/
def last : σ → List (Transition σ ℓ) → σ
  | s, [] => s
  | _, t :: ts => last t.dst ts

@[simp] theorem isRun_nil (R : σ → ℓ → σ → Prop) (s : σ) : IsRun R s [] := trivial

@[simp] theorem isRun_cons (R : σ → ℓ → σ → Prop) (s : σ) (t : Transition σ ℓ)
    (ts : List (Transition σ ℓ)) :
    IsRun R s (t :: ts) ↔ t.src = s ∧ R t.src t.label t.dst ∧ IsRun R t.dst ts := Iff.rfl

@[simp] theorem mem_states {s x : σ} {ts : List (Transition σ ℓ)} :
    x ∈ states s ts ↔ x = s ∨ ∃ t ∈ ts, t.dst = x := by
  simp [states]

theorem last_mem_states (s : σ) (ts : List (Transition σ ℓ)) : last s ts ∈ states s ts := by
  induction ts generalizing s with
  | nil => exact List.mem_cons_self
  | cons t ts ih =>
      rw [states, List.map_cons]
      exact List.mem_cons_of_mem _ (ih t.dst)

theorem last_concat (s : σ) (ts : List (Transition σ ℓ)) (t : Transition σ ℓ) :
    last s (ts ++ [t]) = t.dst := by
  induction ts generalizing s with
  | nil => rfl
  | cons u us ih => exact ih u.dst

/-- A run goes on with a step from where it ends. -/
theorem isRun_concat {R : σ → ℓ → σ → Prop} {s s' : σ} {l : ℓ} {ts : List (Transition σ ℓ)}
    (hrun : IsRun R s ts) (hstep : R (last s ts) l s') :
    IsRun R s (ts ++ [⟨last s ts, l, s'⟩]) := by
  induction ts generalizing s with
  | nil => exact ⟨rfl, hstep, trivial⟩
  | cons t ts ih =>
      obtain ⟨rfl, ht, hts⟩ := hrun
      exact ⟨rfl, ht, ih hts hstep⟩

/-- The transitions of a run are steps. -/
theorem IsRun.step_of_mem {R : σ → ℓ → σ → Prop} {s : σ} {ts : List (Transition σ ℓ)}
    (hrun : IsRun R s ts) {t : Transition σ ℓ} (ht : t ∈ ts) : R t.src t.label t.dst := by
  induction ts generalizing s with
  | nil => cases ht
  | cons u us ih =>
      obtain ⟨-, hu, hus⟩ := hrun
      rcases List.mem_cons.mp ht with rfl | ht
      · exact hu
      · exact ih hus ht

/-- A run of a system is one of every system with more steps. -/
theorem IsRun.imp {R R' : σ → ℓ → σ → Prop} (h : ∀ s l s', R s l s' → R' s l s') {s : σ}
    {ts : List (Transition σ ℓ)} (hrun : IsRun R s ts) : IsRun R' s ts := by
  induction ts generalizing s with
  | nil => trivial
  | cons u us ih =>
      obtain ⟨hs, hu, hus⟩ := hrun
      exact ⟨hs, h _ _ _ hu, ih hus⟩

/-- The transitions of a system that computes its steps, along a list of labels. -/
def unroll (step : σ → ℓ → σ) : σ → List ℓ → List (Transition σ ℓ)
  | _, [] => []
  | s, l :: ls => ⟨s, l, step s l⟩ :: unroll step (step s l) ls

theorem last_unroll_append (step : σ → ℓ → σ) (s : σ) (as bs : List ℓ) :
    last s (unroll step s (as ++ bs))
      = last (last s (unroll step s as)) (unroll step (last s (unroll step s as)) bs) := by
  induction as generalizing s with
  | nil => rfl
  | cons a as ih => exact ih (step s a)

/-- Each label is allowed where it is taken. -/
def Allowed (A : σ → ℓ → Prop) (step : σ → ℓ → σ) : σ → List ℓ → Prop
  | _, [] => True
  | s, l :: ls => A s l ∧ Allowed A step (step s l) ls

instance Allowed.decidable {A : σ → ℓ → Prop} [∀ s l, Decidable (A s l)] {step : σ → ℓ → σ} :
    ∀ (s : σ) (ls : List ℓ), Decidable (Allowed A step s ls)
  | _, [] => inferInstanceAs (Decidable True)
  | s, l :: ls => @instDecidableAnd _ _ _ (Allowed.decidable (step s l) ls)

/-- A list of labels that are allowed in turn is a run. -/
theorem isRun_unroll {A : σ → ℓ → Prop} {step : σ → ℓ → σ} {s : σ} {ls : List ℓ}
    (h : Allowed A step s ls) :
    IsRun (fun s l s' => A s l ∧ s' = step s l) s (unroll step s ls) := by
  induction ls generalizing s with
  | nil => trivial
  | cons l ls ih => exact ⟨rfl, ⟨h.1, rfl⟩, ih h.2⟩

/-- So is every list of labels where all of them are allowed. -/
theorem isRun_unroll_all (step : σ → ℓ → σ) (s : σ) (ls : List ℓ) :
    IsRun (fun s l s' => s' = step s l) s (unroll step s ls) := by
  induction ls generalizing s with
  | nil => trivial
  | cons l ls ih => exact ⟨rfl, rfl, ih (step s l)⟩

/-- The same for a system whose steps are a partial function. -/
theorem isRun_unroll_some {step : σ → ℓ → Option σ} {s : σ} {ls : List ℓ}
    (h : Allowed (fun s l => (step s l).isSome = true) (fun s l => (step s l).getD s) s ls) :
    IsRun (fun s l s' => step s l = some s') s (unroll (fun s l => (step s l).getD s) s ls) := by
  refine (isRun_unroll h).imp fun s l s' ⟨hsome, hs'⟩ => ?_
  obtain ⟨x, hx⟩ := Option.isSome_iff_exists.mp hsome
  rw [hs', hx, Option.getD_some]

/-- **The invariant rule, under a condition on the steps.** A property of the
first state that every step meeting `C` keeps holds before and after every
step of a run whose steps all meet `C`. -/
theorem invariant_run_of {R : σ → ℓ → σ → Prop} {I : σ → Prop} {C : σ → ℓ → Prop}
    (hstep : ∀ s l s', I s → R s l s' → C s l → I s')
    {s : σ} (hs : I s) {ts : List (Transition σ ℓ)} (hrun : IsRun R s ts)
    (hC : ∀ t ∈ ts, C t.src t.label) : ∀ t ∈ ts, I t.src ∧ I t.dst := by
  induction ts generalizing s with
  | nil => simp
  | cons u us ih =>
      obtain ⟨rfl, hu, hus⟩ := hrun
      have hdst : I u.dst := hstep _ _ _ hs hu (hC u List.mem_cons_self)
      intro t ht
      rcases List.mem_cons.mp ht with rfl | ht
      · exact ⟨hs, hdst⟩
      · exact ih hdst hus (fun v hv => hC v (List.mem_cons_of_mem _ hv)) t ht

/-- The invariant rule. -/
theorem invariant_run {R : σ → ℓ → σ → Prop} {I : σ → Prop}
    (hstep : ∀ s l s', I s → R s l s' → I s')
    {s : σ} (hs : I s) {ts : List (Transition σ ℓ)} (hrun : IsRun R s ts) :
    ∀ t ∈ ts, I t.src ∧ I t.dst :=
  invariant_run_of (C := fun _ _ => True) (fun s l s' h hR _ => hstep s l s' h hR) hs hrun
    (fun _ _ => trivial)

/-- The two invariant rules, for the states that the run passes through. -/
theorem invariant_states_of {R : σ → ℓ → σ → Prop} {I : σ → Prop} {C : σ → ℓ → Prop}
    (hstep : ∀ s l s', I s → R s l s' → C s l → I s')
    {s : σ} (hs : I s) {ts : List (Transition σ ℓ)} (hrun : IsRun R s ts)
    (hC : ∀ t ∈ ts, C t.src t.label) : ∀ x ∈ states s ts, I x := by
  intro x hx
  rcases mem_states.mp hx with rfl | ⟨t, ht, rfl⟩
  · exact hs
  · exact (invariant_run_of hstep hs hrun hC t ht).2

theorem invariant_states {R : σ → ℓ → σ → Prop} {I : σ → Prop}
    (hstep : ∀ s l s', I s → R s l s' → I s')
    {s : σ} (hs : I s) {ts : List (Transition σ ℓ)} (hrun : IsRun R s ts) :
    ∀ x ∈ states s ts, I x :=
  invariant_states_of (C := fun _ _ => True) (fun s l s' h hR _ => hstep s l s' h hR) hs hrun
    (fun _ _ => trivial)

/-- **The rule for a property that some steps break.** `J` is what holds
whatever the steps do; from a state with `J` and `P`, a step keeps `P` exactly
when it meets `C`. Then `P` holds all along a run exactly when every step of the
run meets `C`: at the first step that does not, the state reached has lost `P`. -/
theorem run_iff {R : σ → ℓ → σ → Prop} {J P : σ → Prop} {C : σ → ℓ → Prop}
    (hJ : ∀ s l s', J s → R s l s' → J s')
    (hP : ∀ s l s', J s → P s → R s l s' → (P s' ↔ C s l))
    {s : σ} (hs : J s) (hp : P s) {ts : List (Transition σ ℓ)} (hrun : IsRun R s ts) :
    (∀ x ∈ states s ts, P x) ↔ ∀ t ∈ ts, C t.src t.label := by
  induction ts generalizing s with
  | nil => simp [states, hp]
  | cons u us ih =>
      obtain ⟨rfl, hu, hus⟩ := hrun
      -- the first step decides whether the rest of the run starts with `P`
      have hkey : P u.dst ↔ C u.src u.label := hP _ _ _ hs hp hu
      constructor
      · intro h
        have hdst : P u.dst := h _ (by simp)
        have hrest := (ih (hJ _ _ _ hs hu) hdst hus).mp
          (fun x hx => h x (by rw [mem_states] at hx ⊢; grind))
        intro t ht
        rcases List.mem_cons.mp ht with rfl | ht
        · exact hkey.mp hdst
        · exact hrest t ht
      · intro h
        have hdst : P u.dst := hkey.mpr (h u List.mem_cons_self)
        have hrest := (ih (hJ _ _ _ hs hu) hdst hus).mpr
          (fun t ht => h t (List.mem_cons_of_mem _ ht))
        intro x hx
        rcases List.mem_cons.mp hx with rfl | hx
        · exact hp
        · exact hrest x hx

/-- The same rule for a property of the single steps. -/
theorem steps_iff {R : σ → ℓ → σ → Prop} {J : σ → Prop} {Q : σ → ℓ → σ → Prop}
    {C : σ → ℓ → Prop}
    (hJ : ∀ s l s', J s → R s l s' → Q s l s' → J s')
    (hC : ∀ s l s', J s → R s l s' → (Q s l s' ↔ C s l))
    {s : σ} (hs : J s) {ts : List (Transition σ ℓ)} (hrun : IsRun R s ts) :
    (∀ t ∈ ts, Q t.src t.label t.dst) ↔ ∀ t ∈ ts, C t.src t.label := by
  induction ts generalizing s with
  | nil => simp
  | cons u us ih =>
      obtain ⟨rfl, hu, hus⟩ := hrun
      have hkey := hC _ _ _ hs hu
      constructor
      · intro h
        have hq := h u List.mem_cons_self
        have hrest := (ih (hJ _ _ _ hs hu hq) hus).mp
          (fun t ht => h t (List.mem_cons_of_mem _ ht))
        intro t ht
        rcases List.mem_cons.mp ht with rfl | ht
        · exact hkey.mp hq
        · exact hrest t ht
      · intro h
        have hq := hkey.mpr (h u List.mem_cons_self)
        have hrest := (ih (hJ _ _ _ hs hu hq) hus).mpr
          (fun t ht => h t (List.mem_cons_of_mem _ ht))
        intro t ht
        rcases List.mem_cons.mp ht with rfl | ht
        · exact hq
        · exact hrest t ht

/-- **The counting rule.** Where every step changes `μ` by one up if it is of the first kind
and one down if it is of the second, `μ` is what the steps of the first kind are ahead
by. -/
theorem balance_run {R : σ → ℓ → σ → Prop} {I : σ → Prop} {μ : σ → ℕ} {up down : σ → ℓ → Bool}
    (hI : ∀ s l s', I s → R s l s' → I s')
    (hμ : ∀ s l s', I s → R s l s' → μ s' + (down s l).toNat = μ s + (up s l).toNat)
    {s : σ} (hs : I s) {ts : List (Transition σ ℓ)} (hrun : IsRun R s ts) :
    μ (last s ts) + ts.countP (fun t => down t.src t.label) =
      μ s + ts.countP (fun t => up t.src t.label) := by
  induction ts generalizing s with
  | nil => rfl
  | cons u us ih =>
      obtain ⟨rfl, hu, hus⟩ := hrun
      have hhead := hμ _ _ _ hs hu
      have htail := ih (hI _ _ _ hs hu) hus
      rw [last, List.countP_cons, List.countP_cons]
      cases hdown : down u.src u.label <;> cases hup : up u.src u.label <;>
        rw [hdown, hup] at hhead <;> simp at hhead ⊢ <;> omega

/-- **The rule for termination.** Where every step keeps `μ` from growing and the counted
steps make it smaller, a run has at most as many of these as `μ` is at its start. -/
theorem measure_run {R : σ → ℓ → σ → Prop} {I : σ → Prop} {μ : σ → ℕ} {counted : ℓ → Bool}
    (hI : ∀ s l s', I s → R s l s' → I s')
    (hμ : ∀ s l s', I s → R s l s' → μ s' + (counted l).toNat ≤ μ s)
    {s : σ} (hs : I s) {ts : List (Transition σ ℓ)} (hrun : IsRun R s ts) :
    μ (last s ts) + ts.countP (fun t => counted t.label) ≤ μ s := by
  induction ts generalizing s with
  | nil => exact Nat.le_refl _
  | cons u us ih =>
      obtain ⟨rfl, hu, hus⟩ := hrun
      have hhead := hμ _ _ _ hs hu
      have htail := ih (hI _ _ _ hs hu) hus
      rw [last, List.countP_cons]
      cases hcounted : counted u.label <;> rw [hcounted] at hhead <;> simp at hhead ⊢ <;> omega

end PocoProxy.Runs
