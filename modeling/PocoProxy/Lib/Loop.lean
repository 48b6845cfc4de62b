/-
Loops that may or may not come to an end.

A round of a loop goes on with a next state or leaves with a result. `run` makes as
many rounds as there is fuel, and `Ends` says that some fuel is enough. A loop is
shown to end by a number that each round makes smaller (`ends_of_measure`), and shown
to go on for ever by an invariant under which no round leaves (`not_ends`).
-/
import Mathlib.Data.Nat.Notation
import Mathlib.Tactic.Common

set_option autoImplicit false

namespace PocoProxy.Loops

/-- What a round of a loop does. -/
inductive Round (σ ρ : Type) where
  | again (s : σ)
  | leave (r : ρ)

variable {σ ρ : Type} {round : σ → Round σ ρ}

/-- The loop from state `s`, for so many rounds. -/
def run (round : σ → Round σ ρ) : ℕ → σ → Option ρ
  | 0, _ => none
  | fuel + 1, s =>
    match round s with
    | .again s' => run round fuel s'
    | .leave r => some r

/-- A function that is run with fuel returns this. -/
def Returns (f : ℕ → Option ρ) (r : ρ) : Prop := ∃ fuel, f fuel = some r

/-- The loop ends with this result. -/
def Ends (round : σ → Round σ ρ) (s : σ) (r : ρ) : Prop := ∃ fuel, run round fuel s = some r

theorem run_again {s s' : σ} (h : round s = .again s') (fuel : ℕ) :
    run round (fuel + 1) s = run round fuel s' := by
  rw [run, h]

theorem run_leave {s : σ} {r : ρ} (h : round s = .leave r) (fuel : ℕ) :
    run round (fuel + 1) s = some r := by
  rw [run, h]

/-- More fuel changes nothing. -/
theorem run_mono {fuel more : ℕ} (hle : fuel ≤ more) {s : σ} {r : ρ}
    (h : run round fuel s = some r) : run round more s = some r := by
  induction fuel generalizing s more with
  | zero => cases h
  | succ fuel ih =>
      obtain ⟨more, rfl⟩ : ∃ k, more = k + 1 := ⟨more - 1, by omega⟩
      cases hround : round s with
      | again s' =>
          rw [run_again hround] at h ⊢
          exact ih (by omega) h
      | leave r' =>
          rw [run_leave hround] at h ⊢
          exact h

/-! ## One round -/

theorem ends_leave {s : σ} {r : ρ} (h : round s = .leave r) : Ends round s r :=
  ⟨1, run_leave h 0⟩

theorem ends_again {s s' : σ} (h : round s = .again s') {r : ρ} :
    Ends round s r ↔ Ends round s' r := by
  constructor
  · rintro ⟨fuel, hfuel⟩
    cases fuel with
    | zero => cases hfuel
    | succ fuel =>
        rw [run_again h] at hfuel
        exact ⟨fuel, hfuel⟩
  · rintro ⟨fuel, hfuel⟩
    exact ⟨fuel + 1, (run_again h fuel).trans hfuel⟩

/-- A loop has one result. -/
theorem Ends.unique {s : σ} {r r' : ρ} (h : Ends round s r) (h' : Ends round s r') : r = r' := by
  obtain ⟨fuel, hfuel⟩ := h
  obtain ⟨fuel', hfuel'⟩ := h'
  have hmore := run_mono (Nat.le_max_left fuel fuel') hfuel
  have hmore' := run_mono (Nat.le_max_right fuel fuel') hfuel'
  exact Option.some.inj (hmore.symm.trans hmore')

/-! ## The rules -/

/-- **Total correctness.** Each round keeps the invariant and makes a number smaller, or
leaves with a result as required. -/
theorem ends_of_measure {I : σ → Prop} {Q : ρ → Prop} (μ : σ → ℕ)
    (hround : ∀ s, I s → (∃ s', round s = .again s' ∧ I s' ∧ μ s' < μ s) ∨
      ∃ r, round s = .leave r ∧ Q r)
    {s : σ} (hs : I s) : ∃ r, Ends round s r ∧ Q r := by
  induction hn : μ s using Nat.strongRecOn generalizing s with
  | ind n ih =>
      rcases hround s hs with ⟨s', hagain, hs', hlt⟩ | ⟨r, hleave, hr⟩
      · obtain ⟨r, hends, hr⟩ := ih (μ s') (hn ▸ hlt) hs' rfl
        exact ⟨r, (ends_again hagain).mpr hends, hr⟩
      · exact ⟨r, ends_leave hleave, hr⟩

/-- **Going on for ever.** Under the invariant no round leaves. -/
theorem not_ends {I : σ → Prop} (hround : ∀ s, I s → ∃ s', round s = .again s' ∧ I s')
    {s : σ} (hs : I s) (r : ρ) : ¬ Ends round s r := by
  rintro ⟨fuel, hfuel⟩
  induction fuel generalizing s with
  | zero => cases hfuel
  | succ fuel ih =>
      obtain ⟨s', hagain, hs'⟩ := hround s hs
      rw [run_again hagain] at hfuel
      exact ih hs' hfuel

end PocoProxy.Loops
