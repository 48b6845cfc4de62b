/-
Strings in an array that end with a terminator.

`read` takes elements until it finds the terminator, and has no result when it gets to the
end of what can be read without finding one. What it returns and what it asks for are given
by the place of the first terminator (`EndsAt`).
-/
import PocoProxy.Lib.Query
import Mathlib.Data.Nat.Find
import Mathlib.Tactic.Common

set_option autoImplicit false

namespace PocoProxy.Queries

variable {β : Type} {nul : β} {m m' : ℕ → β} {p n : ℕ}

/-- The `n` elements from `p` on. -/
def elements (m : ℕ → β) (p n : ℕ) : List β := (List.range' p n).map m

@[simp] theorem elements_zero (m : ℕ → β) (p : ℕ) : elements m p 0 = [] := rfl

theorem elements_succ (m : ℕ → β) (p n : ℕ) :
    elements m p (n + 1) = m p :: elements m (p + 1) n := by
  simp only [elements, List.range'_succ, List.map_cons]

theorem elements_append (m : ℕ → β) (p n k : ℕ) :
    elements m p (n + k) = elements m p n ++ elements m (p + n) k := by
  simp only [elements, ← List.range'_append_1, List.map_append]

theorem elements_congr (h : ∀ i < n, m' (p + i) = m (p + i)) :
    elements m' p n = elements m p n := by
  apply List.map_congr_left
  intro i hi
  obtain ⟨j, hj, rfl⟩ : ∃ j < n, i = p + j := by
    rw [List.mem_range'_1] at hi
    exact ⟨i - p, by omega, by omega⟩
  exact h j hj

theorem elements_eq_replicate {b : β} (h : ∀ i < n, m (p + i) = b) :
    elements m p n = List.replicate n b := by
  induction n generalizing p with
  | zero => rfl
  | succ n ih =>
      have hrest : ∀ i < n, m (p + 1 + i) = b := by
        intro i hi
        have hplace : p + 1 + i = p + (i + 1) := by omega
        rw [hplace]
        exact h (i + 1) (by omega)
      rw [elements_succ, ih hrest, List.replicate_succ]
      exact congrArg (· :: _) (h 0 (by omega))

/-- Reads `n` elements from `p` on. -/
def readElements : ℕ → ℕ → Query ℕ β (List β)
  | 0, _ => pure []
  | n + 1, p => do
    let b ← Query.get p
    let rest ← readElements n (p + 1)
    pure (b :: rest)

@[simp] theorem run_readElements (m : ℕ → β) (n p : ℕ) :
    (readElements n p).run m = elements m p n := by
  induction n generalizing p with
  | zero => rfl
  | succ n ih => simp [readElements, elements_succ, ih]

@[simp] theorem asked_readElements (m : ℕ → β) (n p : ℕ) :
    (readElements n p : Query ℕ β _).asked m = List.range' p n := by
  induction n generalizing p with
  | zero => rfl
  | succ n ih => simp [readElements, List.range'_succ, ih]

/-- The first terminator from `p` on is at `p + n`. -/
structure EndsAt (nul : β) (m : ℕ → β) (p n : ℕ) : Prop where
  found : m (p + n) = nul
  before : ∀ i < n, m (p + i) ≠ nul

theorem EndsAt.congr (h : EndsAt nul m p n) (hsame : ∀ i ≤ n, m' (p + i) = m (p + i)) :
    EndsAt nul m' p n where
  found := by rw [hsame n (Nat.le_refl n), h.found]
  before i hi := by
    rw [hsame i (by omega)]
    exact h.before i hi

theorem EndsAt.succ (h : EndsAt nul m p (n + 1)) : EndsAt nul m (p + 1) n where
  found := by
    have hplace : p + 1 + n = p + (n + 1) := by omega
    rw [hplace, h.found]
  before i hi := by
    have hplace : p + 1 + i = p + (i + 1) := by omega
    rw [hplace]
    exact h.before (i + 1) (by omega)

variable [DecidableEq β]

/-- Reads at most `fuel` elements from `p` on, as far as the first `nul`, and returns those
before it. -/
def readTerminated (nul : β) : ℕ → ℕ → Query ℕ β (Option (List β))
  | 0, _ => pure none
  | fuel + 1, p => do
    let b ← Query.get p
    if b = nul then pure (some [])
    else
      let rest ← readTerminated nul fuel (p + 1)
      pure (rest.map (b :: ·))

theorem exists_endsAt {i : ℕ} (h : m (p + i) = nul) : ∃ n ≤ i, EndsAt nul m p n := by
  have hex : ∃ j, m (p + j) = nul := ⟨i, h⟩
  exact ⟨Nat.find hex, Nat.find_min' hex h, Nat.find_spec hex, fun j hj => Nat.find_min hex hj⟩

/-- What is returned and what is read are given by the place of the terminator. -/
theorem EndsAt.readTerminated {fuel : ℕ} (h : EndsAt nul m p n) (hfuel : n < fuel) :
    (readTerminated nul fuel p).run m = some (elements m p n) ∧
      (readTerminated nul fuel p).asked m = List.range' p (n + 1) := by
  obtain ⟨fuel, rfl⟩ : ∃ k, fuel = k + 1 := ⟨fuel - 1, by omega⟩
  induction n generalizing p fuel with
  | zero =>
      have hnul : m p = nul := h.found
      simp [Queries.readTerminated, hnul]
  | succ n ih =>
      -- the first element is read and put before what is read from the next one on
      have hne : m p ≠ nul := h.before 0 (by omega)
      obtain ⟨fuel, rfl⟩ : ∃ k, fuel = k + 1 := ⟨fuel - 1, by omega⟩
      obtain ⟨hrun, hasked⟩ := ih h.succ fuel (by omega)
      rw [Queries.readTerminated]
      simp [hne, hrun, hasked, elements_succ, List.range'_succ]

end PocoProxy.Queries
