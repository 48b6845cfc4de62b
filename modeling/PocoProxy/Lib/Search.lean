/-
Searching a list in which one element matches.

A search from the front that stops at the first match, and a loop that notes every match
and so ends with the last one, find the same index in such a list.
-/
import Mathlib.Data.Int.Notation
import Mathlib.Data.List.Basic
import Mathlib.Tactic.Common

set_option autoImplicit false

namespace PocoProxy.Searches

variable {α : Type} {f g : α → Bool} {xs : List α} {i : ℕ}

/-- The element at `i` matches, and no other one. -/
structure OnlyAt (f : α → Bool) (xs : List α) (i : ℕ) : Prop where
  found : ∃ x, xs[i]? = some x ∧ f x = true
  unique : ∀ j x, xs[j]? = some x → f x = true → j = i

theorem OnlyAt.lt (h : OnlyAt f xs i) : i < xs.length := by
  obtain ⟨x, hx, -⟩ := h.found
  exact (List.getElem?_eq_some_iff.1 hx).1

theorem OnlyAt.findIdx? (h : OnlyAt f xs i) : xs.findIdx? f = some i := by
  rw [List.findIdx?_eq_some_iff_getElem]
  obtain ⟨x, hx, hfx⟩ := h.found
  obtain ⟨hi, rfl⟩ := List.getElem?_eq_some_iff.1 hx
  refine ⟨hi, hfx, ?_⟩
  intro j hji hfj
  have := h.unique j _ (List.getElem?_eq_getElem (by omega)) hfj
  omega

/-- Notes the index of an element that matches. -/
def lastRound (f : α → Bool) (found : ℤ) (entry : α × ℕ) : ℤ :=
  if f entry.1 then entry.2 else found

/-- Two searches at a time. -/
theorem foldl_lastRound_prod (entries : List (α × ℕ)) (a b : ℤ) :
    entries.foldl (fun found entry => (lastRound f found.1 entry, lastRound g found.2 entry)) (a, b)
      = (entries.foldl (lastRound f) a, entries.foldl (lastRound g) b) := by
  induction entries generalizing a b with
  | nil => rfl
  | cons entry entries ih => exact ih _ _

theorem foldl_lastRound_none (h : ∀ x ∈ xs, f x = false) (k : ℕ) (found : ℤ) :
    (xs.zipIdx k).foldl (lastRound f) found = found := by
  induction xs generalizing k with
  | nil => rfl
  | cons x xs ih =>
      have hx : f x = false := h x List.mem_cons_self
      have hsame : lastRound f found (x, k) = found := by simp [lastRound, hx]
      rw [List.zipIdx_cons, List.foldl_cons, hsame]
      exact ih (fun y hy => h y (List.mem_cons_of_mem x hy)) (k + 1)

theorem OnlyAt.tail {x : α} (h : OnlyAt f (x :: xs) (i + 1)) : OnlyAt f xs i where
  found := h.found
  unique j y hy hfy := by
    have := h.unique (j + 1) y hy hfy
    omega

theorem OnlyAt.foldl_lastRound (h : OnlyAt f xs i) (k : ℕ) (found : ℤ) :
    (xs.zipIdx k).foldl (lastRound f) found = (k + i : ℕ) := by
  induction xs generalizing i k found with
  | nil => exact absurd h.lt (Nat.not_lt_zero i)
  | cons x xs ih =>
      rw [List.zipIdx_cons, List.foldl_cons]
      cases i with
      | zero =>
          obtain ⟨y, hy, hfy⟩ := h.found
          obtain rfl : x = y := Option.some.inj hy
          -- no other element matches
          rw [foldl_lastRound_none]
          · simp [lastRound, hfy]
          · intro z hz
            obtain ⟨j, hj⟩ := List.mem_iff_getElem?.1 hz
            by_contra hfz
            have := h.unique (j + 1) z hj (by simpa using hfz)
            omega
      | succ i =>
          -- whatever has been noted is overwritten
          rw [ih h.tail]
          omega

end PocoProxy.Searches
