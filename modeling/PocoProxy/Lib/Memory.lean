/-
Copying ranges of a flat memory.

A memory is a function from addresses, and a copy is the memory that differs
from the old one on the range written. The rules say what a copy leaves inside
and outside of its range, that a copy through a buffer is the copy itself, and
which range a copy has written, as far as the result can tell.
-/
import Mathlib.Data.Nat.Notation
import Mathlib.Init

set_option autoImplicit false

namespace PocoProxy.Memory

variable {α : Type}

/-- `memcpy(dst + d, src + s, n)`. -/
def copy (dst : ℕ → α) (d : ℕ) (src : ℕ → α) (s n : ℕ) : ℕ → α :=
  fun a => if d ≤ a ∧ a < d + n then src (s + (a - d)) else dst a

theorem copy_inside (dst : ℕ → α) (d : ℕ) (src : ℕ → α) (s : ℕ) {n i : ℕ} (hi : i < n) :
    copy dst d src s n (d + i) = src (s + i) := by
  rw [copy, if_pos (by omega), Nat.add_sub_cancel_left]

theorem copy_outside (dst : ℕ → α) {d : ℕ} (src : ℕ → α) (s : ℕ) {n a : ℕ}
    (ha : ¬ (d ≤ a ∧ a < d + n)) : copy dst d src s n a = dst a := by
  rw [copy, if_neg ha]

/-- Only the bytes of the range that is read make a difference. -/
theorem copy_congr (dst : ℕ → α) (d : ℕ) {src src' : ℕ → α} {s n : ℕ}
    (h : ∀ i < n, src (s + i) = src' (s + i)) : copy dst d src s n = copy dst d src' s n := by
  funext a
  unfold copy
  by_cases ha : d ≤ a ∧ a < d + n
  · rw [if_pos ha, if_pos ha]
    exact h _ (by omega)
  · rw [if_neg ha, if_neg ha]

/-- A copy through a buffer. -/
theorem copy_copy (dst : ℕ → α) (d : ℕ) (buffer : ℕ → α) (b : ℕ) (src : ℕ → α) (s n : ℕ) :
    copy dst d (copy buffer b src s n) b n = copy dst d src s n := by
  funext a
  by_cases ha : d ≤ a ∧ a < d + n
  · obtain ⟨i, rfl⟩ := Nat.exists_eq_add_of_le ha.1
    rw [copy_inside _ _ _ _ (by omega), copy_inside _ _ _ _ (by omega),
      copy_inside _ _ _ _ (by omega)]
  · rw [copy_outside _ _ _ ha, copy_outside _ _ _ ha]

/-- Where a value that the memory did not have is found after a copy. -/
theorem copy_const_iff {x y : α} (hxy : x ≠ y) (d s n a : ℕ) :
    copy (fun _ => y) d (fun _ => x) s n a = x ↔ d ≤ a ∧ a < d + n := by
  unfold copy
  split
  · exact iff_of_true rfl ‹_›
  · exact iff_of_false hxy.symm ‹_›

end PocoProxy.Memory
