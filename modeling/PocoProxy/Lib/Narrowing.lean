/-
Narrowing casts of unsigned numbers.

A cast to a smaller type keeps the low bits. What is computed from the result of a cast is
right when the number fits into the smaller type; here is what happens when it does not,
for a division and for a comparison.
-/
import Mathlib.Algebra.Group.Nat.Defs
import Mathlib.Tactic.Common

set_option autoImplicit false

namespace PocoProxy.Narrowing

variable {w v : ℕ}

theorem toNat_narrow_eq_iff (x : BitVec w) : (x.setWidth v).toNat = x.toNat ↔ x.toNat < 2 ^ v := by
  rw [BitVec.toNat_setWidth]
  constructor
  · intro h
    rw [← h]
    exact Nat.mod_lt _ (Nat.two_pow_pos v)
  · exact Nat.mod_eq_of_lt

/-- What a cast takes away is a multiple of `2 ^ v`. -/
theorem narrow_add_le {x : BitVec w} (h : 2 ^ v ≤ x.toNat) :
    (x.setWidth v).toNat + 2 ^ v ≤ x.toNat := by
  have hdiv : 1 ≤ x.toNat / 2 ^ v := (Nat.one_le_div_iff (Nat.two_pow_pos v)).mpr h
  calc
    (x.setWidth v).toNat + 2 ^ v = x.toNat % 2 ^ v + 2 ^ v * 1 := by
      rw [BitVec.toNat_setWidth, Nat.mul_one]
    _ ≤ x.toNat % 2 ^ v + 2 ^ v * (x.toNat / 2 ^ v) :=
      Nat.add_le_add_left (Nat.mul_le_mul_left _ hdiv) _
    _ = x.toNat := Nat.mod_add_div _ _

/-- **A cast before a division.** The quotient is right exactly when the number fits: what a
cast takes away is at least as much as any divisor of the smaller type. -/
theorem narrow_udiv_eq_iff (x : BitVec w) {d : BitVec v} (hd : 0 < d.toNat) :
    (x.setWidth v / d).toNat = x.toNat / d.toNat ↔ x.toNat < 2 ^ v := by
  rw [BitVec.toNat_udiv]
  constructor
  · intro h
    by_contra hlarge
    have hle : (x.setWidth v).toNat + d.toNat ≤ x.toNat := by
      have hcast := narrow_add_le (Nat.le_of_not_lt hlarge)
      have hfits := d.isLt
      omega
    have hquotient := Nat.div_le_div_right (c := d.toNat) hle
    rw [Nat.add_div_right _ hd, ← h] at hquotient
    exact Nat.not_succ_le_self _ hquotient
  · intro h
    rw [(toNat_narrow_eq_iff x).mpr h]

/-- **A cast before a comparison.** It goes wrong when the number does not fit and what is
left of it is too small. -/
theorem narrow_lt_iff_lt_iff (x : BitVec w) (n : BitVec v) :
    (x.setWidth v < n ↔ x.toNat < n.toNat) ↔ ¬(2 ^ v ≤ x.toNat ∧ x.setWidth v < n) := by
  have hfits := n.isLt
  rw [BitVec.lt_def]
  rcases Nat.lt_or_ge x.toNat (2 ^ v) with h | h
  · have hcast := (toNat_narrow_eq_iff x).mpr h
    omega
  · have hcast := narrow_add_le h
    omega

end PocoProxy.Narrowing
