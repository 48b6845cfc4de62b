/-
Fields of a few bits in a word, as numbers.

A field is put into a word by a mask and a shift to the left, and taken out of it by a
shift to the right and a mask. Fields that do not overlap are put together with `|||`,
which adds their numbers.
-/
import Mathlib.Algebra.Group.Nat.Defs
import Mathlib.Tactic.Common

set_option autoImplicit false

namespace PocoProxy.BitFields

variable {n m : ℕ}

/-- The lowest `k` bits of a word. -/
theorem toNat_mask {k : ℕ} (hk : k ≤ n) (v : BitVec n) :
    (v &&& BitVec.ofNat n (2 ^ k - 1)).toNat = v.toNat % 2 ^ k := by
  have hlt : 2 ^ k - 1 < 2 ^ n := by
    have hle := Nat.pow_le_pow_right (show 0 < 2 by omega) hk
    have hpos := Nat.two_pow_pos k
    omega
  rw [BitVec.toNat_and, BitVec.toNat_ofNat, Nat.mod_eq_of_lt hlt, Nat.and_two_pow_sub_one_eq_mod]

/-- The field of `k` bits that starts at bit `s`, in a word of `m` bits. -/
theorem toNat_put {k s : ℕ} (hk : k ≤ n) (hm : k + s ≤ m) (v : BitVec n) :
    ((v &&& BitVec.ofNat n (2 ^ k - 1)).setWidth m <<< s).toNat = v.toNat % 2 ^ k * 2 ^ s := by
  have hlt : v.toNat % 2 ^ k < 2 ^ k := Nat.mod_lt _ (Nat.two_pow_pos k)
  have hkm : 2 ^ k ≤ 2 ^ m := Nat.pow_le_pow_right (by omega) (by omega)
  have hshift : v.toNat % 2 ^ k * 2 ^ s < 2 ^ m :=
    calc v.toNat % 2 ^ k * 2 ^ s
      _ < 2 ^ k * 2 ^ s := Nat.mul_lt_mul_of_pos_right hlt (Nat.two_pow_pos s)
      _ = 2 ^ (k + s) := (Nat.pow_add 2 k s).symm
      _ ≤ 2 ^ m := Nat.pow_le_pow_right (by omega) hm
  rw [BitVec.toNat_shiftLeft, BitVec.toNat_setWidth, toNat_mask hk, Nat.shiftLeft_eq,
    Nat.mod_eq_of_lt (Nat.lt_of_lt_of_le hlt hkm), Nat.mod_eq_of_lt hshift]

/-- The field is taken out again, into a word of `m` bits. -/
theorem toNat_take {k : ℕ} (hk : k ≤ n) (hm : k ≤ m) (s : ℕ) (w : BitVec n) :
    (((w >>> s) &&& BitVec.ofNat n (2 ^ k - 1)).setWidth m).toNat = w.toNat / 2 ^ s % 2 ^ k := by
  have hlt : w.toNat / 2 ^ s % 2 ^ k < 2 ^ k := Nat.mod_lt _ (Nat.two_pow_pos k)
  have hkm : 2 ^ k ≤ 2 ^ m := Nat.pow_le_pow_right (by omega) hm
  rw [BitVec.toNat_setWidth, toNat_mask hk, BitVec.toNat_ushiftRight, Nat.shiftRight_eq_div_pow,
    Nat.mod_eq_of_lt (Nat.lt_of_lt_of_le hlt hkm)]

/-- Below the bit at which the upper fields start. -/
theorem mul_two_pow_or {i b : ℕ} (hb : b < 2 ^ i) (a : ℕ) : a * 2 ^ i ||| b = a * 2 ^ i + b := by
  rw [Nat.mul_comm, ← Nat.two_pow_add_eq_or_of_lt hb]

end PocoProxy.BitFields
