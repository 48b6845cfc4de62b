/-
Rounding to the nearest number of a binary format.

The numbers of a format that are not negative are numbered as their bit patterns are, from zero on
up to infinity. Between two neighbours lies their midpoint, and a number is rounded to the last one
such that it is not below the midpoint before that (`le_nearest_iff`); the midpoint itself goes to
the even one of the two. So two numbers are rounded alike exactly if no midpoint parts them
(`nearest_eq_iff`), and a second rounding only takes some of the midpoints away
(`map_nearest_eq_iff`).

The search for that last one goes through the bits from the top.
-/
import Mathlib.Algebra.Order.Field.Rat
import Mathlib.Data.Nat.Cast.Order.Ring
import Mathlib.Order.Monotone.Basic
import Mathlib.Tactic.Linarith
import Mathlib.Tactic.Ring

set_option autoImplicit false

namespace PocoProxy.Rounding

/-! ## The greatest number with a property -/

section Greatest

variable (P : ℕ → Prop) [DecidablePred P]

/-- The bits below the `k`-th one are tried from the top. -/
def greatest : ℕ → ℕ → ℕ
  | 0, n => n
  | k + 1, n => greatest k (if P (n + 2 ^ k) then n + 2 ^ k else n)

theorem greatest_lt (k n : ℕ) : greatest P k n < n + 2 ^ k := by
  induction k generalizing n with
  | zero => exact Nat.lt_succ_self n
  | succ k ih =>
      have hnext := ih (if P (n + 2 ^ k) then n + 2 ^ k else n)
      rw [greatest, Nat.pow_succ]
      split_ifs at hnext ⊢ <;> omega

variable {P}

/-- Where the property goes down to every smaller number, the search finds the last one that
has it. -/
theorem le_greatest_iff (hP : ∀ {m n}, m ≤ n → P n → P m) {k n : ℕ} (hn : P n) {i : ℕ}
    (hi : i < n + 2 ^ k) : i ≤ greatest P k n ↔ P i := by
  induction k generalizing n with
  | zero =>
      rw [Nat.pow_zero, Nat.lt_succ_iff] at hi
      exact iff_of_true hi (hP hi hn)
  | succ k ih =>
      rw [Nat.pow_succ] at hi
      rw [greatest]
      by_cases hbit : P (n + 2 ^ k)
      · rw [if_pos hbit]
        exact ih hbit (by omega)
      · rw [if_neg hbit]
        by_cases hlow : i < n + 2 ^ k
        · exact ih hn hlow
        · -- neither the bit nor what is above it
          have hnot : ¬ P i := fun h => hbit (hP (Nat.le_of_not_lt hlow) h)
          have hbound := greatest_lt P k n
          exact iff_of_false (by omega) hnot

end Greatest

/-! ## Formats -/

/-- A binary format: how many bits a fraction has, how many bits behind the point the smallest
number has, and how many exponents there are below infinity. -/
structure Format where
  fraction : ℕ
  scale : ℕ
  exponents : ℕ
  deriving DecidableEq, Repr

namespace Format

def binary64 : Format := ⟨52, 1074, 2047⟩

def binary32 : Format := ⟨23, 149, 255⟩

variable (fmt : Format)

/-- The number of infinity. -/
def infinity : ℕ := fmt.exponents * 2 ^ fmt.fraction

/-- The `n`-th number, in units of the smallest one. The upper bits of `n` are the exponent, and
an exponent that is not zero stands for one bit more in front of the fraction. -/
def units (n : ℕ) : ℕ :=
  if n / 2 ^ fmt.fraction = 0 then n % 2 ^ fmt.fraction
  else (2 ^ fmt.fraction + n % 2 ^ fmt.fraction) * 2 ^ (n / 2 ^ fmt.fraction - 1)

/-- The `n`-th number; infinity has the value that is next in the row. -/
def value (n : ℕ) : ℚ := fmt.units n / 2 ^ fmt.scale

/-- The number is above the midpoint between the `n`-th number and the one before it, or it is
that midpoint and goes to the `n`-th number. -/
def Reaches (n : ℕ) (q : ℚ) : Prop :=
  n = 0 ∨ ((fmt.units (n - 1) + fmt.units n : ℕ) : ℚ) < 2 * (q * 2 ^ fmt.scale) ∨
    ((fmt.units (n - 1) + fmt.units n : ℕ) : ℚ) = 2 * (q * 2 ^ fmt.scale) ∧ n % 2 = 0

instance (n : ℕ) (q : ℚ) : Decidable (fmt.Reaches n q) := by
  unfold Reaches
  infer_instance

/-- The number that is nearest to `q`, which is not negative. -/
def nearest (q : ℚ) : ℕ :=
  greatest (fun n => n ≤ fmt.infinity ∧ fmt.Reaches n q) (fmt.infinity.log2 + 1) 0

/-- The midpoint before the `n`-th number lies between the two numbers. -/
def Parts (n : ℕ) (p q : ℚ) : Prop := ¬ (fmt.Reaches n p ↔ fmt.Reaches n q)

/-! ## The numbers and their midpoints -/

variable {fmt}

theorem units_lt_succ (n : ℕ) : fmt.units n < fmt.units (n + 1) := by
  have hpos : 0 < 2 ^ fmt.fraction := Nat.two_pow_pos _
  have hlt := Nat.mod_lt n hpos
  unfold units
  generalize 2 ^ fmt.fraction = d at hpos hlt
  by_cases hcarry : n % d + 1 = d
  · -- the fraction is full, and the exponent goes up
    have hdiv : (n + 1) / d = n / d + 1 := by
      rw [← Nat.div_add_mod n d, Nat.add_assoc, hcarry, Nat.mul_add_div hpos, Nat.div_self hpos,
        Nat.mul_add_div hpos, Nat.mod_div_self, Nat.add_zero]
    have hmod : (n + 1) % d = 0 := by
      rw [← Nat.div_add_mod n d, Nat.add_assoc, hcarry, Nat.mul_add_mod, Nat.mod_self]
    rw [hdiv, hmod, if_neg (Nat.succ_ne_zero _), Nat.add_zero, Nat.add_sub_cancel]
    by_cases hzero : n / d = 0
    · rw [if_pos hzero, hzero, Nat.pow_zero, Nat.mul_one]
      exact hlt
    · obtain ⟨e, he⟩ := Nat.exists_eq_succ_of_ne_zero hzero
      rw [if_neg hzero, he, Nat.succ_sub_one, Nat.pow_succ, ← Nat.mul_assoc, Nat.mul_right_comm]
      exact Nat.mul_lt_mul_of_pos_right (by omega) (Nat.two_pow_pos e)
  · have hlt' : n % d + 1 < d := by omega
    have hdiv : (n + 1) / d = n / d := by
      conv_lhs => rw [← Nat.div_add_mod n d, Nat.add_assoc, Nat.mul_add_div hpos]
      rw [Nat.div_eq_of_lt hlt', Nat.add_zero]
    have hmod : (n + 1) % d = n % d + 1 := by
      conv_lhs => rw [← Nat.div_add_mod n d, Nat.add_assoc, Nat.mul_add_mod]
      exact Nat.mod_eq_of_lt hlt'
    rw [hdiv, hmod]
    by_cases hzero : n / d = 0
    · rw [if_pos hzero, if_pos hzero]
      exact Nat.lt_succ_self _
    · rw [if_neg hzero, if_neg hzero]
      exact Nat.mul_lt_mul_of_pos_right (by omega) (Nat.two_pow_pos _)

theorem units_strictMono : StrictMono fmt.units := strictMono_nat_of_lt_succ units_lt_succ

/-- Who reaches a number reaches every smaller one. -/
theorem Reaches.mono {m n : ℕ} {q : ℚ} (h : fmt.Reaches n q) (hmn : m ≤ n) : fmt.Reaches m q := by
  rcases Nat.eq_zero_or_pos m with rfl | hm
  · exact .inl rfl
  rcases hmn.eq_or_lt with rfl | hlt
  · exact h
  · -- the midpoint before a smaller number is smaller
    have hlow : fmt.units (m - 1) < fmt.units (n - 1) := units_strictMono (by omega)
    have hhigh : fmt.units m < fmt.units n := units_strictMono hlt
    have hmid : ((fmt.units (m - 1) + fmt.units m : ℕ) : ℚ)
        < ((fmt.units (n - 1) + fmt.units n : ℕ) : ℚ) := by
      exact_mod_cast Nat.add_lt_add hlow hhigh
    rcases h with rfl | hreach | ⟨heq, -⟩
    · exact absurd hlt (Nat.not_lt_zero m)
    · exact .inr (.inl (hmid.trans hreach))
    · exact .inr (.inl (heq ▸ hmid))

/-- **The nearest number** is the last one that is reached. -/
theorem le_nearest_iff {n : ℕ} {q : ℚ} :
    n ≤ fmt.nearest q ↔ n ≤ fmt.infinity ∧ fmt.Reaches n q := by
  have hdown : ∀ {m n : ℕ}, m ≤ n → n ≤ fmt.infinity ∧ fmt.Reaches n q →
      m ≤ fmt.infinity ∧ fmt.Reaches m q := fun hmn h => ⟨hmn.trans h.1, h.2.mono hmn⟩
  have hbits : fmt.infinity < 2 ^ (fmt.infinity.log2 + 1) := Nat.lt_log2_self
  have hzero : 0 ≤ fmt.infinity ∧ fmt.Reaches 0 q := ⟨Nat.zero_le _, .inl rfl⟩
  have hsearch : ∀ {i : ℕ}, i < 0 + 2 ^ (fmt.infinity.log2 + 1) →
      (i ≤ fmt.nearest q ↔ i ≤ fmt.infinity ∧ fmt.Reaches i q) := fun hi =>
    le_greatest_iff hdown hzero hi
  by_cases hn : n ≤ fmt.infinity
  · exact hsearch (by rw [Nat.zero_add]; exact hn.trans_lt hbits)
  · -- the search does not go beyond infinity
    have hself := (hsearch (greatest_lt _ _ _)).mp (le_refl (fmt.nearest q))
    exact iff_of_false (fun hle => hn (hle.trans hself.1)) fun h => hn h.1

variable (fmt) in
theorem nearest_le_infinity (q : ℚ) : fmt.nearest q ≤ fmt.infinity := (le_nearest_iff.mp le_rfl).1

/-- **A second rounding**, or whatever else is done to the numbers in order, has the same result
for two numbers exactly if no midpoint at which the result changes parts them. -/
theorem map_nearest_eq_iff {β : Type} [PartialOrder β] {g : ℕ → β} (hg : Monotone g) {p q : ℚ} :
    g (fmt.nearest p) = g (fmt.nearest q) ↔
      ∀ n < fmt.infinity, g n ≠ g (n + 1) → ¬ fmt.Parts (n + 1) p q := by
  have hreach : ∀ {n : ℕ} (r : ℚ), n < fmt.infinity →
      (fmt.Reaches (n + 1) r ↔ n < fmt.nearest r) := by
    intro n r hn
    rw [Nat.lt_iff_add_one_le, le_nearest_iff]
    exact ⟨fun h => ⟨hn, h⟩, fun h => h.2⟩
  constructor
  · intro heq n hn hjump hparts
    rw [Parts, hreach p hn, hreach q hn] at hparts
    -- one of the two is below the jump and the other one above it
    have hbetween : ∀ a b, g a = g b → a ≤ n → n < b → g n = g (n + 1) := fun a b hab ha hb =>
      le_antisymm (hg (Nat.le_succ n)) ((hg hb).trans (hab ▸ hg ha))
    by_cases hp : n < fmt.nearest p
    · have hq : ¬ n < fmt.nearest q := fun hq => hparts (iff_of_true hp hq)
      exact hjump (hbetween _ _ heq.symm (Nat.le_of_not_lt hq) hp)
    · have hq : n < fmt.nearest q := by
        by_contra hq
        exact hparts (iff_of_false hp hq)
      exact hjump (hbetween _ _ heq (Nat.le_of_not_lt hp) hq)
  · intro h
    -- there is no jump between the two
    have hconst : ∀ {a b : ℚ}, (∀ n < fmt.infinity, g n ≠ g (n + 1) → ¬ fmt.Parts (n + 1) a b) →
        ∀ k, fmt.nearest a + k ≤ fmt.nearest b → g (fmt.nearest a) = g (fmt.nearest a + k) := by
      intro a b hab k
      induction k with
      | zero => exact fun _ => rfl
      | succ k ih =>
          intro hk
          have hlt : fmt.nearest a + k < fmt.infinity :=
            Nat.lt_of_lt_of_le (by omega) (nearest_le_infinity fmt b)
          rw [ih (by omega)]
          by_contra hjump
          refine hab _ hlt hjump ?_
          rw [Parts, hreach a hlt, hreach b hlt]
          exact fun hiff => absurd (hiff.mpr (by omega)) (by omega)
    rcases Nat.le_total (fmt.nearest p) (fmt.nearest q) with hle | hle
    · obtain ⟨k, hk⟩ := Nat.exists_eq_add_of_le hle
      rw [hk]
      exact hconst h k hk.ge
    · obtain ⟨k, hk⟩ := Nat.exists_eq_add_of_le hle
      rw [hk]
      refine (hconst (fun n hn hjump hparts => h n hn hjump ?_) k hk.ge).symm
      exact fun hiff => hparts hiff.symm

/-- **Two numbers are rounded alike** exactly if no midpoint parts them. -/
theorem nearest_eq_iff {p q : ℚ} :
    fmt.nearest p = fmt.nearest q ↔ ∀ n < fmt.infinity, ¬ fmt.Parts (n + 1) p q := by
  have hmono : Monotone fun n : ℕ => n := monotone_id
  rw [map_nearest_eq_iff hmono]
  exact forall₂_congr fun n _ => ⟨fun h => h (Nat.succ_ne_self n).symm, fun h _ => h⟩

theorem nearest_mono {p q : ℚ} (h : p ≤ q) : fmt.nearest p ≤ fmt.nearest q := by
  obtain ⟨hinf, hreach⟩ := le_nearest_iff.mp (le_refl (fmt.nearest p))
  refine le_nearest_iff.mpr ⟨hinf, ?_⟩
  have hscaled : 2 * (p * 2 ^ fmt.scale) ≤ 2 * (q * 2 ^ fmt.scale) := by
    have hpos : (0 : ℚ) < 2 ^ fmt.scale := by positivity
    nlinarith
  rcases hreach with hzero | hlt | ⟨heq, heven⟩
  · exact .inl hzero
  · exact .inr (.inl (hlt.trans_le hscaled))
  · rcases hscaled.eq_or_lt with hsame | hless
    · exact .inr (.inr ⟨heq.trans hsame, heven⟩)
    · exact .inr (.inl (heq ▸ hless))

theorem value_mono : Monotone fmt.value := by
  intro m n hmn
  have hunits : (fmt.units m : ℚ) ≤ fmt.units n := by
    exact_mod_cast units_strictMono.monotone hmn
  exact div_le_div_of_nonneg_right hunits (by positivity)

end Format

/-! ## With a sign -/

/-- A number of the format that is not a NaN. -/
@[ext] structure Floating (fmt : Format) where
  negative : Bool
  number : ℕ
  le_infinity : number ≤ fmt.infinity
  deriving DecidableEq

/-- The nearest number, on the side of zero that the sign says. -/
def Format.round (fmt : Format) (negative : Bool) (q : ℚ) : Floating fmt :=
  ⟨negative, fmt.nearest q, fmt.nearest_le_infinity q⟩

section

variable (fmt : Format) (negative : Bool) (q : ℚ)

@[simp] theorem Format.round_negative : (fmt.round negative q).negative = negative := rfl

@[simp] theorem Format.round_number : (fmt.round negative q).number = fmt.nearest q := rfl

end

theorem Format.round_eq_iff {fmt : Format} {negative negative' : Bool} {p q : ℚ} :
    fmt.round negative p = fmt.round negative' q
      ↔ negative = negative' ∧ fmt.nearest p = fmt.nearest q := by
  rw [round, round, Floating.mk.injEq]

end PocoProxy.Rounding
