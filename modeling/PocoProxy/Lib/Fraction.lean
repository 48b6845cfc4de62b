/-
Finite fractions in a base.

The digits behind the point have a value below 1 (`fraction_lt_one`). A zero at their end
does not change it, and digits with no zero at the end are the only such digits of their
value (`fraction_inj`), so that taking the zeros off the end gives the same digits
exactly when the values are the same (`trim_eq_iff`).
-/
import Mathlib.Algebra.Order.Field.Basic
import Mathlib.Data.List.DropRight
import Mathlib.Data.Rat.Cast.Order
import Mathlib.Tactic.Linarith

set_option autoImplicit false

namespace PocoProxy.Fractions

variable {b : ℕ}

/-- The value of the digits behind the point. -/
def fraction : List (Fin b) → ℚ
  | [] => 0
  | d :: ds => (d.val + fraction ds) / b

@[simp] theorem fraction_nil : fraction ([] : List (Fin b)) = 0 := rfl

theorem fraction_cons (d : Fin b) (ds : List (Fin b)) :
    fraction (d :: ds) = (d.val + fraction ds) / b := rfl

/-- There is a base when there is a digit. -/
theorem base_pos (d : Fin b) : (0 : ℚ) < b := by
  exact_mod_cast Nat.zero_lt_of_lt d.isLt

theorem fraction_nonneg (ds : List (Fin b)) : 0 ≤ fraction ds := by
  induction ds with
  | nil => exact le_refl _
  | cons d ds ih =>
      rw [fraction_cons]
      exact div_nonneg (add_nonneg (Nat.cast_nonneg _) ih) (base_pos d).le

theorem fraction_lt_one (ds : List (Fin b)) : fraction ds < 1 := by
  induction ds with
  | nil => exact zero_lt_one
  | cons d ds ih =>
      have hd : (d.val : ℚ) + 1 ≤ b := by exact_mod_cast d.isLt
      rw [fraction_cons, div_lt_one (base_pos d)]
      linarith

/-! ## Zeros at the end -/

/-- There is no zero at the end. -/
def NoZeroAtEnd (ds : List (Fin b)) : Prop := ∀ init d, ds = init ++ [d] → d.val ≠ 0

theorem noZeroAtEnd_nil : NoZeroAtEnd ([] : List (Fin b)) := by
  intro init d h
  exact absurd h.symm (List.append_ne_nil_of_right_ne_nil _ (List.cons_ne_nil _ _))

theorem noZeroAtEnd_concat {ds : List (Fin b)} {d : Fin b} :
    NoZeroAtEnd (ds ++ [d]) ↔ d.val ≠ 0 := by
  constructor
  · intro h
    exact h ds d rfl
  · intro h init d' heq
    obtain ⟨-, rfl⟩ := List.append_singleton_inj.mp heq
    exact h

theorem NoZeroAtEnd.tail {d : Fin b} {ds : List (Fin b)} (h : NoZeroAtEnd (d :: ds)) :
    NoZeroAtEnd ds := by
  rintro init d' rfl
  exact h (d :: init) d' rfl

/-- The digits without the zeros at the end. -/
def trim (ds : List (Fin b)) : List (Fin b) := ds.rdropWhile (·.val = 0)

theorem trim_concat (ds : List (Fin b)) (d : Fin b) :
    trim (ds ++ [d]) = if d.val = 0 then trim ds else ds ++ [d] := by
  simp only [trim, List.rdropWhile_concat, decide_eq_true_eq]

/-- What is taken off are zeros. -/
theorem exists_trim_append (ds : List (Fin b)) :
    ∃ zeros : List (Fin b), ds = trim ds ++ zeros ∧ ∀ d ∈ zeros, d.val = 0 := by
  refine ⟨ds.rtakeWhile (·.val = 0), ds.rdropWhile_append_rtakeWhile.symm, ?_⟩
  intro d hd
  have hzero := List.mem_rtakeWhile_imp hd
  exact of_decide_eq_true hzero

theorem trim_noZeroAtEnd (ds : List (Fin b)) : NoZeroAtEnd (trim ds) := by
  induction ds using List.reverseRecOn with
  | nil => exact noZeroAtEnd_nil
  | append_singleton ds d ih =>
      rw [trim_concat]
      split
      next => exact ih
      next h => exact noZeroAtEnd_concat.mpr h

theorem trim_eq_self {ds : List (Fin b)} (h : NoZeroAtEnd ds) : trim ds = ds := by
  induction ds using List.reverseRecOn with
  | nil => rfl
  | append_singleton ds d _ => rw [trim_concat, if_neg (noZeroAtEnd_concat.mp h)]

theorem fraction_concat_zero (ds : List (Fin b)) {d : Fin b} (hd : d.val = 0) :
    fraction (ds ++ [d]) = fraction ds := by
  induction ds with
  | nil => rw [List.nil_append, fraction_cons, hd, fraction_nil, Nat.cast_zero, add_zero, zero_div]
  | cons e ds ih => rw [List.cons_append, fraction_cons, ih, ← fraction_cons]

/-- The zeros at the end do not change the value. -/
theorem fraction_trim (ds : List (Fin b)) : fraction (trim ds) = fraction ds := by
  induction ds using List.reverseRecOn with
  | nil => rfl
  | append_singleton ds d ih =>
      rw [trim_concat]
      split
      next h => rw [ih, fraction_concat_zero ds h]
      next => rfl

/-! ## One way to write a value -/

/-- Digits with no zero at the end have a value, unless there are none. -/
theorem fraction_pos {ds : List (Fin b)} (h : NoZeroAtEnd ds) (hne : ds ≠ []) :
    0 < fraction ds := by
  induction ds with
  | nil => exact absurd rfl hne
  | cons d ds ih =>
      rw [fraction_cons]
      refine div_pos ?_ (base_pos d)
      rcases ds.eq_nil_or_concat' with rfl | ⟨init, e, rfl⟩
      · have hd : d.val ≠ 0 := h [] d rfl
        rw [fraction_nil, add_zero]
        exact_mod_cast Nat.pos_of_ne_zero hd
      · have hrest := ih h.tail (List.append_ne_nil_of_right_ne_nil _ (List.cons_ne_nil _ _))
        exact add_pos_of_nonneg_of_pos (Nat.cast_nonneg _) hrest

/-- The first digit is what the value is before the next point. -/
theorem fraction_cons_inj {d e : Fin b} {ds es : List (Fin b)}
    (h : fraction (d :: ds) = fraction (e :: es)) : d = e ∧ fraction ds = fraction es := by
  rw [fraction_cons, fraction_cons, div_left_inj' (base_pos d).ne'] at h
  have hds := fraction_nonneg ds
  have hes := fraction_nonneg es
  have hds' := fraction_lt_one ds
  have hes' := fraction_lt_one es
  have hle : d.val < e.val + 1 := by
    have hlt : (d.val : ℚ) < e.val + 1 := by linarith
    exact_mod_cast hlt
  have hge : e.val < d.val + 1 := by
    have hlt : (e.val : ℚ) < d.val + 1 := by linarith
    exact_mod_cast hlt
  obtain rfl : d = e := Fin.ext (by omega)
  exact ⟨rfl, add_left_cancel h⟩

/-- **Digits with no zero at the end are given by their value.** -/
theorem fraction_inj {ds es : List (Fin b)} (hds : NoZeroAtEnd ds) (hes : NoZeroAtEnd es)
    (h : fraction ds = fraction es) : ds = es := by
  induction ds generalizing es with
  | nil =>
      by_contra hne
      have hpos := fraction_pos hes (Ne.symm hne)
      rw [← h, fraction_nil] at hpos
      exact lt_irrefl _ hpos
  | cons d ds ih =>
      cases es with
      | nil =>
          have hpos := fraction_pos hds (List.cons_ne_nil _ _)
          rw [h, fraction_nil] at hpos
          exact absurd hpos (lt_irrefl _)
      | cons e es =>
          obtain ⟨rfl, hrest⟩ := fraction_cons_inj h
          rw [ih hds.tail hes.tail hrest]

theorem trim_eq_iff {ds es : List (Fin b)} : trim ds = trim es ↔ fraction ds = fraction es := by
  constructor
  · intro h
    rw [← fraction_trim ds, h, fraction_trim]
  · intro h
    rw [← fraction_trim ds, ← fraction_trim es] at h
    exact fraction_inj (trim_noZeroAtEnd ds) (trim_noZeroAtEnd es) h

end PocoProxy.Fractions
