/-
The equality of positions, and their code of 16 bits.

`operator ==` looks at the fields that its left operand makes use of. It is an equivalence
as long as no special place is compared with a position of a tray that has the same number
in its `etc`, which is of no use there.

The code has one bit for the tray and three for `etc`, and stands for a special place when
these three are not zero. It loses the injector, whose `etc` is zero, and it takes the
`etc` of a position of a tray for more than it is.
-/
import PocoProxy.Lib.BitField
import PocoProxy.Vials

set_option autoImplicit false

namespace PocoProxy.Payload

open PocoProxy.BitFields

namespace U_VIAL_POS_t

/-! ## Equality -/

/-- A special place of the needle. -/
abbrev IsSpecial (v : U_VIAL_POS_t) : Prop := v.tray = 2

theorem equals_of_special {u v : U_VIAL_POS_t} (h : u.IsSpecial) :
    u.equals v = true ↔ u.etc = v.etc := by
  simp only [equals, if_pos h, beq_iff_eq]

theorem equals_of_not_special {u v : U_VIAL_POS_t} (h : ¬ u.IsSpecial) :
    u.equals v = true ↔ u.tray = v.tray ∧ u.x = v.x ∧ u.y = v.y := by
  simp only [equals, if_neg h, Bool.and_eq_true, beq_iff_eq, and_assoc]

/-- What an equivalence has to do on these three, and that it keeps the two kinds apart. -/
structure EquivalenceOn (u v w : U_VIAL_POS_t) : Prop where
  refl : u.equals u = true
  symm : u.equals v = true ↔ v.equals u = true
  trans : u.equals v = true → v.equals w = true → u.equals w = true
  apart : ¬ (u.IsSpecial ↔ v.IsSpecial) → u.equals v = false ∧ v.equals u = false

theorem equals_refl (u : U_VIAL_POS_t) : u.equals u = true := by
  by_cases hu : u.IsSpecial
  · rw [equals_of_special hu]
  · rw [equals_of_not_special hu]
    exact ⟨rfl, rfl, rfl⟩

/-- Positions of different kinds are equal from the side of the special place only. -/
theorem equals_mixed {u v : U_VIAL_POS_t} (hu : u.IsSpecial) (hv : ¬ v.IsSpecial) :
    v.equals u = false ∧ (u.equals v = true ↔ u.etc = v.etc) := by
  refine ⟨?_, equals_of_special hu⟩
  rw [Bool.eq_false_iff, Ne, equals_of_not_special hv]
  rintro ⟨htray, -⟩
  exact hv (htray.trans hu)

/-- With different numbers in `etc` they are not equal from either side. -/
theorem not_equals_of_mixed {u v : U_VIAL_POS_t} (hkind : ¬ (u.IsSpecial ↔ v.IsSpecial))
    (hetc : u.etc ≠ v.etc) : u.equals v = false ∧ v.equals u = false := by
  by_cases hu : u.IsSpecial
  · have hv : ¬ v.IsSpecial := by tauto
    obtain ⟨hvu, huv⟩ := equals_mixed hu hv
    exact ⟨Bool.eq_false_iff.2 (hetc ∘ huv.1), hvu⟩
  · have hv : v.IsSpecial := by tauto
    obtain ⟨huv, hvu⟩ := equals_mixed hv hu
    exact ⟨huv, Bool.eq_false_iff.2 fun heq => hetc (hvu.1 heq).symm⟩

theorem equals_same_kind {u v : U_VIAL_POS_t} (h : u.IsSpecial ↔ v.IsSpecial) :
    u.equals v = true ↔ v.equals u = true := by
  by_cases hu : u.IsSpecial
  · rw [equals_of_special hu, equals_of_special (h.1 hu)]
    exact eq_comm
  · rw [equals_of_not_special hu, equals_of_not_special (hu ∘ h.2)]
    exact ⟨fun ⟨ht, hx, hy⟩ => ⟨ht.symm, hx.symm, hy.symm⟩,
      fun ⟨ht, hx, hy⟩ => ⟨ht.symm, hx.symm, hy.symm⟩⟩

/-- Exactly one of the two is a special place, and the numbers in `etc` are the same. -/
def Confused (u v : U_VIAL_POS_t) : Prop := ¬ (u.IsSpecial ↔ v.IsSpecial) ∧ u.etc = v.etc

theorem equals_trans {u v w : U_VIAL_POS_t} (hkind : u.IsSpecial ↔ v.IsSpecial)
    (huv : u.equals v = true) (hvw : v.equals w = true) : u.equals w = true := by
  by_cases hu : u.IsSpecial
  · rw [equals_of_special hu] at huv ⊢
    rw [equals_of_special (hkind.1 hu)] at hvw
    exact huv.trans hvw
  · rw [equals_of_not_special hu] at huv ⊢
    rw [equals_of_not_special (hu ∘ hkind.2)] at hvw
    obtain ⟨htray, hx, hy⟩ := huv
    rw [htray, hx, hy]
    exact hvw

/-- **Equality is an equivalence** on three positions, valid or not, exactly if the first two
are not a special place and a position of a tray with the same `etc`. -/
theorem equivalenceOn_iff (u v w : U_VIAL_POS_t) : EquivalenceOn u v w ↔ ¬ Confused u v := by
  constructor
  · -- the special one of the two says that they are equal
    rintro h ⟨hkind, hetc⟩
    obtain ⟨huv, hvu⟩ := h.apart hkind
    by_cases hu : u.IsSpecial
    · rw [(equals_of_special hu).2 hetc] at huv
      exact absurd huv (by decide)
    · have hv : v.IsSpecial := by tauto
      rw [(equals_of_special hv).2 hetc.symm] at hvu
      exact absurd hvu (by decide)
  · intro h
    by_cases hkind : u.IsSpecial ↔ v.IsSpecial
    · exact ⟨equals_refl u, equals_same_kind hkind, equals_trans hkind,
        fun hmixed => absurd hkind hmixed⟩
    · have hetc : u.etc ≠ v.etc := fun hetc => h ⟨hkind, hetc⟩
      obtain ⟨huv, hvu⟩ := not_equals_of_mixed hkind hetc
      refine ⟨equals_refl u, ?_, ?_, fun _ => ⟨huv, hvu⟩⟩
      · rw [huv, hvu]
      · intro heq
        rw [huv] at heq
        exact absurd heq (by decide)

/-- The injector equals the first position of the left tray, which does not equal it. -/
theorem equals_not_equivalence : ¬ ∀ (config : SYSTEM_CONFIG_t) (u v w : U_VIAL_POS_t),
    u.isValid config = true → v.isValid config = true → w.isValid config = true →
      EquivalenceOn u v w := by
  intro h
  have hsymm := (h (SYSTEM_CONFIG_t.construct default) ⟨2, 0, 0, 0⟩ ⟨0, 0, 0, 0⟩ ⟨0, 0, 0, 0⟩
    (by decide) (by decide) (by decide)).symm
  revert hsymm
  decide

/-! ## The code as a number -/

theorem toWord_toNat (v : U_VIAL_POS_t) :
    v.toWord.toNat = v.tray.toNat % 2 * 2 ^ 15 + v.etc.toNat % 8 * 2 ^ 12
      + v.x.toNat % 64 * 2 ^ 6 + v.y.toNat % 64 := by
  have htray : ((v.tray &&& 0x1).setWidth 16 <<< 15).toNat = v.tray.toNat % 2 * 2 ^ 15 :=
    toNat_put (k := 1) (by omega) (by omega) v.tray
  have hetc : ((v.etc &&& 0x7).setWidth 16 <<< 12).toNat = v.etc.toNat % 8 * 2 ^ 12 :=
    toNat_put (k := 3) (by omega) (by omega) v.etc
  have hx : ((v.x &&& 0x3f).setWidth 16 <<< 6).toNat = v.x.toNat % 64 * 2 ^ 6 :=
    toNat_put (k := 6) (by omega) (by omega) v.x
  have hy : ((v.y &&& 0x3f).setWidth 16).toNat = v.y.toNat % 64 := by
    simpa using toNat_put (m := 16) (k := 6) (s := 0) (by omega) (by omega) v.y
  rw [toWord, BitVec.toNat_or, BitVec.toNat_or, BitVec.toNat_or, htray, hetc, hx, hy]
  -- from the left each field is below the lowest bit of those before it
  have hupper : v.tray.toNat % 2 * 2 ^ 15 ||| v.etc.toNat % 8 * 2 ^ 12
      = (v.tray.toNat % 2 * 8 + v.etc.toNat % 8) * 2 ^ 12 := by
    rw [mul_two_pow_or (by omega)]
    omega
  have hmiddle : (v.tray.toNat % 2 * 8 + v.etc.toNat % 8) * 2 ^ 12 ||| v.x.toNat % 64 * 2 ^ 6
      = ((v.tray.toNat % 2 * 8 + v.etc.toNat % 8) * 64 + v.x.toNat % 64) * 2 ^ 6 := by
    rw [mul_two_pow_or (by omega)]
    omega
  rw [hupper, hmiddle, mul_two_pow_or (by omega)]
  omega

example : toWord ⟨1, 0, 2, 3⟩ = 0x8083 := by decide

/-- The fields of the position that a word stands for. -/
theorem ofWord_toNat (w : BitVec 16) :
    (ofWord w).etc.toNat = w.toNat / 2 ^ 12 % 8 ∧ (ofWord w).x.toNat = w.toNat / 2 ^ 6 % 64 ∧
      (ofWord w).y.toNat = w.toNat % 64 ∧
      (ofWord w).tray.toNat = if w.toNat / 2 ^ 12 % 8 ≠ 0 then 2 else w.toNat / 2 ^ 15 := by
  have hetc : (((w >>> 12) &&& 0x07).setWidth 8).toNat = w.toNat / 2 ^ 12 % 8 :=
    toNat_take (k := 3) (m := 8) (by omega) (by omega) 12 w
  have hx : (((w >>> 6) &&& 0x3f).setWidth 8).toNat = w.toNat / 2 ^ 6 % 64 :=
    toNat_take (k := 6) (m := 8) (by omega) (by omega) 6 w
  have hy : ((w &&& 0x3f).setWidth 8).toNat = w.toNat % 64 := by
    simpa using toNat_take (k := 6) (m := 8) (by omega) (by omega) 0 w
  have hbit : (((w >>> 15) &&& 0x1).setWidth 8).toNat = w.toNat / 2 ^ 15 % 2 :=
    toNat_take (k := 1) (m := 8) (by omega) (by omega) 15 w
  have hzero : ((w >>> 12) &&& 0x07).setWidth 8 ≠ 0 ↔ w.toNat / 2 ^ 12 % 8 ≠ 0 := by
    rw [Ne, ← BitVec.toNat_inj, hetc]
    exact Iff.rfl
  refine ⟨hetc, hx, hy, ?_⟩
  simp only [ofWord, hzero]
  split_ifs
  · rfl
  · have := w.isLt
    omega

/-- `x` and `y` agree in the six bits that are coded. -/
def SamePlace (v w : U_VIAL_POS_t) : Prop :=
  v.x.toNat % 64 = w.x.toNat % 64 ∧ v.y.toNat % 64 = w.y.toNat % 64

/-- Two positions have one code when they agree in the bits that are coded. -/
theorem toWord_eq_iff (v w : U_VIAL_POS_t) :
    v.toWord = w.toWord ↔ v.tray.toNat % 2 = w.tray.toNat % 2 ∧
      v.etc.toNat % 8 = w.etc.toNat % 8 ∧ SamePlace v w := by
  rw [← BitVec.toNat_inj, toWord_toNat, toWord_toNat, SamePlace]
  omega

/-- The position that the code stands for. -/
theorem ofWord_toWord (v : U_VIAL_POS_t) :
    (ofWord v.toWord).etc.toNat = v.etc.toNat % 8 ∧ (ofWord v.toWord).x.toNat = v.x.toNat % 64 ∧
      (ofWord v.toWord).y.toNat = v.y.toNat % 64 ∧
      (ofWord v.toWord).tray.toNat = if v.etc.toNat % 8 ≠ 0 then 2 else v.tray.toNat % 2 := by
  have hcode := toWord_toNat v
  have hfield : v.toWord.toNat / 2 ^ 12 % 8 = v.etc.toNat % 8 := by omega
  obtain ⟨hetc, hx, hy, htray⟩ := ofWord_toNat v.toWord
  rw [hfield] at hetc htray
  refine ⟨hetc, by omega, by omega, ?_⟩
  rw [htray]
  split_ifs <;> omega

/-! ## What the code is good for -/

/-- The position comes back equal and valid. -/
def RoundTrip (config : SYSTEM_CONFIG_t) (v : U_VIAL_POS_t) : Prop :=
  (ofWord v.toWord).equals v = true ∧ (ofWord v.toWord).isValid config = true

/-- Any special place but the injector, which has the code of a position of the left tray;
and any position of a tray, unless the number in its `etc` is above those of the special
places and its three bits are not zero. -/
def Coded (v : U_VIAL_POS_t) : Prop :=
  if v.tray.toNat = 2 then v.etc.toNat ≠ 0 else v.etc.toNat % 8 = 0 ∨ v.etc.toNat ≤ 4

theorem roundTrip_iff {config : SYSTEM_CONFIG_t} {v : U_VIAL_POS_t}
    (h : v.isValid config = true) : RoundTrip config v ↔ Coded v := by
  obtain ⟨hetc, hx, hy, htray⟩ := ofWord_toWord v
  have hvalid := (isValid_iff v config).1 h
  rw [RoundTrip, equals_iff, isValid_iff, hetc, hx, hy, Coded]
  by_cases hkind : v.tray.toNat = 2
  · have hle := etc_of_isValid h hkind
    grind
  · -- the place on the tray fits into its bits
    have hplace := place_of_isValid h hkind
    have hmod : v.x.toNat % 64 = v.x.toNat ∧ v.y.toNat % 64 = v.y.toNat := by omega
    grind

/-- By the kinds of the two: where the fields that are compared agree, so do the bits that
are coded, and where they do not, those bits do not either. -/
def Told (v w : U_VIAL_POS_t) : Prop :=
  if v.tray.toNat = 2 then
    if w.tray.toNat = 2 then v.etc.toNat = w.etc.toNat → SamePlace v w
    else if v.etc.toNat = w.etc.toNat then w.tray.toNat = 0 ∧ SamePlace v w
    else ¬ (w.tray.toNat = 0 ∧ w.etc.toNat % 8 = v.etc.toNat ∧ SamePlace v w)
  else if w.tray.toNat = 2 then
    ¬ (v.tray.toNat = 0 ∧ v.etc.toNat % 8 = w.etc.toNat ∧ SamePlace v w)
  else
    v.tray.toNat = w.tray.toNat → v.x.toNat = w.x.toNat → v.y.toNat = w.y.toNat →
      v.etc.toNat % 8 = w.etc.toNat % 8

theorem same_code_iff {config : SYSTEM_CONFIG_t} {v w : U_VIAL_POS_t}
    (hv : v.isValid config = true) (hw : w.isValid config = true) :
    (v.toWord = w.toWord ↔ v.equals w = true) ↔ Told v w := by
  rw [toWord_eq_iff, equals_iff, Told]
  -- by the kinds of the two: special or on a tray
  by_cases htv : v.tray.toNat = 2 <;> by_cases htw : w.tray.toNat = 2
  · have hev := etc_of_isValid hv htv
    have hew := etc_of_isValid hw htw
    grind
  · have hev := etc_of_isValid hv htv
    have hpw := place_of_isValid hw htw
    grind
  · have hpv := place_of_isValid hv htv
    have hew := etc_of_isValid hw htw
    grind
  · have hpv := place_of_isValid hv htv
    have hpw := place_of_isValid hw htw
    grind [SamePlace]

/-- **The code is faithful** to a valid position, and tells it from another one, exactly if
it is one that is coded and the two are told from each other. -/
theorem code_faithful_iff {config : SYSTEM_CONFIG_t} {v w : U_VIAL_POS_t}
    (hv : v.isValid config = true) (hw : w.isValid config = true) :
    (RoundTrip config v ∧ (v.toWord = w.toWord ↔ v.equals w = true)) ↔ Coded v ∧ Told v w := by
  rw [roundTrip_iff hv, same_code_iff hv hw]

theorem code_faithful_iff_waste :
    (RoundTrip (SYSTEM_CONFIG_t.construct default) ⟨0, 0, 1, 2⟩ ∧
        (toWord ⟨0, 0, 1, 2⟩ = toWord ⟨2, 1, 0, 0⟩ ↔ equals ⟨0, 0, 1, 2⟩ ⟨2, 1, 0, 0⟩ = true)) ↔
      Coded ⟨0, 0, 1, 2⟩ ∧ Told ⟨0, 0, 1, 2⟩ ⟨2, 1, 0, 0⟩ :=
  code_faithful_iff (by decide) (by decide)

/-- The injector comes back as the first position of the left tray. -/
theorem code_not_faithful : ¬ ∀ (config : SYSTEM_CONFIG_t) (v w : U_VIAL_POS_t),
    v.isValid config = true → w.isValid config = true →
      RoundTrip config v ∧ (v.toWord = w.toWord ↔ v.equals w = true) := by
  intro h
  have hequal := (h (SYSTEM_CONFIG_t.construct default) ⟨2, 0, 0, 0⟩ ⟨2, 0, 0, 0⟩
    (by decide) (by decide)).1.1
  revert hequal
  decide

end U_VIAL_POS_t
end PocoProxy.Payload
