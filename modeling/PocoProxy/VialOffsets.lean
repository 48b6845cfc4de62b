/-
Positions relative to one another.

`OffsetTo` and `OffsetFrom` look a position up in the list of `TotalVial` and count from
there. The vials are a cycle: the index is wrapped by adding the size until it is not
negative, and then by the remainder, which is the remainder of the first sum.
-/
import PocoProxy.Lib.Search
import PocoProxy.VialCode
import PocoProxy.VialOrder

set_option autoImplicit false

namespace PocoProxy.Payload

open PocoProxy.Loops PocoProxy.Searches

namespace U_VIAL_POS_t

variable {config : SYSTEM_CONFIG_t} {v w : U_VIAL_POS_t} {i j : ℕ}

/-! ## The index of a position -/

/-- The index of the vial that equals a position. -/
abbrev IndexOf (config : SYSTEM_CONFIG_t) (v : U_VIAL_POS_t) (i : ℕ) : Prop :=
  OnlyAt (fun a => a.equals v) (vials config) i

theorem indexOf_of_getElem? (hv : (vials config)[i]? = some { v with etc := 0 }) :
    IndexOf config v i where
  found := ⟨_, hv, (equals_iff_of_mem config (List.mem_of_getElem? hv) v).2 rfl⟩
  unique j a ha hequals := by
    -- both indices have the same entry, and there are no two of it
    have heq := (equals_iff_of_mem config (List.mem_of_getElem? ha) v).1 hequals
    rw [heq] at ha
    obtain ⟨hi, hvi⟩ := List.getElem?_eq_some_iff.1 hv
    obtain ⟨hj, hvj⟩ := List.getElem?_eq_some_iff.1 ha
    exact (nodup_vials config).getElem_inj_iff.1 (hvj.trans hvi.symm)

theorem exists_indexOf (hv : IsVial config v) : ∃ i, IndexOf config v i := by
  obtain ⟨i, hi⟩ := List.mem_iff_getElem?.1 (mem_vials_of_isVial config hv)
  exact ⟨i, indexOf_of_getElem? hi⟩

/-- An entry of the list is the vial at its own index. -/
theorem vial_of_getElem? (hv : (vials config)[i]? = some v) :
    IsVial config v ∧ IndexOf config v i := by
  obtain ⟨hetc, hvial⟩ := (mem_vials config v).1 (List.mem_of_getElem? hv)
  refine ⟨hvial, indexOf_of_getElem? ?_⟩
  rw [hv, ← hetc]

theorem length_vials_le (config : SYSTEM_CONFIG_t) : (vials config).length ≤ 192 := by
  have hcount (kind : UInt) : trayCount kind ≤ 96 := by
    unfold trayCount
    split_ifs <;> omega
  have := hcount config.trayLeft
  have := hcount config.trayRight
  rw [length_vials, totalVialCount]
  omega

/-! ## The two functions -/

theorem totalVial_nil (config : SYSTEM_CONFIG_t) : (totalVial config []).2 = vials config := by
  rw [totalVial_eq, List.nil_append]

/-- The loop of `OffsetFrom` makes two searches. -/
theorem foldl_compareRound (entries : List (U_VIAL_POS_t × ℕ)) (index indexBase : ℤ) :
    entries.foldl (compareRound v w) (index, indexBase)
      = (entries.foldl (lastRound fun a => a.equals v) index,
          entries.foldl (lastRound fun a => a.equals w) indexBase) := by
  rw [← foldl_lastRound_prod]
  rfl

/-- The loop that makes an index positive ends, and keeps the remainder. -/
theorem wrap_ends {size : ℕ} (hpos : 0 < size) (index : ℤ) :
    ∃ r, Ends (wrapRound size) index r ∧ 0 ≤ r ∧ r % size = index % size := by
  apply ends_of_measure (I := fun s => s % size = index % size) fun s => (-s).toNat
  · intro s hs
    by_cases hneg : s < 0
    · left
      refine ⟨s + size, by rw [wrapRound, if_pos hneg], ?_, by omega⟩
      rw [Int.add_emod_right, hs]
    · right
      exact ⟨s, by rw [wrapRound, if_neg hneg], by omega, hs⟩
  · rfl

/-- `OffsetTo` has one result, however long it is run. -/
theorem offsetTo_unique {off : ℤ} {r r' : U_VIAL_POS_t} (h : Returns (v.offsetTo off config) r)
    (h' : Returns (v.offsetTo off config) r') : r = r' := by
  obtain ⟨fuel, hfuel⟩ := h
  obtain ⟨fuel', hfuel'⟩ := h'
  unfold offsetTo at hfuel hfuel'
  cases hfind : (totalVial config []).2.findIdx? fun a => a.equals v with
  | none =>
      simp only [hfind] at hfuel hfuel'
      exact Option.some.inj (hfuel.symm.trans hfuel')
  | some i =>
      simp only [hfind] at hfuel hfuel'
      split_ifs at hfuel hfuel'
      obtain ⟨index, hrun, hentry⟩ := Option.bind_eq_some_iff.1 hfuel
      obtain ⟨index', hrun', hentry'⟩ := Option.bind_eq_some_iff.1 hfuel'
      have hindex : index = index' := Ends.unique ⟨fuel, hrun⟩ ⟨fuel', hrun'⟩
      rw [hindex] at hentry
      exact Option.some.inj (hentry.symm.trans hentry')

/-- The vial at an index, round the cycle. -/
def atIndex (config : SYSTEM_CONFIG_t) (index : ℤ) : Option U_VIAL_POS_t :=
  (vials config)[(index % (vials config).length).toNat]?

/-- What `OffsetTo` returns: the vial so many further on. -/
theorem offsetTo_returns (h : IndexOf config v i) {off : ℤ} (hint : InInt (i + off)) :
    ∃ r, Returns (v.offsetTo off config) r ∧ atIndex config (i + off) = some r := by
  have hpos : 0 < (vials config).length := Nat.lt_of_le_of_lt (Nat.zero_le i) h.lt
  obtain ⟨index, ⟨fuel, hfuel⟩, hnonneg, hmod⟩ := wrap_ends hpos (i + off)
  have htmod : index.tmod (vials config).length = (i + off) % (vials config).length := by
    rw [Int.tmod_eq_emod_of_nonneg hnonneg, hmod]
  have hin : ((i + off) % (vials config).length).toNat < (vials config).length := by
    have hlt := Int.emod_lt_of_pos (i + off) (show (0 : ℤ) < (vials config).length by omega)
    have hnonneg := Int.emod_nonneg (i + off) (show ((vials config).length : ℤ) ≠ 0 by omega)
    omega
  have hentry := List.getElem?_eq_getElem hin
  refine ⟨_, ⟨fuel, ?_⟩, hentry⟩
  -- the search finds `i`, and the loop leaves with `index`
  simp only [offsetTo, totalVial_nil, h.findIdx?, if_pos hint, hfuel]
  rw [← hentry, ← htmod]
  rfl

/-- What `OffsetFrom` returns: the difference of the indices. -/
theorem offsetFrom_eq (hv : IndexOf config v i) (hw : IndexOf config w j) :
    v.offsetFrom w config = i - j := by
  simp only [offsetFrom, totalVial_nil, foldl_compareRound, hv.foldl_lastRound,
    hw.foldl_lastRound, Nat.zero_add]
  rw [if_neg (by omega)]

/-- No vial equals a position that is none. -/
theorem not_equals_of_not_isVial (hv : ¬ IsVial config v) :
    ∀ a ∈ vials config, a.equals v = false := by
  intro a ha
  by_contra hequals
  have heq := (equals_iff_of_mem config ha v).1 (by simpa using hequals)
  obtain ⟨-, htray, hvalid⟩ := (mem_vials config a).1 ha
  rw [heq] at htray hvalid
  apply hv
  refine ⟨htray, ?_⟩
  rw [isValid_iff] at hvalid ⊢
  simp only at htray hvalid
  omega

/-- From a position that is no vial there is no way, and no distance. -/
theorem offsets_of_not_isVial (hv : ¬ IsVial config v) (off : ℤ) (w : U_VIAL_POS_t) :
    (∀ fuel, v.offsetTo off config fuel = some v) ∧ v.offsetFrom w config = 0 := by
  have hnone := not_equals_of_not_isVial hv
  constructor
  · intro fuel
    have hfind : (vials config).findIdx? (fun a => a.equals v) = none := by
      rw [List.findIdx?_eq_none_iff]
      exact hnone
    simp only [offsetTo, totalVial_nil, hfind]
  · simp only [offsetFrom, totalVial_nil, foldl_compareRound, foldl_lastRound_none hnone, true_or,
      if_true]

/-! ## The cycle -/

/-- The vial at an index has the remainder for its own index. -/
theorem vial_of_atIndex {index : ℤ} (h : atIndex config index = some v) :
    IsVial config v ∧ ∃ k : ℕ, IndexOf config v k ∧ (k : ℤ) = index % (vials config).length := by
  obtain ⟨hvial, hindex⟩ := vial_of_getElem? h
  have hlt := hindex.lt
  have hnonneg := Int.emod_nonneg index (show ((vials config).length : ℤ) ≠ 0 by omega)
  exact ⟨hvial, _, hindex, Int.toNat_of_nonneg hnonneg⟩

/-- The vial at the index of a position equals it. -/
theorem equals_of_atIndex (hv : IndexOf config v i) {r : U_VIAL_POS_t}
    (h : atIndex config i = some r) : r.equals v = true := by
  have hlt := hv.lt
  have hmod : ((i : ℤ) % (vials config).length).toNat = i := by
    rw [Int.emod_eq_of_lt (by omega) (by omega)]
    rfl
  rw [atIndex, hmod] at h
  obtain ⟨x, hx, hequals⟩ := hv.found
  obtain rfl : r = x := Option.some.inj (h.symm.trans hx)
  exact hequals

/-- No index of a vial leaves the range of `int` by this offset. -/
def Fits (off : ℤ) : Prop := ∀ index : ℕ, index ≤ 191 → InInt (index + off)

theorem Fits.inInt {off : ℤ} (h : Fits off) (hv : IndexOf config v i) : InInt (i + off) := by
  have := hv.lt
  have := length_vials_le config
  exact h i (by omega)

/-- The vial so far from a position is a vial, and counting on from there is counting on. -/
theorem offsetTo_offsetTo (hv : IsVial config v) {a b : ℤ} (ha : Fits a) (hb : Fits b)
    (hab : Fits (a + b)) :
    ∃ r, Returns (v.offsetTo a config) r ∧ IsVial config r ∧
      ∃ s t, Returns (r.offsetTo b config) s ∧ Returns (v.offsetTo (a + b) config) t ∧
        s.equals t = true := by
  obtain ⟨i, hi⟩ := exists_indexOf hv
  obtain ⟨r, hr, hrindex⟩ := offsetTo_returns hi (ha.inInt hi)
  obtain ⟨hrvial, k, hk, hkmod⟩ := vial_of_atIndex hrindex
  obtain ⟨s, hs, hsindex⟩ := offsetTo_returns hk (hb.inInt hk)
  obtain ⟨t, ht, htindex⟩ := offsetTo_returns hi (hab.inInt hi)
  -- the remainder of the first sum stands for the sum
  have hsame : ((k : ℤ) + b) % (vials config).length = (i + (a + b)) % (vials config).length := by
    rw [hkmod, Int.emod_add_emod, Int.add_assoc]
  have hst : s = t := by
    rw [atIndex, hsame] at hsindex
    exact Option.some.inj (hsindex.symm.trans htindex)
  refine ⟨r, hr, hrvial, s, t, hs, ht, ?_⟩
  rw [hst]
  exact equals_refl t

theorem offsetTo_zero (hv : IsVial config v) :
    ∃ r, Returns (v.offsetTo 0 config) r ∧ r.equals v = true := by
  obtain ⟨i, hi⟩ := exists_indexOf hv
  have hlt := hi.lt
  have hle := length_vials_le config
  have hint : InInt (i + 0) := ⟨by omega, by omega⟩
  obtain ⟨r, hr, hindex⟩ := offsetTo_returns hi hint
  rw [Int.add_zero] at hindex
  exact ⟨r, hr, equals_of_atIndex hi hindex⟩

/-- Counting on by the difference arrives. -/
theorem offsetTo_offsetFrom (hv : IsVial config v) (hw : IsVial config w) :
    ∃ r, Returns (v.offsetTo (w.offsetFrom v config) config) r ∧ r.equals w = true := by
  obtain ⟨i, hi⟩ := exists_indexOf hv
  obtain ⟨j, hj⟩ := exists_indexOf hw
  have hlt := hj.lt
  have hle := length_vials_le config
  have hsum : (i : ℤ) + w.offsetFrom v config = j := by
    rw [offsetFrom_eq hj hi]
    omega
  have hint : InInt (i + w.offsetFrom v config) := by
    rw [hsum]
    exact ⟨by omega, by omega⟩
  obtain ⟨r, hr, hindex⟩ := offsetTo_returns hi hint
  rw [hsum] at hindex
  exact ⟨r, hr, equals_of_atIndex hj hindex⟩

theorem offsetFrom_comm (hv : IsVial config v) (hw : IsVial config w) :
    w.offsetFrom v config = -(v.offsetFrom w config) := by
  obtain ⟨i, hi⟩ := exists_indexOf hv
  obtain ⟨j, hj⟩ := exists_indexOf hw
  rw [offsetFrom_eq hj hi, offsetFrom_eq hi hj]
  omega

/-- **Relative positions are a cycle**: every offset leads to a vial, offsets add up, and the
difference of two positions leads from the one to the other. -/
theorem offsets_cyclic {p q : U_VIAL_POS_t} (hp : IsVial config p) (hq : IsVial config q)
    {a b : ℤ} (ha : Fits a) (hb : Fits b) (hab : Fits (a + b)) :
    (∃ r, Returns (p.offsetTo a config) r ∧ IsVial config r ∧
      ∃ s t, Returns (r.offsetTo b config) s ∧ Returns (p.offsetTo (a + b) config) t ∧
        s.equals t = true) ∧
    (∃ r, Returns (p.offsetTo 0 config) r ∧ r.equals p = true) ∧
    (∃ r, Returns (p.offsetTo (q.offsetFrom p config) config) r ∧ r.equals q = true) ∧
    q.offsetFrom p config = -(p.offsetFrom q config) :=
  ⟨offsetTo_offsetTo hp ha hb hab, offsetTo_zero hp, offsetTo_offsetFrom hp hq,
    offsetFrom_comm hp hq⟩

/-- Two trays of 40 vials. -/
def twoTrays : SYSTEM_CONFIG_t := SYSTEM_CONFIG_t.construct default

/-- One step back from the first vial, and a hundred steps on. -/
theorem offsets_cyclic_twoTrays :
    (∃ r, Returns (offsetTo ⟨0, 0, 0, 0⟩ (-1) twoTrays) r ∧ IsVial twoTrays r ∧
      ∃ s t, Returns (r.offsetTo 100 twoTrays) s ∧
        Returns (offsetTo ⟨0, 0, 0, 0⟩ (-1 + 100) twoTrays) t ∧ s.equals t = true) ∧
    (∃ r, Returns (offsetTo ⟨0, 0, 0, 0⟩ 0 twoTrays) r ∧ r.equals ⟨0, 0, 0, 0⟩ = true) ∧
    (∃ r, Returns (offsetTo ⟨0, 0, 0, 0⟩ (offsetFrom ⟨1, 0, 3, 9⟩ ⟨0, 0, 0, 0⟩ twoTrays)
        twoTrays) r ∧ r.equals ⟨1, 0, 3, 9⟩ = true) ∧
    offsetFrom ⟨1, 0, 3, 9⟩ ⟨0, 0, 0, 0⟩ twoTrays
      = -(offsetFrom ⟨0, 0, 0, 0⟩ ⟨1, 0, 3, 9⟩ twoTrays) :=
  offsets_cyclic (p := ⟨0, 0, 0, 0⟩) (q := ⟨1, 0, 3, 9⟩) ⟨by decide, by decide⟩
    ⟨by decide, by decide⟩ (fun index h => ⟨by omega, by omega⟩)
    (fun index h => ⟨by omega, by omega⟩) (fun index h => ⟨by omega, by omega⟩)

end U_VIAL_POS_t
end PocoProxy.Payload
