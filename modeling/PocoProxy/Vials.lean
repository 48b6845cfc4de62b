/-
The positions of the vials.

A position is on the left tray, on the right tray, or one of the special places of the
needle. `U_VIAL_POS_t` has a byte for each of its fields, and a code of 16 bits; what is
valid, what is equal and what is coded are written in terms of the fields, each in its
own way. `TotalVial` walks over the trays with `IsValid` for its only bound. It is called
with positions of a tray (`TrayPos`), on which the walk comes to an end; from a valid
special place it would not.
-/
import PocoProxy.Lib.Loop
import PocoProxy.Payloads
import Mathlib.Algebra.Order.Ring.Int

set_option autoImplicit false

namespace PocoProxy.Payload

open PocoProxy.Loops

structure U_VIAL_POS_t where
  /-- 0 is left, 1 is right, and 2 a special place. -/
  tray : UChar
  /-- Which special place. -/
  etc : UChar
  x : UChar
  y : UChar
deriving DecidableEq, Inhabited

namespace U_VIAL_POS_t

/-! ## Validity and equality -/

/-- One case of `IsValid`: the inner `switch` over the kind of a tray. -/
def isOnTray (kind : UInt) (x y : UChar) : Bool :=
  if kind = Tray40Vial then !(x > 3 || y > 9)
  else if kind = Tray60Vial then !(x > 4 || y > 11)
  else if kind = Tray96Plate then !(x > 7 || y > 11)
  else false

/-- `IsValid`. -/
def isValid (this : U_VIAL_POS_t) (config : SYSTEM_CONFIG_t) : Bool :=
  if this.tray = 0 then isOnTray config.trayLeft this.x this.y
  else if this.tray = 1 then isOnTray config.trayRight this.x this.y
  else if this.tray = 2 then !(this.etc > 4)
  else false

/-- `operator ==`. -/
def equals (this vial : U_VIAL_POS_t) : Bool :=
  if this.tray = 2 then this.etc == vial.etc
  else this.tray == vial.tray && this.x == vial.x && this.y == vial.y

/-! ## The code -/

/-- `operator = (const WORD &)`, which sets every field. -/
def ofWord (vial : BitVec 16) : U_VIAL_POS_t :=
  let tray := ((vial >>> 15) &&& 0x1).setWidth 8
  let etc := ((vial >>> 12) &&& 0x07).setWidth 8
  { tray := if etc ≠ 0 then 2 else tray
    etc := etc
    x := ((vial >>> 6) &&& 0x3f).setWidth 8
    y := (vial &&& 0x3f).setWidth 8 }

/-- `operator WORD`. No bit is shifted out of the 16. -/
def toWord (this : U_VIAL_POS_t) : BitVec 16 :=
  (this.tray &&& 0x1).setWidth 16 <<< 15 ||| (this.etc &&& 0x7).setWidth 16 <<< 12
    ||| (this.x &&& 0x3f).setWidth 16 <<< 6 ||| (this.y &&& 0x3f).setWidth 16

/-! ## The number of positions -/

/-- One `switch` of `TotalVialCount`. -/
def trayCount (kind : UInt) : ℕ :=
  if kind = Tray40Vial then 40
  else if kind = Tray60Vial then 60
  else if kind = Tray96Plate then 96
  else 0

/-- `TotalVialCount`. -/
def totalVialCount (config : SYSTEM_CONFIG_t) : ℕ :=
  trayCount config.trayLeft + trayCount config.trayRight

/-! ## Bounds -/

/-- How many values `x` has on a tray. -/
def width (kind : UInt) : ℕ :=
  if kind = Tray40Vial then 4
  else if kind = Tray60Vial then 5
  else if kind = Tray96Plate then 8
  else 0

/-- How many values `y` has. -/
def depth (kind : UInt) : ℕ :=
  if kind = Tray40Vial then 10
  else if kind = Tray60Vial then 12
  else if kind = Tray96Plate then 12
  else 0

theorem isOnTray_iff (kind : UInt) (x y : UChar) :
    isOnTray kind x y = true ↔ x.toNat < width kind ∧ y.toNat < depth kind := by
  unfold isOnTray width depth
  split_ifs <;> simp [BitVec.lt_def] <;> omega

theorem width_le (kind : UInt) : width kind ≤ 8 := by
  unfold width
  split_ifs <;> omega

theorem depth_le (kind : UInt) : depth kind ≤ 12 := by
  unfold depth
  split_ifs <;> omega

theorem trayCount_eq (kind : UInt) : trayCount kind = width kind * depth kind := by
  unfold trayCount width depth
  split_ifs <;> rfl

/-- What is valid, in numbers. -/
theorem isValid_iff (v : U_VIAL_POS_t) (config : SYSTEM_CONFIG_t) :
    v.isValid config = true ↔
      (v.tray.toNat = 0 ∧ v.x.toNat < width config.trayLeft ∧ v.y.toNat < depth config.trayLeft) ∨
      (v.tray.toNat = 1 ∧ v.x.toNat < width config.trayRight ∧
        v.y.toNat < depth config.trayRight) ∨
      (v.tray.toNat = 2 ∧ v.etc.toNat ≤ 4) := by
  have hleft : v.tray = 0 ↔ v.tray.toNat = 0 := BitVec.toNat_inj.symm
  have hright : v.tray = 1 ↔ v.tray.toNat = 1 := BitVec.toNat_inj.symm
  have hspecial : v.tray = 2 ↔ v.tray.toNat = 2 := BitVec.toNat_inj.symm
  have hetc : (!decide (v.etc > 4)) = true ↔ v.etc.toNat ≤ 4 := by
    simp [BitVec.lt_def]
  simp only [isValid, hleft, hright, hspecial]
  split_ifs
  · rw [isOnTray_iff]
    omega
  · rw [isOnTray_iff]
    omega
  · rw [hetc]
    omega
  · exact iff_of_false not_false (by omega)

theorem place_of_isValid {config : SYSTEM_CONFIG_t} {v : U_VIAL_POS_t}
    (h : v.isValid config = true) (htray : v.tray.toNat ≠ 2) :
    v.tray.toNat < 2 ∧ v.x.toNat < 8 ∧ v.y.toNat < 12 := by
  rw [isValid_iff] at h
  have := width_le config.trayLeft
  have := width_le config.trayRight
  have := depth_le config.trayLeft
  have := depth_le config.trayRight
  omega

theorem etc_of_isValid {config : SYSTEM_CONFIG_t} {v : U_VIAL_POS_t}
    (h : v.isValid config = true) (htray : v.tray.toNat = 2) : v.etc.toNat ≤ 4 := by
  rw [isValid_iff] at h
  omega

/-- What is equal, in numbers. -/
theorem equals_iff (u v : U_VIAL_POS_t) :
    u.equals v = true ↔ if u.tray.toNat = 2 then u.etc.toNat = v.etc.toNat
      else u.tray.toNat = v.tray.toNat ∧ u.x.toNat = v.x.toNat ∧ u.y.toNat = v.y.toNat := by
  have hspecial : u.tray = 2 ↔ u.tray.toNat = 2 := BitVec.toNat_inj.symm
  simp only [equals, hspecial]
  split_ifs
  · rw [beq_iff_eq, BitVec.toNat_inj]
  · simp only [Bool.and_eq_true, beq_iff_eq, BitVec.toNat_inj, and_assoc]

/-! ## Walking over a tray -/

/-- A position of a tray, valid or not. -/
structure TrayPos extends U_VIAL_POS_t where
  onTray : tray.toNat < 2

/-- `v.x++`, or `v.y++`: the next position of the line. -/
def TrayPos.along (v : TrayPos) (config : SYSTEM_CONFIG_t) : TrayPos :=
  if config.processType = RowFirst then { v with x := v.x + 1 } else { v with y := v.y + 1 }

/-- The first position of the next line. -/
def TrayPos.nextLine (v : TrayPos) (config : SYSTEM_CONFIG_t) : TrayPos :=
  if config.processType = RowFirst then { v with x := 0, y := v.y + 1 }
  else { v with x := v.x + 1, y := 0 }

/-- On a tray a valid position is within the bounds of the largest. -/
theorem TrayPos.lt_of_isValid {v : TrayPos} {config : SYSTEM_CONFIG_t}
    (h : v.isValid config = true) : v.x.toNat < 8 ∧ v.y.toNat < 12 := by
  have htray := v.onTray
  exact (place_of_isValid h (by omega)).2

theorem toNat_add_one {z : UChar} (h : z.toNat < 255) : (z + 1).toNat = z.toNat + 1 := by
  rw [BitVec.toNat_add]
  simp
  omega

def TrayPos.lineMeasure (v : TrayPos) : ℕ := (8 - v.x.toNat) + (12 - v.y.toNat)

theorem TrayPos.along_measure {v : TrayPos} {config : SYSTEM_CONFIG_t}
    (h : v.isValid config = true) : (v.along config).lineMeasure < v.lineMeasure := by
  obtain ⟨hx, hy⟩ := lt_of_isValid h
  unfold lineMeasure along
  split_ifs
  · have hnext : (v.x + 1).toNat = v.x.toNat + 1 := toNat_add_one (by omega)
    simp only [hnext]
    omega
  · have hnext : (v.y + 1).toNat = v.y.toNat + 1 := toNat_add_one (by omega)
    simp only [hnext]
    omega

/-- `while (v.IsValid(config))`. -/
def line (config : SYSTEM_CONFIG_t) (v : TrayPos) (arr : List U_VIAL_POS_t) :
    TrayPos × List U_VIAL_POS_t :=
  if _h : v.isValid config then
    line config (v.along config) (arr ++ [v.toU_VIAL_POS_t])
  else (v, arr)
termination_by v.lineMeasure
decreasing_by exact TrayPos.along_measure ‹_›

/-- The coordinate that is the same all over a line. -/
def TrayPos.lineNumber (v : TrayPos) (config : SYSTEM_CONFIG_t) : UChar :=
  if config.processType = RowFirst then v.y else v.x

@[simp] theorem TrayPos.along_lineNumber (v : TrayPos) (config : SYSTEM_CONFIG_t) :
    (v.along config).lineNumber config = v.lineNumber config := by
  unfold along lineNumber
  split_ifs <;> rfl

@[simp] theorem TrayPos.nextLine_lineNumber (v : TrayPos) (config : SYSTEM_CONFIG_t) :
    (v.nextLine config).lineNumber config = v.lineNumber config + 1 := by
  unfold nextLine lineNumber
  split_ifs <;> rfl

theorem line_lineNumber (config : SYSTEM_CONFIG_t) (v : TrayPos) (arr : List U_VIAL_POS_t) :
    (line config v arr).1.lineNumber config = v.lineNumber config := by
  induction v, arr using line.induct config with
  | case1 v arr hvalid ih =>
      rw [line, dif_pos hvalid, ih, TrayPos.along_lineNumber]
  | case2 v arr hvalid =>
      rw [line, dif_neg hvalid]

/-- How many lines may follow. The number of a line may start over after 255. -/
def TrayPos.linesMeasure (v : TrayPos) (config : SYSTEM_CONFIG_t) : ℕ :=
  12 - (v.lineNumber config + 1).toNat

theorem TrayPos.nextLine_measure {v v' : TrayPos} {config : SYSTEM_CONFIG_t}
    (hnumber : v'.lineNumber config = v.lineNumber config)
    (h : (v'.nextLine config).isValid config = true) :
    (v'.nextLine config).linesMeasure config < v.linesMeasure config := by
  -- the next line is in bounds, whatever the number of this one was
  have hlt : (v.lineNumber config + 1).toNat < 12 := by
    have := lt_of_isValid h
    have hnext := nextLine_lineNumber v' config
    rw [hnumber] at hnext
    rw [← hnext, lineNumber]
    split_ifs <;> omega
  unfold linesMeasure
  rw [nextLine_lineNumber, hnumber]
  have hsucc : (v.lineNumber config + 1 + 1).toNat = (v.lineNumber config + 1).toNat + 1 :=
    toNat_add_one (by omega)
  omega

/-- `do ... while (v.IsValid(config))`. -/
def lines (config : SYSTEM_CONFIG_t) (v : TrayPos) (arr : List U_VIAL_POS_t) :
    List U_VIAL_POS_t :=
  let walked := line config v arr
  let v' := walked.1.nextLine config
  if _h : v'.isValid config then lines config v' walked.2 else walked.2
termination_by v.linesMeasure config
decreasing_by exact TrayPos.nextLine_measure (line_lineNumber config v arr) ‹_›

/-- The position at which the walk over a tray starts. -/
def corner (tray : UChar) (h : tray.toNat < 2) : TrayPos :=
  { tray := tray, etc := 0, x := 0, y := 0, onTray := h }

theorem left_onTray : (0 : UChar).toNat < 2 := by decide

theorem right_onTray : (1 : UChar).toNat < 2 := by decide

/-- `int`s from 64 bits. -/
def toInt32 (i : ℤ) : ℤ := i.bmod (2 ^ 32)

/-- `TotalVial`: what it returns, and the array. -/
def totalVial (config : SYSTEM_CONFIG_t) (arr : List U_VIAL_POS_t) : ℤ × List U_VIAL_POS_t :=
  let arr := lines config (corner 0 left_onTray) arr
  let arr := lines config (corner 1 right_onTray) arr
  (toInt32 arr.length, arr)

/-! ## Relative positions -/

/-- The number is one of type `int`. -/
def InInt (i : ℤ) : Prop := -2 ^ 31 ≤ i ∧ i < 2 ^ 31

instance (i : ℤ) : Decidable (InInt i) := inferInstanceAs (Decidable (_ ∧ _))

/-- One round of `while (index < 0)`. -/
def wrapRound (size : ℕ) (index : ℤ) : Round ℤ ℤ :=
  if index < 0 then .again (index + size) else .leave index

/-- `OffsetTo`. A sum that is no `int` has no result. -/
def offsetTo (this : U_VIAL_POS_t) (off : ℤ) (config : SYSTEM_CONFIG_t) (fuel : ℕ) :
    Option U_VIAL_POS_t :=
  let arr := (totalVial config []).2
  match arr.findIdx? fun v => v.equals this with
  | none => some this
  | some index =>
    if InInt (index + off) then do
      let index ← run (wrapRound arr.length) fuel (index + off)
      arr[(index.tmod arr.length).toNat]?
    else none

/-- One round of the loop of `OffsetFrom`, on `index` and `indexBase`. -/
def compareRound (this vial : U_VIAL_POS_t) (found : ℤ × ℤ) (entry : U_VIAL_POS_t × ℕ) : ℤ × ℤ :=
  let (index, indexBase) := found
  let (v, i) := entry
  (if v.equals this then i else index, if v.equals vial then i else indexBase)

/-- `OffsetFrom`. -/
def offsetFrom (this vial : U_VIAL_POS_t) (config : SYSTEM_CONFIG_t) : ℤ :=
  let arr := (totalVial config []).2
  let (index, indexBase) := arr.zipIdx.foldl (compareRound this vial) (-1, -1)
  if index = -1 ∨ indexBase = -1 then 0 else index - indexBase

end U_VIAL_POS_t
end PocoProxy.Payload
