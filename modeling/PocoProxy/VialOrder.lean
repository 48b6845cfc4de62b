/-
The order in which the vials are taken.

`TotalVial` walks over the left tray and then over the right one, in lines along `x` or
along `y`, and has no bounds but `IsValid`. What it adds to the array are the cells of the
two trays (`vials`), so that an order of the cells is one of the vials.
-/
import PocoProxy.Lib.Grid
import PocoProxy.Vials

set_option autoImplicit false

namespace PocoProxy.Payload

open PocoProxy.Grids

namespace U_VIAL_POS_t

/-! ## The cells of a tray -/

/-- Which kind of tray there is. -/
def kind (config : SYSTEM_CONFIG_t) (tray : UChar) : UInt :=
  if tray.toNat = 0 then config.trayLeft else config.trayRight

/-- How many lines the walk makes. -/
def lineCount (config : SYSTEM_CONFIG_t) (tray : UChar) : ℕ :=
  if config.processType = RowFirst then depth (kind config tray) else width (kind config tray)

/-- How many positions a line has. -/
def perLine (config : SYSTEM_CONFIG_t) (tray : UChar) : ℕ :=
  if config.processType = RowFirst then width (kind config tray) else depth (kind config tray)

theorem lineCount_le (config : SYSTEM_CONFIG_t) (tray : UChar) : lineCount config tray ≤ 12 := by
  have := width_le (kind config tray)
  have := depth_le (kind config tray)
  unfold lineCount
  split_ifs <;> omega

theorem perLine_le (config : SYSTEM_CONFIG_t) (tray : UChar) : perLine config tray ≤ 12 := by
  have := width_le (kind config tray)
  have := depth_le (kind config tray)
  unfold perLine
  split_ifs <;> omega

/-- A tray that has lines has positions in them. -/
theorem perLine_pos {config : SYSTEM_CONFIG_t} {tray : UChar} (h : 0 < lineCount config tray) :
    0 < perLine config tray := by
  have hboth : 0 < width (kind config tray) ↔ 0 < depth (kind config tray) := by
    unfold width depth
    split_ifs <;> omega
  unfold lineCount at h
  unfold perLine
  split_ifs at h ⊢ <;> omega

theorem trayCount_eq_cells (config : SYSTEM_CONFIG_t) (tray : UChar) :
    trayCount (kind config tray) = lineCount config tray * perLine config tray := by
  rw [trayCount_eq, lineCount, perLine]
  split_ifs
  · exact Nat.mul_comm _ _
  · rfl

variable (config : SYSTEM_CONFIG_t) {tray : UChar} (htray : tray.toNat < 2)

/-- The position of a cell: its line, and its place in the line. -/
def place (c : ℕ × ℕ) : TrayPos :=
  if config.processType = RowFirst then
    { tray := tray, etc := 0, x := BitVec.ofNat 8 c.2, y := BitVec.ofNat 8 c.1, onTray := htray }
  else
    { tray := tray, etc := 0, x := BitVec.ofNat 8 c.1, y := BitVec.ofNat 8 c.2, onTray := htray }

theorem corner_eq_place : corner tray htray = place config htray (0, 0) := by
  unfold place
  split_ifs <;> rfl

theorem along_place (l i : ℕ) :
    (place config htray (l, i)).along config = place config htray (l, i + 1) := by
  unfold TrayPos.along place
  split_ifs <;> simp [BitVec.ofNat_add]

theorem nextLine_place (l i : ℕ) :
    (place config htray (l, i)).nextLine config = place config htray (l + 1, 0) := by
  unfold TrayPos.nextLine place
  split_ifs <;> simp [BitVec.ofNat_add]

theorem isValid_place {l i : ℕ} (hl : l < 256) (hi : i < 256) :
    (place config htray (l, i)).isValid config = true ↔
      l < lineCount config tray ∧ i < perLine config tray := by
  rw [isValid_iff, lineCount, perLine, kind]
  unfold place
  split_ifs <;> simp <;> omega

/-! ## The walk -/

/-- The positions of some cells. -/
def places (cs : List (ℕ × ℕ)) : List U_VIAL_POS_t :=
  cs.map fun c => (place config htray c).toU_VIAL_POS_t

/-- The inner loop ends at the edge of the tray. -/
theorem line_place {l : ℕ} (hl : l < lineCount config tray) (n : ℕ) {i : ℕ}
    (hi : i + n = perLine config tray) (arr : List U_VIAL_POS_t) :
    line config (place config htray (l, i)) arr
      = (place config htray (l, perLine config tray),
          arr ++ places config htray ((List.range' i n).map fun j => (l, j))) := by
  have hlines := lineCount_le config tray
  have hplaces := perLine_le config tray
  have hvalid := isValid_place config htray (l := l) (i := i) (by omega) (by omega)
  -- by what is left of the line
  induction n generalizing i arr with
  | zero =>
      obtain rfl : i = perLine config tray := by omega
      rw [line, dif_neg (by rw [hvalid]; omega)]
      simp [places]
  | succ n ih =>
      have hnext := isValid_place config htray (l := l) (i := i + 1) (by omega) (by omega)
      rw [line, dif_pos (by rw [hvalid]; omega), along_place, ih (by omega) _ hnext]
      simp [places, List.range'_succ]

/-- The outer loop makes as many lines as are left, and none behind the last. -/
theorem lines_place (n : ℕ) {l : ℕ} (hl : l + n = lineCount config tray)
    (arr : List U_VIAL_POS_t) :
    lines config (place config htray (l, 0)) arr
      = arr ++ places config htray (cellsFrom (perLine config tray) l n) := by
  have hlines := lineCount_le config tray
  have hnext := isValid_place config htray (l := l + 1) (i := 0) (by omega) (by omega)
  induction n generalizing l arr with
  | zero =>
      -- behind the last line both loops stop at once; a missing tray has no other
      have hvalid := isValid_place config htray (l := l) (i := 0) (by omega) (by omega)
      have hwalked : line config (place config htray (l, 0)) arr
          = (place config htray (l, 0), arr) := by
        rw [line, dif_neg (by rw [hvalid]; omega)]
      rw [lines, hwalked]
      simp only [nextLine_place]
      rw [dif_neg (by rw [hnext]; omega)]
      simp [places, cellsFrom]
  | succ n ih =>
      have hwalked := line_place config htray (l := l) (by omega) (perLine config tray)
        (Nat.zero_add _) arr
      have hline : (List.range' 0 (perLine config tray)).map (fun j => (l, j))
          = cellsOfLine (perLine config tray) l := by
        rw [cellsOfLine, List.range_eq_range']
      rw [hline] at hwalked
      rw [lines, hwalked]
      simp only [nextLine_place]
      -- the next line is tested at its first position, which it has
      have hpos : 0 < perLine config tray := perLine_pos (by omega)
      cases n with
      | zero =>
          rw [dif_neg (by rw [hnext]; omega)]
          simp [cellsFrom]
      | succ n =>
          have hafter := isValid_place config htray (l := l + 1 + 1) (i := 0) (by omega) (by omega)
          rw [dif_pos (by rw [hnext]; omega), ih (by omega) _ hafter, cellsFrom_succ _ l]
          simp [places]

/-- The vials of one tray. -/
def trayVials : List U_VIAL_POS_t :=
  places config htray (cells (lineCount config tray) (perLine config tray))

/-- The vials, in order. -/
def vials : List U_VIAL_POS_t :=
  trayVials config left_onTray ++ trayVials config right_onTray

theorem totalVial_eq (arr : List U_VIAL_POS_t) :
    totalVial config arr = (toInt32 (arr ++ vials config).length, arr ++ vials config) := by
  have htray (tray : UChar) (htray : tray.toNat < 2) (arr : List U_VIAL_POS_t) :
      lines config (corner tray htray) arr = arr ++ trayVials config htray := by
    rw [corner_eq_place config htray]
    exact lines_place config htray _ (Nat.zero_add _) arr
  simp only [totalVial, htray, vials, List.append_assoc]

/-! ## What is in the list -/

/-- A valid position of a tray. -/
def IsVial (v : U_VIAL_POS_t) : Prop := v.tray.toNat < 2 ∧ v.isValid config = true

/-- Where a position is in its tray. -/
def cell (v : U_VIAL_POS_t) : ℕ × ℕ :=
  if config.processType = RowFirst then (v.y.toNat, v.x.toNat) else (v.x.toNat, v.y.toNat)

/-- The injection order: by the tray, and then by the cell. -/
def order (v : U_VIAL_POS_t) : ℕ ×ₗ ℕ ×ₗ ℕ := toLex (v.tray.toNat, toLex (cell config v))

theorem cell_place {l i : ℕ} (hl : l < 256) (hi : i < 256) :
    cell config (place config htray (l, i)).toU_VIAL_POS_t = (l, i) := by
  unfold cell place
  split_ifs <;> simp [Nat.mod_eq_of_lt hl, Nat.mod_eq_of_lt hi]

theorem cell_lt (v : U_VIAL_POS_t) : (cell config v).1 < 256 ∧ (cell config v).2 < 256 := by
  unfold cell
  split_ifs
  · exact ⟨v.y.isLt, v.x.isLt⟩
  · exact ⟨v.x.isLt, v.y.isLt⟩

theorem place_cell {v : U_VIAL_POS_t} (hetc : v.etc = 0) (hv : v.tray.toNat < 2) :
    (place config hv (cell config v)).toU_VIAL_POS_t = v := by
  obtain ⟨t, e, x, y⟩ := v
  subst hetc
  unfold cell place
  split_ifs <;> simp

theorem tray_place (c : ℕ × ℕ) : (place config htray c).tray = tray := by
  unfold place
  split_ifs <;> rfl

theorem etc_place (c : ℕ × ℕ) : (place config htray c).etc = 0 := by
  unfold place
  split_ifs <;> rfl

theorem mem_trayVials (v : U_VIAL_POS_t) :
    v ∈ trayVials config htray ↔ v.tray = tray ∧ v.etc = 0 ∧ IsVial config v := by
  have hlines := lineCount_le config tray
  have hplaces := perLine_le config tray
  rw [trayVials, places, List.mem_map]
  constructor
  · rintro ⟨⟨l, i⟩, hc, rfl⟩
    rw [mem_cells] at hc
    have hvalid := isValid_place config htray (l := l) (i := i) (by omega) (by omega)
    exact ⟨tray_place config htray _, etc_place config htray _,
      (place config htray (l, i)).onTray, hvalid.2 hc⟩
  · rintro ⟨rfl, hetc, hv, hvalid⟩
    have hplace := place_cell config hetc hv
    obtain ⟨hl, hi⟩ := cell_lt config v
    refine ⟨cell config v, ?_, hplace⟩
    rw [mem_cells, ← isValid_place config hv hl hi, hplace]
    exact hvalid

theorem mem_vials (v : U_VIAL_POS_t) : v ∈ vials config ↔ v.etc = 0 ∧ IsVial config v := by
  rw [vials, List.mem_append, mem_trayVials, mem_trayVials, ← or_and_right]
  constructor
  · exact fun h => h.2
  · intro h
    refine ⟨?_, h⟩
    -- the tray is one of the two
    have htray := h.2.1
    rw [← BitVec.toNat_inj, ← BitVec.toNat_inj]
    change v.tray.toNat = 0 ∨ v.tray.toNat = 1
    omega

theorem mem_vials_of_isVial {v : U_VIAL_POS_t} (hv : IsVial config v) :
    { v with etc := 0 } ∈ vials config := by
  rw [mem_vials]
  refine ⟨rfl, hv.1, ?_⟩
  obtain ⟨htray, hvalid⟩ := hv
  rw [isValid_iff] at hvalid ⊢
  simp only at hvalid ⊢
  omega

theorem pairwise_trayVials :
    (trayVials config htray).Pairwise fun v w => order config v < order config w := by
  have hlines := lineCount_le config tray
  have hplaces := perLine_le config tray
  rw [trayVials, places, List.pairwise_map]
  refine (pairwise_cells _ _).imp_of_mem ?_
  rintro ⟨l, i⟩ ⟨k, j⟩ hc hd hlt
  rw [mem_cells] at hc hd
  rw [order, order, tray_place, tray_place, cell_place config htray (by omega) (by omega),
    cell_place config htray (by omega) (by omega)]
  exact Prod.Lex.toLex_lt_toLex.2 (Or.inr ⟨rfl, hlt⟩)

/-- The left tray is before the right one. -/
theorem pairwise_vials : (vials config).Pairwise fun v w => order config v < order config w := by
  rw [vials, List.pairwise_append]
  refine ⟨pairwise_trayVials config _, pairwise_trayVials config _, ?_⟩
  intro v hv w hw
  rw [mem_trayVials] at hv hw
  rw [order, order, hv.1, hw.1]
  exact Prod.Lex.toLex_lt_toLex.2 (Or.inl Nat.zero_lt_one)

theorem nodup_vials : (vials config).Nodup :=
  (pairwise_vials config).imp fun hlt heq => absurd (congrArg (order config) heq) hlt.ne

/-- Of the vials, the one that equals a position is that position without its `etc`. -/
theorem equals_iff_of_mem {a : U_VIAL_POS_t} (ha : a ∈ vials config) (v : U_VIAL_POS_t) :
    a.equals v = true ↔ a = { v with etc := 0 } := by
  rw [mem_vials] at ha
  obtain ⟨hetc, htray, -⟩ := ha
  -- an entry is no special place, so that `etc` is not compared
  have hnot : a.tray.toNat ≠ 2 := by omega
  rw [equals_iff, if_neg hnot]
  obtain ⟨t, e, x, y⟩ := a
  obtain rfl : e = 0 := hetc
  simp [BitVec.toNat_inj]

theorem length_vials : (vials config).length = totalVialCount config := by
  simp only [vials, trayVials, places, List.length_append, List.length_map, length_cells,
    ← trayCount_eq_cells]
  rfl

/-- Every vial is in the list once, whatever its `etc`, and the list has the injection
order. -/
structure Enumerates (added : List U_VIAL_POS_t) : Prop where
  valid : ∀ v ∈ added, IsVial config v
  plain : ∀ v ∈ added, v.etc = 0
  once : ∀ v, IsVial config v → added.countP (fun a => a.equals v) = 1
  sorted : added.Pairwise fun v w => order config v < order config w
  count : added.length = totalVialCount config

theorem vials_enumerates : Enumerates config (vials config) where
  valid v hv := ((mem_vials config v).1 hv).2
  plain v hv := ((mem_vials config v).1 hv).1
  once v hv := by
    have hsame : ∀ a ∈ vials config, a.equals v = true ↔ (a == { v with etc := 0 }) = true := by
      intro a ha
      rw [equals_iff_of_mem config ha v, beq_iff_eq]
    rw [List.countP_congr hsame]
    exact List.count_eq_one_of_mem (nodup_vials config) (mem_vials_of_isVial config hv)
  sorted := pairwise_vials config
  count := length_vials config

/-- **`TotalVial` adds every vial once, in injection order**, behind what is in the array, and
it adds as many as `TotalVialCount` says. -/
theorem totalVial_enumerates (arr : List U_VIAL_POS_t) :
    ∃ added, totalVial config arr
        = (toInt32 (arr.length + totalVialCount config : ℕ), arr ++ added) ∧
      Enumerates config added := by
  refine ⟨vials config, ?_, vials_enumerates config⟩
  rw [totalVial_eq, List.length_append, length_vials]

end U_VIAL_POS_t
end PocoProxy.Payload
