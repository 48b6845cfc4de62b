/-
The cells of a grid, line after line.

A cell is the number of its line and its place in the line. `cells` lists them in the
order in which two nested loops meet them, which is the lexicographic one, and each once.
-/
import Mathlib.Data.List.Nodup
import Mathlib.Data.List.Pairwise
import Mathlib.Data.Prod.Lex
import Mathlib.Algebra.GroupWithZero.Nat
import Mathlib.Tactic.Common

set_option autoImplicit false

namespace PocoProxy.Grids

/-- The cells of line `l`. -/
def cellsOfLine (perLine l : ℕ) : List (ℕ × ℕ) := (List.range perLine).map fun i => (l, i)

/-- The cells of the lines from `l` on, `n` lines. -/
def cellsFrom (perLine l n : ℕ) : List (ℕ × ℕ) := (List.range' l n).flatMap (cellsOfLine perLine)

def cells (lines perLine : ℕ) : List (ℕ × ℕ) := cellsFrom perLine 0 lines

theorem cellsFrom_succ (perLine l n : ℕ) :
    cellsFrom perLine l (n + 1) = cellsOfLine perLine l ++ cellsFrom perLine (l + 1) n := by
  simp only [cellsFrom, List.range'_succ, List.flatMap_cons]

theorem mem_cells (lines perLine : ℕ) (c : ℕ × ℕ) :
    c ∈ cells lines perLine ↔ c.1 < lines ∧ c.2 < perLine := by
  obtain ⟨l, i⟩ := c
  simp [cells, cellsFrom, cellsOfLine, List.mem_range'_1]

theorem length_cells (lines perLine : ℕ) : (cells lines perLine).length = lines * perLine := by
  simp [cells, cellsFrom, cellsOfLine, List.length_flatMap]

/-- Each cell is before those that follow it. -/
theorem pairwise_cells (lines perLine : ℕ) :
    (cells lines perLine).Pairwise fun c d => toLex c < toLex d := by
  rw [cells, cellsFrom, List.pairwise_flatMap]
  constructor
  · -- within a line
    intro l _
    rw [cellsOfLine, List.pairwise_map]
    apply List.pairwise_lt_range.imp
    intro i j hij
    exact Prod.Lex.toLex_lt_toLex.2 (Or.inr ⟨rfl, hij⟩)
  · apply List.Pairwise.imp _ List.pairwise_lt_range'
    intro l k hlk c hc d hd
    obtain ⟨i, -, rfl⟩ := List.mem_map.1 hc
    obtain ⟨j, -, rfl⟩ := List.mem_map.1 hd
    exact Prod.Lex.toLex_lt_toLex.2 (Or.inl hlk)

end PocoProxy.Grids
