/-
Blocks of which only beginnings are kept.

A list is `Clipped` from a list of blocks when it is put together from a beginning of each of
them. Elements can be missing from it, but what is there is in the order of the blocks, each
element once.
-/
import Mathlib.Data.List.Forall2

set_option autoImplicit false

namespace PocoProxy.Blocks

variable {α : Type}

/-- `s` consists of a beginning of each block. -/
def Clipped (s : List α) (blocks : List (List α)) : Prop :=
  ∃ kept, List.Forall₂ (· <+: ·) kept blocks ∧ s = kept.flatten

theorem clipped_nil : Clipped ([] : List α) [] := ⟨[], .nil, rfl⟩

/-- One block more. -/
theorem Clipped.concat {s : List α} {blocks : List (List α)} (h : Clipped s blocks) {a b : List α}
    (hab : a <+: b) : Clipped (s ++ a) (blocks ++ [b]) := by
  obtain ⟨kept, hkept, rfl⟩ := h
  refine ⟨kept ++ [a], List.rel_append hkept (.cons hab .nil), ?_⟩
  rw [List.flatten_append, List.flatten_singleton]

/-- The elements are in the order of the blocks. -/
theorem Clipped.sublist {s : List α} {blocks : List (List α)} (h : Clipped s blocks) :
    s.Sublist blocks.flatten := by
  obtain ⟨kept, hkept, rfl⟩ := h
  induction hkept with
  | nil => exact .slnil
  | cons hab _ ih =>
      rw [List.flatten_cons, List.flatten_cons]
      exact hab.sublist.append ih

end PocoProxy.Blocks
