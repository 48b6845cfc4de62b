/-
Cutting a list at the occurrences of a separator.

An occurrence of `sep` is leftmost when there is none before it, and `search` finds it.
`Cuts sep s ps` says that `ps` are the pieces of `s` between the occurrences that are
found from left to right, each search starting behind the occurrence before. Every list
can be cut in one way at a separator that is not empty, the pieces joined with the
separator are the list, and none of them contains the separator.
-/
import Mathlib.Data.List.Infix
import Mathlib.Tactic.Common

set_option autoImplicit false

namespace PocoProxy.Cutting

variable {α : Type}

/-! ## The leftmost occurrence -/

/-- At position `p` of `s` there is an occurrence of `pat`, and none before. -/
structure Leftmost (pat s : List α) (p : ℕ) : Prop where
  occurs : pat <+: s.drop p
  least : ∀ q < p, ¬ pat <+: s.drop q

theorem Leftmost.unique {pat s : List α} {p q : ℕ} (hp : Leftmost pat s p)
    (hq : Leftmost pat s q) : p = q := by
  apply Nat.le_antisymm
  · by_contra hlt
    exact hp.least q (by omega) hq.occurs
  · by_contra hlt
    exact hq.least p (by omega) hp.occurs

/-- What is before the occurrence, and what is behind it. -/
theorem Leftmost.exists_append {pat s : List α} {p : ℕ} (h : Leftmost pat s p)
    (hle : p ≤ s.length) : ∃ a rest, s = a ++ pat ++ rest ∧ a.length = p := by
  obtain ⟨rest, hrest⟩ := h.occurs
  refine ⟨s.take p, rest, ?_, List.length_take_of_le hle⟩
  rw [List.append_assoc, hrest, List.take_append_drop]

theorem leftmost_zero {pat s : List α} (h : pat <+: s) : Leftmost pat s 0 :=
  ⟨h, fun _ hq => absurd hq (Nat.not_lt_zero _)⟩

theorem infix_of_occurs {pat s : List α} {p : ℕ} (h : pat <+: s.drop p) : pat <:+: s :=
  h.isInfix.trans (List.drop_suffix p s).isInfix

variable [DecidableEq α]

/-- The position of the leftmost occurrence. -/
def search (pat : List α) : List α → Option ℕ
  | [] => if pat = [] then some 0 else none
  | c :: s => if pat <+: c :: s then some 0 else (search pat s).map (· + 1)

theorem search_some {pat s : List α} {p : ℕ} (h : search pat s = some p) :
    Leftmost pat s p ∧ p ≤ s.length := by
  induction s generalizing p with
  | nil =>
      rw [search] at h
      split at h
      · rename_i hpat
        cases h
        exact ⟨leftmost_zero (hpat ▸ List.nil_prefix), Nat.le_refl 0⟩
      · cases h
  | cons c s ih =>
      rw [search] at h
      split at h
      · rename_i hhere
        cases h
        exact ⟨leftmost_zero hhere, Nat.zero_le _⟩
      · -- not here, and so one further on than in the rest
        rename_i hnot
        obtain ⟨q, hq, rfl⟩ := Option.map_eq_some_iff.mp h
        obtain ⟨hleft, hle⟩ := ih hq
        refine ⟨⟨hleft.occurs, fun r hr => ?_⟩, Nat.succ_le_succ hle⟩
        cases r with
        | zero => exact hnot
        | succ r => exact hleft.least r (by omega)

theorem search_none {pat s : List α} (h : search pat s = none) : ¬ pat <:+: s := by
  induction s with
  | nil =>
      rw [search] at h
      split at h
      · cases h
      · rename_i hpat
        rwa [List.infix_nil]
  | cons c s ih =>
      rw [search] at h
      split at h
      · cases h
      · rename_i hnot
        rw [List.infix_cons_iff, not_or]
        exact ⟨hnot, ih (Option.map_eq_none_iff.mp h)⟩

theorem search_eq_some_iff {pat s : List α} {p : ℕ} :
    search pat s = some p ↔ Leftmost pat s p ∧ p ≤ s.length := by
  refine ⟨search_some, fun ⟨hleft, hle⟩ => ?_⟩
  cases hsearch : search pat s with
  | none => exact absurd (infix_of_occurs hleft.occurs) (search_none hsearch)
  | some q => rw [(search_some hsearch).1.unique hleft]

theorem search_eq_none_iff {pat s : List α} : search pat s = none ↔ ¬ pat <:+: s := by
  refine ⟨search_none, fun h => ?_⟩
  cases hsearch : search pat s with
  | none => rfl
  | some q => exact absurd (infix_of_occurs (search_some hsearch).1.occurs) h

/-! ## Cutting -/

omit [DecidableEq α] in
/-- An occurrence inside of a part is one in the whole. -/
theorem occurs_append {sep a b : List α} (h : sep <:+: a) (hsep : sep ≠ []) :
    ∃ q < a.length, sep <+: (a ++ b).drop q := by
  obtain ⟨x, y, rfl⟩ := h
  have hpos := List.length_pos_of_ne_nil hsep
  refine ⟨x.length, ?_, y ++ b, ?_⟩
  · simp only [List.length_append]
    omega
  · rw [List.append_assoc, List.append_assoc, List.drop_left]

omit [DecidableEq α] in
/-- The part before the leftmost occurrence has none. -/
theorem Leftmost.not_infix {sep a rest : List α} (h : Leftmost sep (a ++ sep ++ rest) a.length)
    (hsep : sep ≠ []) : ¬ sep <:+: a := by
  intro hinfix
  obtain ⟨q, hq, hoccurs⟩ := occurs_append (b := sep ++ rest) hinfix hsep
  rw [← List.append_assoc] at hoccurs
  exact h.least q hq hoccurs

/-- So the search finds the place of the cut. -/
theorem Leftmost.search_append {sep a rest : List α}
    (h : Leftmost sep (a ++ sep ++ rest) a.length) :
    search sep (a ++ sep ++ rest) = some a.length := by
  rw [search_eq_some_iff, List.append_assoc, List.length_append]
  exact ⟨List.append_assoc a _ _ ▸ h, Nat.le_add_right _ _⟩

/-- The pieces of a list, from left to right. -/
inductive Cuts (sep : List α) : List α → List (List α) → Prop
  | last {s : List α} (h : ¬ sep <:+: s) : Cuts sep s [s]
  | cut {a rest : List α} {ps : List (List α)}
      (hleft : Leftmost sep (a ++ sep ++ rest) a.length) (h : Cuts sep rest ps) :
      Cuts sep (a ++ sep ++ rest) (a :: ps)

/-- At a separator that is not empty every list can be cut. -/
theorem exists_cuts {sep : List α} (hsep : sep ≠ []) (s : List α) : ∃ ps, Cuts sep s ps := by
  induction hn : s.length using Nat.strongRecOn generalizing s with
  | ind n ih =>
      cases hsearch : search sep s with
      | none => exact ⟨[s], .last (search_none hsearch)⟩
      | some p =>
          obtain ⟨hleft, hle⟩ := search_some hsearch
          obtain ⟨a, rest, rfl, rfl⟩ := hleft.exists_append hle
          have hpos := List.length_pos_of_ne_nil hsep
          have hshort : rest.length < n := by
            rw [← hn]
            simp only [List.length_append]
            omega
          obtain ⟨ps, hps⟩ := ih _ hshort _ rfl
          exact ⟨a :: ps, .cut hleft hps⟩

namespace Cuts

omit [DecidableEq α]

variable {sep s : List α} {ps : List (List α)}

theorem ne_nil (h : Cuts sep s ps) : ps ≠ [] := by
  cases h <;> exact List.cons_ne_nil _ _

/-- The pieces, joined. -/
theorem join (h : Cuts sep s ps) : sep.intercalate ps = s := by
  induction h with
  | last h => exact List.intercalate_singleton
  | cut hleft h ih => rw [List.intercalate_cons_of_ne_nil h.ne_nil, ih]

theorem not_infix (hsep : sep ≠ []) (h : Cuts sep s ps) : ∀ p ∈ ps, ¬ sep <:+: p := by
  induction h with
  | last h =>
      intro p hp
      rw [List.mem_singleton.mp hp]
      exact h
  | @cut a rest ps hleft h ih =>
      intro p hp
      rcases List.mem_cons.mp hp with rfl | hp
      · exact hleft.not_infix hsep
      · exact ih p hp

end Cuts

end PocoProxy.Cutting
