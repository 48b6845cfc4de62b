/-
Registries of observers.

A registry gives each key the list of what is registered there, in the order of
registration. Nothing is registered twice at a key: `add` looks first. `remove`
takes out the first equal entry. Both change one key only.

The two lemmas at the end are about a list of entries that one party adds and
later removes: adding it to a key with nothing of it appends it whole, and
removing it takes away exactly it.
-/
import Mathlib.Data.List.Nodup
import Mathlib.Data.List.Basic
import Mathlib.Data.List.Lemmas
import Mathlib.Logic.Function.Basic

set_option autoImplicit false

namespace PocoProxy.Registry

variable {κ τ : Type} [DecidableEq κ] [DecidableEq τ]

/-- What is registered at each key. -/
abbrev Entries (κ τ : Type) : Type := κ → List τ

/-- Registers `t` at `k`, unless it is there. -/
def add (reg : Entries κ τ) (k : κ) (t : τ) : Entries κ τ :=
  if t ∈ reg k then reg else Function.update reg k (reg k ++ [t])

/-- Takes the first `t` out. -/
def remove (reg : Entries κ τ) (k : κ) (t : τ) : Entries κ τ :=
  Function.update reg k ((reg k).erase t)

/-- Registers the entries of a list, one after the other. -/
def addAll (reg : Entries κ τ) (k : κ) : List τ → Entries κ τ
  | [] => reg
  | t :: ts => addAll (add reg k t) k ts

/-- Takes them out, in the same order. -/
def removeAll (reg : Entries κ τ) (k : κ) : List τ → Entries κ τ
  | [] => reg
  | t :: ts => removeAll (remove reg k t) k ts

theorem add_of_notMem {reg : Entries κ τ} {k : κ} {t : τ} (h : t ∉ reg k) :
    add reg k t = Function.update reg k (reg k ++ [t]) := by
  rw [add, if_neg h]

theorem add_of_mem {reg : Entries κ τ} {k : κ} {t : τ} (h : t ∈ reg k) :
    add reg k t = reg := by
  rw [add, if_pos h]

/-- A list of new entries is appended. -/
theorem addAll_eq {reg : Entries κ τ} {k : κ} {ts : List τ} (h : (reg k ++ ts).Nodup) :
    addAll reg k ts = Function.update reg k (reg k ++ ts) := by
  induction ts generalizing reg with
  | nil => rw [addAll, List.append_nil, Function.update_eq_self]
  | cons t ts ih =>
      have hnot : t ∉ reg k := by
        intro hmem
        rw [List.nodup_append] at h
        exact h.2.2 t hmem t List.mem_cons_self rfl
      have hassoc : reg k ++ [t] ++ ts = reg k ++ t :: ts := by
        rw [List.append_assoc, List.singleton_append]
      rw [addAll, add_of_notMem hnot, ih]
      · rw [Function.update_self, Function.update_idem, hassoc]
      · rw [Function.update_self, hassoc]
        exact h

/-- What is left when a list of entries is taken out. -/
theorem removeAll_eq (reg : Entries κ τ) (k : κ) (ts : List τ) :
    removeAll reg k ts = Function.update reg k ((reg k).diff ts) := by
  induction ts generalizing reg with
  | nil => rw [removeAll, List.diff_nil, Function.update_eq_self]
  | cons t ts ih =>
      rw [removeAll, ih, remove, Function.update_self, Function.update_idem, List.diff_cons]

theorem diff_self (ts : List τ) : ts.diff ts = [] := by
  induction ts with
  | nil => rw [List.diff_nil]
  | cons t ts ih => rw [List.diff_cons, List.erase_cons_head, ih]

/-- Taking out all that is registered at a key leaves nothing there. -/
theorem removeAll_clears {reg : Entries κ τ} {k : κ} {ts : List τ} (h : reg k = ts) :
    removeAll reg k ts = Function.update reg k [] := by
  rw [removeAll_eq, h, diff_self]

end PocoProxy.Registry
