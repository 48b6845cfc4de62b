/-
Programs over a state that may end with an exception.

A `Prog ε σ α` reads and writes a state of type `σ` and ends with a value or
with an exception of type `ε`. The state it has reached is kept in both cases:
an exception undoes nothing, which is what imperative languages with exceptions
do and what a transaction monad does not.

Besides the monad, this file has the evaluation rules: one equation for each
construct, so that a run of a program is computed by rewriting.
-/
import Mathlib.Init

set_option autoImplicit false

namespace PocoProxy.Program

/-- A program over the state `σ`. It ends with a value or an exception, and
with the state reached. -/
def Prog (ε σ α : Type) : Type := σ → Except ε α × σ

namespace Prog

variable {ε σ α β : Type}

instance : Monad (Prog ε σ) where
  pure a := fun s => (.ok a, s)
  bind x f := fun s =>
    match x s with
    | (.ok a, s') => f a s'
    | (.error e, s') => (.error e, s')

/-- Reads the state. -/
def read : Prog ε σ σ := fun s => (.ok s, s)

/-- Changes the state. -/
def modify (f : σ → σ) : Prog ε σ Unit := fun s => (.ok (), f s)

/-- Ends with the exception `e`. -/
def throw (e : ε) : Prog ε σ α := fun s => (.error e, s)

/-- `try x catch (e) h e` for the exceptions that `p` selects; the others leave
`x` as they are. -/
def tryCatch (p : ε → Bool) (x : Prog ε σ α) (h : ε → Prog ε σ α) : Prog ε σ α := fun s =>
  match x s with
  | (.ok a, s') => (.ok a, s')
  | (.error e, s') => if p e then h e s' else (.error e, s')

/-! ## Evaluation rules -/

@[simp] theorem pure_apply (a : α) (s : σ) : (pure a : Prog ε σ α) s = (.ok a, s) := rfl

@[simp] theorem read_apply (s : σ) : (read : Prog ε σ σ) s = (.ok s, s) := rfl

@[simp] theorem modify_apply (f : σ → σ) (s : σ) :
    (modify f : Prog ε σ Unit) s = (.ok (), f s) := rfl

@[simp] theorem throw_apply (e : ε) (s : σ) : (throw e : Prog ε σ α) s = (.error e, s) := rfl

theorem bind_apply (x : Prog ε σ α) (f : α → Prog ε σ β) (s : σ) :
    (x >>= f) s = match x s with
      | (.ok a, s') => f a s'
      | (.error e, s') => (.error e, s') := rfl

theorem bind_of_ok {x : Prog ε σ α} {f : α → Prog ε σ β} {s s' : σ} {a : α}
    (h : x s = (.ok a, s')) : (x >>= f) s = f a s' := by
  rw [bind_apply, h]

theorem bind_of_error {x : Prog ε σ α} {f : α → Prog ε σ β} {s s' : σ} {e : ε}
    (h : x s = (.error e, s')) : (x >>= f) s = (.error e, s') := by
  rw [bind_apply, h]

theorem tryCatch_of_ok {p : ε → Bool} {x : Prog ε σ α} {h : ε → Prog ε σ α} {s s' : σ} {a : α}
    (hx : x s = (.ok a, s')) : tryCatch p x h s = (.ok a, s') := by
  simp only [tryCatch, hx]

theorem tryCatch_of_error {p : ε → Bool} {x : Prog ε σ α} {h : ε → Prog ε σ α} {s s' : σ} {e : ε}
    (hx : x s = (.error e, s')) :
    tryCatch p x h s = if p e then h e s' else (.error e, s') := by
  simp only [tryCatch, hx]

/-- `tryCatch` sees of its first argument only what that one run comes to. -/
theorem tryCatch_congr {p : ε → Bool} {x y : Prog ε σ α} {h : ε → Prog ε σ α} {s s' : σ}
    (hxy : x s = y s') : tryCatch p x h s = tryCatch p y h s' := by
  simp only [tryCatch, hxy]

theorem ite_run (c : Prop) [Decidable c] (x y : Prog ε σ α) (s : σ) :
    (if c then x else y) s = if c then x s else y s := by
  split <;> rfl

end Prog

end PocoProxy.Program
