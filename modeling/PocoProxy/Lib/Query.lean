/-
Computations that read an array, one element after the other.

A `Query ι β α` says which element it reads next and, depending on what is there,
how it goes on. It can be run on an array, and it can be asked which elements it
reads; a computation of this kind depends on nothing else (`run_congr`), which a
function of the whole array may or may not do. Bounds on what code reads are
statements about `asked`.
-/
import Mathlib.Init

set_option autoImplicit false

namespace PocoProxy.Queries

/-- A computation that reads elements of an array. -/
inductive Query (ι β α : Type) where
  | done (a : α)
  | ask (i : ι) (next : β → Query ι β α)

namespace Query

variable {ι β α γ : Type}

def bind : Query ι β α → (α → Query ι β γ) → Query ι β γ
  | done a, f => f a
  | ask i next, f => ask i fun b => (next b).bind f

instance : Monad (Query ι β) where
  pure := done
  bind := bind

/-- Reads one element. -/
def get (i : ι) : Query ι β β := ask i done

/-- The result, when the array is `m`. -/
def run (m : ι → β) : Query ι β α → α
  | done a => a
  | ask i next => (next (m i)).run m

/-- The elements that are read, in order. -/
def asked (m : ι → β) : Query ι β α → List ι
  | done _ => []
  | ask i next => i :: (next (m i)).asked m

@[simp] theorem run_pure (m : ι → β) (a : α) : (pure a : Query ι β α).run m = a := rfl

@[simp] theorem asked_pure (m : ι → β) (a : α) : (pure a : Query ι β α).asked m = [] := rfl

@[simp] theorem run_get (m : ι → β) (i : ι) : (get i : Query ι β β).run m = m i := rfl

@[simp] theorem asked_get (m : ι → β) (i : ι) : (get i : Query ι β β).asked m = [i] := rfl

@[simp] theorem run_bind (m : ι → β) (x : Query ι β α) (f : α → Query ι β γ) :
    (x >>= f).run m = (f (x.run m)).run m := by
  change (x.bind f).run m = _
  induction x with
  | done a => rfl
  | ask i next ih => exact ih (m i)

@[simp] theorem asked_bind (m : ι → β) (x : Query ι β α) (f : α → Query ι β γ) :
    (x >>= f).asked m = x.asked m ++ (f (x.run m)).asked m := by
  change (x.bind f).asked m = _
  induction x with
  | done a => rfl
  | ask i next ih => exact congrArg (i :: ·) (ih (m i))

/-- **The result depends on what is read** and on nothing else. -/
theorem run_congr {m m' : ι → β} (x : Query ι β α) (h : ∀ i ∈ x.asked m, m' i = m i) :
    x.run m' = x.run m := by
  induction x with
  | done a => rfl
  | ask i next ih =>
      have hi : m' i = m i := h i List.mem_cons_self
      change (next (m' i)).run m' = (next (m i)).run m
      rw [hi]
      exact ih (m i) fun j hj => h j (List.mem_cons_of_mem i hj)

end Query

end PocoProxy.Queries
