/-
Pre- and postconditions of programs that may throw, and loops.

A postcondition speaks of the result, a value or an exception, and of the state reached. A loop
goes from round to round with a value of its own until a round leaves with a result, and is given
so many rounds; the rule for it asks for an invariant of that value and the state.
-/
import PocoProxy.Lib.Program
import Mathlib.Data.Nat.Notation

set_option autoImplicit false

namespace PocoProxy.Program

variable {ε σ α β : Type}

/-- Run from a state with `P`, the program ends as `Q` says. -/
def Ensures (P : σ → Prop) (x : Prog ε σ α) (Q : Except ε α → σ → Prop) : Prop :=
  ∀ s, P s → Q (x s).1 (x s).2

/-- `R` is what holds in between. An exception of the first program is the last of it. -/
theorem Ensures.bind {P : σ → Prop} {x : Prog ε σ α} {f : α → Prog ε σ β}
    {R : Except ε α → σ → Prop} {Q : Except ε β → σ → Prop}
    (hx : Ensures P x R) (hok : ∀ a, Ensures (R (.ok a)) (f a) Q)
    (herror : ∀ e s, R (.error e) s → Q (.error e) s) : Ensures P (x >>= f) Q := by
  intro s hs
  have hR := hx s hs
  cases hxs : x s with
  | mk r s' =>
      rw [hxs] at hR
      cases r with
      | ok a =>
          rw [Prog.bind_of_ok hxs]
          exact hok a s' hR
      | error e =>
          rw [Prog.bind_of_error hxs]
          exact herror e s' hR

/-! ## Loops -/

/-- Rounds from `b` on, so many at most. A round ends with the value for the next one or with
the result; when no round is left, `out` is thrown. -/
def Prog.loop (out : ε) (body : β → Prog ε σ (β ⊕ α)) : ℕ → β → Prog ε σ α
  | 0, _ => Prog.throw out
  | fuel + 1, b => do
    match ← body b with
    | .inl b' => Prog.loop out body fuel b'
    | .inr a => pure a

section Loop

variable {out : ε} {body : β → Prog ε σ (β ⊕ α)}

theorem loop_again {fuel : ℕ} {b b' : β} {s s' : σ} (h : body b s = (.ok (.inl b'), s')) :
    Prog.loop out body (fuel + 1) b s = Prog.loop out body fuel b' s' := by
  rw [Prog.loop, Prog.bind_of_ok h]

theorem loop_leave {fuel : ℕ} {b : β} {a : α} {s s' : σ} (h : body b s = (.ok (.inr a), s')) :
    Prog.loop out body (fuel + 1) b s = (.ok a, s') := by
  rw [Prog.loop, Prog.bind_of_ok h]
  rfl

theorem loop_error {fuel : ℕ} {b : β} {e : ε} {s s' : σ} (h : body b s = (.error e, s')) :
    Prog.loop out body (fuel + 1) b s = (.error e, s') := by
  rw [Prog.loop, Prog.bind_of_error h]

/-- How a round ends: the invariant holds for the next one, or the loop ends as it should. -/
def RoundEnds (I : β → σ → Prop) (Q : Except ε α → σ → Prop) : Except ε (β ⊕ α) → σ → Prop
  | .ok (.inl b'), s => I b' s
  | .ok (.inr a), s => Q (.ok a) s
  | .error e, s => Q (.error e) s

/-- **The loop rule.** -/
theorem Ensures.loop {I : β → σ → Prop} {Q : Except ε α → σ → Prop}
    (hbody : ∀ b, Ensures (I b) (body b) (RoundEnds I Q))
    (hout : ∀ b s, I b s → Q (.error out) s) (fuel : ℕ) (b : β) :
    Ensures (I b) (Prog.loop out body fuel b) Q := by
  induction fuel generalizing b with
  | zero => exact fun s hs => hout b s hs
  | succ fuel ih =>
      rw [Prog.loop]
      refine Ensures.bind (hbody b) (fun next => ?_) (fun e s hs => hs)
      cases next with
      | inl b' => exact ih b'
      | inr a => exact fun s hs => hs

end Loop

end PocoProxy.Program
