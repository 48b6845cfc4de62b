/-
Reading from the front of a list.

A reader gives what it has made of the beginning of a list, and how many elements it has gone
through. What is behind these makes no difference to a local reader: cut off there, the list is
read alike. The readers here are local, and so is one reader after the other.
-/
import Mathlib.Data.List.TakeWhile
import Mathlib.Data.Nat.Notation

set_option autoImplicit false

namespace PocoProxy.Readers

variable {α β γ : Type}

/-- What has been read, and the number of the elements gone through. -/
def Reader (α β : Type) : Type := List α → β × ℕ

/-- A reader after another one starts where that has stopped. -/
instance : Monad (Reader α) where
  pure b := fun _ => (b, 0)
  bind r s := fun l =>
    ((s (r l).1 (l.drop (r l).2)).1, (r l).2 + (s (r l).1 (l.drop (r l).2)).2)

theorem pure_apply (b : β) (l : List α) : (pure b : Reader α β) l = (b, 0) := rfl

theorem bind_apply (r : Reader α β) (s : β → Reader α γ) (l : List α) :
    (r >>= s) l = ((s (r l).1 (l.drop (r l).2)).1,
      (r l).2 + (s (r l).1 (l.drop (r l).2)).2) := rfl

/-- The elements with the property, up to the first one without it. -/
def span (p : α → Bool) : Reader α (List α) := fun l => (l.takeWhile p, (l.takeWhile p).length)

/-- One element, if there is one with the property. -/
def next? (p : α → Bool) : Reader α (Option α)
  | [] => (none, 0)
  | a :: _ => if p a then (some a, 1) else (none, 0)

/-- What is behind the elements gone through makes no difference. -/
def Local (r : Reader α β) : Prop := ∀ l n, (r l).2 ≤ n → r (l.take n) = r l

theorem local_pure (b : β) : Local (pure b : Reader α β) := fun _ _ _ => rfl

theorem local_span (p : α → Bool) : Local (span p) := by
  intro l n hn
  have hsame : (l.take n).takeWhile p = l.takeWhile p := by
    rw [← List.take_takeWhile]
    exact List.take_of_length_le hn
  rw [span, hsame, span]

theorem local_next? (p : α → Bool) : Local (next? p) := by
  intro l n hn
  cases l with
  | nil => rw [List.take_nil]
  | cons a as =>
      cases n with
      | succ n => rfl
      | zero =>
          rw [next?] at hn ⊢
          split_ifs at hn ⊢ with ha
          · omega
          · rfl

theorem Local.bind {r : Reader α β} {s : β → Reader α γ} (hr : Local r) (hs : ∀ b, Local (s b)) :
    Local (r >>= s) := by
  intro l n hn
  rw [bind_apply] at hn ⊢
  rw [bind_apply]
  dsimp only at hn
  have hfirst : r (l.take n) = r l := hr l n (by omega)
  have hthen := hs (r l).1 (l.drop (r l).2) (n - (r l).2) (by omega)
  rw [hfirst, List.drop_take, hthen]

theorem Local.ite {c : Prop} [Decidable c] {r s : Reader α β} (hr : Local r) (hs : Local s) :
    Local (if c then r else s) := by
  split
  · exact hr
  · exact hs

/-! ## What is gone through -/

theorem mem_take_span {p : α → Bool} {l : List α} {a : α} (ha : a ∈ l.take (span p l).2) :
    p a = true := by
  have hread : l.take (span p l).2 = l.takeWhile p :=
    (List.prefix_iff_eq_take.mp (List.takeWhile_prefix p)).symm
  rw [hread] at ha
  exact List.mem_takeWhile_imp ha

theorem mem_take_next? {p : α → Bool} {l : List α} {a : α} (ha : a ∈ l.take (next? p l).2) :
    p a = true := by
  cases l with
  | nil => cases ha
  | cons b bs =>
      rw [next?] at ha
      split_ifs at ha with hb
      · rw [List.take_succ_cons, List.take_zero, List.mem_singleton] at ha
        exact ha ▸ hb
      · cases ha

theorem mem_take_bind {r : Reader α β} {s : β → Reader α γ} {l : List α} {a : α}
    (ha : a ∈ l.take ((r >>= s) l).2) :
    a ∈ l.take (r l).2
      ∨ a ∈ (l.drop (r l).2).take (s (r l).1 (l.drop (r l).2)).2 := by
  rw [bind_apply, List.take_add, List.mem_append] at ha
  exact ha

end PocoProxy.Readers
