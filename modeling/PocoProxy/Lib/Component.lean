/-
One component of a system, looked at in a run of the whole system.

A component is there from some step on, has a state of its own, and takes part in a step by an
event of its own or not at all. It is `Separate` when its state after a step depends on nothing
but its own state and its own event, and its first state on nothing but the label of the step
that it comes with. What it is after a run is then a matter of that label and of its own events
(`view_last`), and the rest of the system might as well not be there.
-/
import PocoProxy.Lib.Runs

set_option autoImplicit false

namespace PocoProxy.Runs

variable {σ ℓ τ ε : Type}

structure Component (σ ℓ τ ε : Type) where
  /-- The state of the component, if it is there. -/
  view : σ → Option τ
  /-- Its part in a step with this label. -/
  event : σ → ℓ → Option ε
  /-- Its first state, when it comes with a step with this label. -/
  born : ℓ → Option τ
  step : τ → ε → τ

namespace Component

variable (C : Component σ ℓ τ ε)

/-- The label of the step that it comes with. -/
def origin (ts : List (Transition σ ℓ)) : Option ℓ :=
  (ts.find? fun t => (C.view t.dst).isSome).map Transition.label

/-- Its events, from then on. -/
def events (ts : List (Transition σ ℓ)) : List ε :=
  ts.filterMap fun t => if (C.view t.src).isSome then C.event t.src t.label else none

/-- What it would be if it were alone. -/
def alone (origin : Option ℓ) (events : List ε) : Option τ :=
  (origin.bind C.born).map fun c => events.foldl C.step c

/-- Nothing else in the system has an influence on it. -/
structure Separate (I : σ → Prop) (R : σ → ℓ → σ → Prop) : Prop where
  comes : ∀ s l s' c, I s → R s l s' → C.view s = none → C.view s' = some c → C.born l = some c
  moves : ∀ s l s' c, I s → R s l s' → C.view s = some c →
    C.view s' = some (((C.event s l).map (C.step c)).getD c)

namespace Separate

variable {C} {I : σ → Prop} {R : σ → ℓ → σ → Prop}

/-- A run from a state in which it is there. -/
theorem view_of_some (h : C.Separate I R) (hI : ∀ s l s', I s → R s l s' → I s') {s : σ}
    (hs : I s) {c : τ} (hc : C.view s = some c) {ts : List (Transition σ ℓ)} (hrun : IsRun R s ts) :
    C.view (last s ts) = some ((C.events ts).foldl C.step c) := by
  induction ts generalizing s c with
  | nil => exact hc
  | cons u us ih =>
      obtain ⟨rfl, hu, hus⟩ := hrun
      have hnext := h.moves _ _ _ _ hs hu hc
      have hevents : C.events (u :: us) = (C.event u.src u.label).toList ++ C.events us := by
        rw [events, List.filterMap_cons, hc, Option.isSome_some, if_pos rfl]
        cases C.event u.src u.label <;> rfl
      rw [last, ih (hI _ _ _ hs hu) hnext hus, hevents, List.foldl_append]
      cases C.event u.src u.label <;> rfl

/-- **A component that is separate goes its own way**: after a run, it is what it would be
alone. -/
theorem view_last (h : C.Separate I R) (hI : ∀ s l s', I s → R s l s' → I s') {s : σ} (hs : I s)
    (hnone : C.view s = none) {ts : List (Transition σ ℓ)} (hrun : IsRun R s ts) :
    C.view (last s ts) = C.alone (C.origin ts) (C.events ts) := by
  induction ts generalizing s with
  | nil => exact hnone
  | cons u us ih =>
      obtain ⟨rfl, hu, hus⟩ := hrun
      have hdst := hI _ _ _ hs hu
      have hevents : C.events (u :: us) = C.events us := by
        rw [events, List.filterMap_cons, hnone, Option.isSome_none, if_neg Bool.false_ne_true]
        rfl
      rw [last, hevents, origin, List.find?_cons]
      cases hc : C.view u.dst with
      | none => exact ih hdst hc hus
      | some c =>
          -- it comes with this step
          rw [h.view_of_some hI hdst hc hus, alone, Option.isSome_some, Option.map_some,
            Option.bind_some, h.comes _ _ _ _ hs hu hnone hc, Option.map_some]

end Separate

end Component

end PocoProxy.Runs
