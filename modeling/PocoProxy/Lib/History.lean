/-
What has been written down along a run.

A state says where a run has come to, and not how. Where a property is about something that has
happened, it is noted: the note is computed from the transitions, and the invariant is one of
the state and the note together. `along_iff` is for a property of the single steps that depends
on the note.
-/
import PocoProxy.Lib.Runs
import Mathlib.Data.List.Induction

set_option autoImplicit false

namespace PocoProxy.Runs

variable {σ ℓ γ : Type}

/-- The note at the end of a run that begins with the note `g`. -/
def noted (note : γ → Transition σ ℓ → γ) (g : γ) (ts : List (Transition σ ℓ)) : γ :=
  ts.foldl note g

/-- **The invariant rule, with notes.** -/
theorem invariant_noted {R : σ → ℓ → σ → Prop} {note : γ → Transition σ ℓ → γ}
    {I : σ → γ → Prop} (hI : ∀ s l s' g, I s g → R s l s' → I s' (note g ⟨s, l, s'⟩)) {s : σ}
    {g : γ} (hs : I s g) {ts : List (Transition σ ℓ)} (hrun : IsRun R s ts) :
    I (last s ts) (noted note g ts) := by
  induction ts generalizing s g with
  | nil => exact hs
  | cons u us ih =>
      obtain ⟨rfl, hu, hus⟩ := hrun
      exact ih (hI _ _ _ _ hs hu) hus

/-- A note that some transitions write anew is that of the last one of these. -/
theorem exists_last {note : Option γ → Transition σ ℓ → Option γ} {C : Transition σ ℓ → Prop}
    {F : Transition σ ℓ → γ} (hnew : ∀ g t, C t → note g t = some (F t))
    (hold : ∀ g t, ¬ C t → note g t = g) {ts : List (Transition σ ℓ)} {a : γ}
    (h : noted note none ts = some a) :
    ∃ us t vs, ts = us ++ t :: vs ∧ C t ∧ F t = a ∧ ∀ v ∈ vs, ¬ C v := by
  induction ts using List.reverseRecOn with
  | nil => cases h
  | append_singleton ts u ih =>
      rw [noted, List.foldl_concat] at h
      by_cases hu : C u
      · rw [hnew _ _ hu] at h
        exact ⟨ts, u, [], rfl, hu, Option.some.inj h, by simp⟩
      · rw [hold _ _ hu] at h
        obtain ⟨us, t, vs, rfl, ht, hF, hvs⟩ := ih h
        refine ⟨us, t, vs ++ [u], by simp, ht, hF, fun v hv => ?_⟩
        rcases List.mem_append.mp hv with hv | hv
        · exact hvs v hv
        · rwa [List.mem_singleton.mp hv]

/-- Each transition of a run has the property, with the note that there is before it. -/
def Along (note : γ → Transition σ ℓ → γ) (P : γ → Transition σ ℓ → Prop) :
    γ → List (Transition σ ℓ) → Prop
  | _, [] => True
  | g, t :: ts => P g t ∧ Along note P (note g t) ts

/-- The last transition has it. -/
theorem Along.of_concat {note : γ → Transition σ ℓ → γ} {P : γ → Transition σ ℓ → Prop} {g : γ}
    {ts : List (Transition σ ℓ)} {t : Transition σ ℓ} (h : Along note P g (ts ++ [t])) :
    P (noted note g ts) t := by
  induction ts generalizing g with
  | nil => exact h.1
  | cons u us ih => exact ih h.2

/-- **The rule for a property of the single steps, with notes.** From a state and a note with
`J`, a step has `Q` exactly if it meets `C`, and a step with `Q` leads to `J` again. -/
theorem along_iff {R : σ → ℓ → σ → Prop} {note : γ → Transition σ ℓ → γ} {J : σ → γ → Prop}
    {Q : γ → Transition σ ℓ → Prop} {C : γ → Transition σ ℓ → Prop}
    (hJ : ∀ g t, J t.src g → R t.src t.label t.dst → Q g t → J t.dst (note g t))
    (hC : ∀ g t, J t.src g → R t.src t.label t.dst → (Q g t ↔ C g t)) {s : σ} {g : γ}
    (hs : J s g) {ts : List (Transition σ ℓ)} (hrun : IsRun R s ts) :
    Along note Q g ts ↔ Along note C g ts := by
  induction ts generalizing s g with
  | nil => exact Iff.rfl
  | cons u us ih =>
      obtain ⟨rfl, hu, hus⟩ := hrun
      have hkey := hC g u hs hu
      constructor
      · rintro ⟨hq, hrest⟩
        exact ⟨hkey.mp hq, (ih (hJ g u hs hu hq) hus).mp hrest⟩
      · rintro ⟨hc, hrest⟩
        exact ⟨hkey.mpr hc, (ih (hJ g u hs hu (hkey.mpr hc)) hus).mpr hrest⟩

end PocoProxy.Runs
