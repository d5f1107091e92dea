import Mathlib.Tactic

/-!
# Properties of every step of a run

A machine takes one action after another; an action without a successor state
ends the run.  A property of steps is asked of every step a run takes.  When two
such properties agree on the states of an invariant, and one of them keeps the
invariant, they agree on whole runs.

Main result:

- Theorem {lit}`everyStep_iff`: two properties that agree on an invariant agree on runs.
-/

namespace Steps

variable {α σ : Type} (step : α → σ → Option σ)

/-- The property holds of every step the machine takes from this state on. -/
def EveryStep (P : α → σ → Prop) : σ → List α → Prop
  | _, [] => True
  | s, a :: as => P a s ∧ ∀ s', step a s = some s' → EveryStep P s' as

variable {step} {P Q : α → σ → Prop}

/-- Two properties of steps that agree on the states of an invariant hold of the same
runs, if one of them keeps the invariant. -/
theorem everyStep_iff (Inv : σ → Prop) (hiff : ∀ a s, Inv s → (P a s ↔ Q a s))
    (hkeep : ∀ a s s', Inv s → Q a s → step a s = some s' → Inv s') {s : σ} (hs : Inv s)
    (as : List α) : EveryStep step P s as ↔ EveryStep step Q s as := by
  induction as generalizing s with
  | nil => exact Iff.rfl
  | cons a as ih =>
      simp only [EveryStep, hiff a s hs]
      constructor
      · rintro ⟨hq, hrest⟩
        exact ⟨hq, fun s' hstep => (ih (hkeep a s s' hs hq hstep)).mp (hrest s' hstep)⟩
      · rintro ⟨hq, hrest⟩
        exact ⟨hq, fun s' hstep => (ih (hkeep a s s' hs hq hstep)).mpr (hrest s' hstep)⟩

end Steps
