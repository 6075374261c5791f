import Mathlib.Logic.Relation
import Mathlib.Data.Nat.Init

/-!
# Runs of a step relation

A run is `ReflTransGen step`. `invariant_of_steps` carries an invariant from the first state of a run to the
last, and `exists_run_of_rank` makes a run to a goal out of steps that lower a rank.
-/

namespace Circuit.Framework

open Relation

variable {σ : Type*} {step : σ → σ → Prop} {P Q : σ → Prop} {s t : σ}

theorem invariant_of_steps (hstep : ∀ s t, P s → step s t → P t) (hs : P s) (h : ReflTransGen step s t) : P t := by
  induction h with
  | refl => exact hs
  | tail _ hbc ih => exact hstep _ _ ih hbc

theorem exists_run_of_rank (rank : σ → ℕ) (hstep : ∀ s, P s → Q s ∨ ∃ t, step s t ∧ P t ∧ rank t < rank s)
    (hs : P s) : ∃ t, ReflTransGen step s t ∧ Q t := by
  induction hr : rank s using Nat.strongRecOn generalizing s with
  | _ n ih =>
    rcases hstep s hs with hq | ⟨t, hst, ht, hlt⟩
    · exact ⟨s, .refl, hq⟩
    · obtain ⟨u, htu, hu⟩ := ih (rank t) (hr ▸ hlt) ht rfl
      exact ⟨u, .head hst htu, hu⟩

end Circuit.Framework
