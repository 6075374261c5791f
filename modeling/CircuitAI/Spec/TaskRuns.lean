import CircuitAI.Impl.UnitTasks
import Mathlib.Algebra.BigOperators.Group.Finset.Defs

/-!
# Runs of the task managers

A run is a sequence of events in which the engine keeps to its protocol (`Proper`): a unit that is created is a new
object, and a unit is finished once. What the counters of the builder manager stand for is summed over its state:
`activePower` over the workers that do not guard, `totalPull` over the assignees of live tasks.
-/

namespace Circuit.Spec.TaskRuns

open Impl.UnitTasks

variable {U ρ : Type} [DecidableEq U]

def OnGuard (s : State U ρ) (u : U) : Prop := ∃ t, s.kind t = .builder .guard ∧ u ∈ s.units t

open Classical in
/-- The build speeds of the workers that are on no guard task. -/
noncomputable def activePower (g : Game U ρ) (s : State U ρ) : ℚ :=
  ∑ u ∈ s.workers with ¬ OnGuard s u, g.buildSpeed u

def assigned (g : Game U ρ) (s : State U ρ) (t : ℕ) : ℚ := ∑ u ∈ s.units t, g.buildSpeed u

/-- The build speeds of the assignees of live tasks that count for the metal pull. -/
def totalPull (g : Game U ρ) (s : State U ρ) : ℚ :=
  ∑ t ∈ Finset.range s.nextTask with s.isDead t = false ∧ (s.tasks t).isPull = true, assigned g s t

/-- No pointer refers to the unit. -/
def Fresh (s : State U ρ) (u : U) : Prop := s.task u = none ∧ ∀ t, s.target t ≠ some u

/-- The finished handler has not run for the unit. -/
def Unfinished (s : State U ρ) (u : U) : Prop := ∀ t, s.task u = some t → s.kind t = .nil

def Proper (s : State U ρ) : Event U → Prop
  | .unitCreated u _ isBeingBuilt => (u ∉ s.teamUnits → Fresh s u) ∧ (isBeingBuilt = true → u ∉ s.teamUnits)
  | .unitFinished u => (u ∉ s.teamUnits → Fresh s u) ∧ Unfinished s u
  | _ => True

inductive Run (g : Game U ρ) : State U ρ → Prop
  | init : Run g .init
  | step {s t : State U ρ} (e : Event U) (n : ℕ) (answers rest : List (Answer U)) (hs : Run g s) (hproper : Proper s e)
      (h : e.handle g n s answers = some (((), t), rest)) : Run g t

end Circuit.Spec.TaskRuns
