import CircuitAI.Impl.AreaUpdate
import Mathlib.Logic.Relation

/-!
# Runs of area updates

`Step` is what can happen next to a state: a periodic `EnqueueUpdate` of the owner, the next piece of an update
(`Pending`), or the release of an AI that meets the condition `ok`. `Reachable` are the states of any run from any
AIs.
-/

namespace Circuit.Spec.AreaUpdates

open Impl.AreaUpdate Relation

variable {α τ : Type*} [DecidableEq α] [DecidableEq τ] (team : α → τ)

/-- Steps that some queue of a live scheduler holds. -/
inductive Pending : State α τ → State α τ → Prop
  | work {s : State α τ} {a : α} (h : a ∈ s.workTasks) : Pending s (s.runWorkTask a)
  | finish {s : State α τ} {a : α} (hlive : a ∈ s.circuits) (h : a ∈ s.finishTasks) :
    Pending s (s.runFinishTask team a)
  | once {s : State α τ} {a : α} {t : Task} (hlive : a ∈ s.circuits) (h : t ∈ s.onceTasks a) :
    Pending s (s.runOnceTask team a t)

inductive Step (ok : State α τ → α → Prop) : State α τ → State α τ → Prop
  | enqueue {s : State α τ} (hlive : s.scheduler ∈ s.circuits) : Step ok s s.enqueueUpdate
  | pending {s t : State α τ} (h : Pending team s t) : Step ok s t
  | release {s : State α τ} {a : α} (hlive : a ∈ s.circuits) (hok : ok s a) : Step ok s (s.release a)

/-- The states of the runs in which each release meets the condition. -/
def Reachable (ok : State α τ → α → Prop) (s : State α τ) : Prop :=
  ∃ (circuits : List α) (scheduler : α), circuits.Nodup ∧ ReflTransGen (Step team ok) (.new circuits scheduler) s

/-- The update ends in a step. -/
def Swaps (s t : State α τ) : Prop :=
  t.pAreaData ≠ s.pAreaData ∨ s.isUpdating = true ∧ t.isUpdating = false

/-- An AI has taken over the area data in use: no task is left and every pointer is to that data. -/
def Settled (s : State α τ) (a : α) : Prop :=
  s.onceTasks a = [] ∧ s.areaData a = s.pAreaData ∧
    (s.pathfinder (team a)).areaData = s.pAreaData ∧ (s.enemyManager (team a)).areaData = s.pAreaData

/-- An AI is not released after its report while others still owe theirs. -/
def Owes (s : State α τ) (a : α) : Prop := 0 < s.aiToUpdate → s.onceTasks a ≠ []

/-- An AI is not released while its scheduler holds the update, unless it is the last one. -/
def Unburdened (s : State α τ) (a : α) : Prop :=
  (a ∉ s.workTasks ∧ a ∉ s.finishTasks) ∨ s.circuits = [a]

end Circuit.Spec.AreaUpdates
