import CircuitAI.Impl.MexTask

/-!
# Reserved spots

The closer of a spot is the task whose `Execute` has closed it in the shared manager, as long as it is closed. A run is
any interleaving of the steps of the AIs, together with the closers. A spot is reserved if only its closer, or the
destruction of a mex on it, opens it again.
-/

namespace Circuit.Spec.SpotReservations

open Impl.MexTask

variable {A P S C : Type*} [DecidableEq A] [DecidableEq S] [DecidableEq C]

/-- The task that takes the step. -/
def taskOf : Event A P S → Option ℕ
  | .execute k _ => some k
  | .stop k _ => some k
  | .setTarget k _ => some k
  | _ => none

/-- A task has ordered to build. -/
def Engaged (s : State A P S C) (k : ℕ) : Prop := ∃ task : CBMexTask A P, s.tasks[k]? = some task ∧ task.isEngaged = true

def DestroysMex (d : Metals A P S C) (i : S) : Event A P S → Prop
  | .mexDestroyed _ pos => d.findNearestSpot pos = some i
  | _ => False

def closers (s t : State A P S C) (e : Event A P S) (closer : S → Option ℕ) (i : S) : Option ℕ :=
  if t.metalMgr.isOpen i then none else if s.metalMgr.isOpen i then taskOf e else closer i

def site (d : Metals A P S C) (task : CBMexTask A P) : Option S :=
  if task.hasTarget then none else task.buildPos.bind d.findNearestSpot

def SiteTaken (d : Metals A P S C) (closer : S → Option ℕ) (k : ℕ) (task : CBMexTask A P) : Prop :=
  ∃ i ∈ site d task, ∃ j ∈ closer i, j ≠ k

/-- An `Execute` on a taken site goes on to build there, or finds another spot: the site is possible to build at, and
the task is engaged, or a spot is left for it, or it is not the task of the unit any more. -/
def Yields (d : Metals A P S C) (s : State A P S C) (task : CBMexTask A P) (o : Outcome S) : Prop :=
  o.isPossibleToBuildAt = true ∧ (task.isEngaged = true ∨ o.isAssigned = false ∨
    ∃ i ∈ site d task, ((s.setOwn task.ai i true).findSpot d task.ai o.nearest o.isSite).isSome = true)

/-- No task is cancelled on a site that is taken, and an `Execute` yields there. -/
def Considerate (d : Metals A P S C) (s : State A P S C) (closer : S → Option ℕ) : Event A P S → Prop
  | .execute k o => ∀ task ∈ s.tasks[k]?, SiteTaken d closer k task → Yields d s task o
  | .stop k done => ∀ task ∈ s.tasks[k]?, SiteTaken d closer k task → done = true
  | _ => True

/-- The states after steps that meet the condition, with the closers of the spots. -/
inductive Run (d : Metals A P S C) (ok : State A P S C → (S → Option ℕ) → Event A P S → Prop) :
    State A P S C → (S → Option ℕ) → Prop
  | init : Run d ok .init fun _ => none
  | step {s t : State A P S C} {closer : S → Option ℕ} (e : Event A P S) (hs : Run d ok s closer) (hok : ok s closer e)
      (h : e.handle d s = some t) : Run d ok t (closers s t e closer)

end Circuit.Spec.SpotReservations
