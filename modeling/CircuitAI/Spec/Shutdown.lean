import CircuitAI.Impl.Scheduler

/-!
# Runs of schedulers

A run with its events, the last one first. `Busy` is a thread in a task of a scheduler, or about to push its
callback; `holds` a thread with a task that it has not started yet.
-/

namespace Circuit.Spec.Shutdown

open Impl.Scheduler

variable {σ T : Type*} [DecidableEq σ]

inductive Run (maxPathThreads : ℕ) : List (Event σ T) → State σ T → Prop
  | new : Run maxPathThreads [] .new
  | step {es : List (Event σ T)} {e : Event σ T} {s t : State σ T} (h : Run maxPathThreads es s)
    (hst : Step maxPathThreads s e t) : Run maxPathThreads (e :: es) t

/-- The thread is in a task of `S`, or has its callback to push. -/
def Busy (S : σ) : Pc σ T → Prop
  | .running i => i.owner = S
  | .finished i => i.owner = S
  | _ => False

variable [DecidableEq T]

/-- The thread has the task `i` and has not decided yet whether to start it. -/
def holds (i : Item σ T) : Pc σ T → Bool
  | .popped j => j = i
  | .marked j => j = i
  | _ => false

end Circuit.Spec.Shutdown
