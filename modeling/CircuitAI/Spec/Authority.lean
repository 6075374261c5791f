import CircuitAI.Impl.AllyTeam

/-!
# Runs of inits and releases

AIs of any ally teams are initialised and released in any order. `Owned` says of a shared object that the AI that it
has recorded is initialised.
-/

namespace Circuit.Spec.Authority

open Impl.AllyTeam

variable {α τ : Type*} [DecidableEq α] [DecidableEq τ]

inductive Input (α : Type*)
  | init (a : α)
  /-- With the order in which the set of circuits is gone through. -/
  | release (a : α) (order : List α)

/-- An AI is initialised once, and released once it is. -/
inductive Step (team : α → τ) (s : State α τ) : Input α → State α τ → Prop
  | init {a : α} (h : s.isInitialized a = false) : Step team s (.init a) (s.init team a)
  | release {a : α} {order : List α} (h : s.isInitialized a = true) (horder : order.Perm s.circuits) :
    Step team s (.release a order) (s.release team order a)

/-- The states of the runs whose steps meet the condition. -/
inductive Run (team : α → τ) (ok : State α τ → Input α → Prop) : State α τ → Prop
  | new : Run team ok .new
  | step {s t : State α τ} {i : Input α} (h : Run team ok s) (hok : ok s i) (hst : Step team s i t) : Run team ok t

/-- The AI that is recorded is initialised and not released. -/
def Owned (s : State α τ) (owner : Option α) : Prop := ∃ a, owner = some a ∧ s.isInitialized a = true

end Circuit.Spec.Authority
