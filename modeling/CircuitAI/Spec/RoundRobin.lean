import CircuitAI.Impl.BuilderTask

/-!
# Rounds over the assignees

Calls on a live task and what `GetNextAssignee` returns in them. A round goes from one call that finds the iterator at the
end (`Wraps`) to the next.
-/

namespace Circuit.Spec.RoundRobin

open Impl.BuilderTask Assignees

variable {α : Type*} [LinearOrder α]

inductive Call (α : Type*)
  | assignTo (unit : α)
  | removeAssignee (unit : α) (lastFrame : ℤ)
  | getNextAssignee

def step (t : Assignees α) : Call α → Assignees α
  | .assignTo unit => t.assignTo unit
  | .removeAssignee unit lastFrame => t.removeAssignee unit lastFrame
  | .getNextAssignee => t.getNextAssignee.2

/-- The unit that a call returns. -/
def answer (t : Assignees α) : Call α → Option α
  | .getNextAssignee => t.getNextAssignee.1
  | _ => none

def run (t : Assignees α) : List (Call α) → Assignees α :=
  List.foldl step t

/-- The units that the calls return, in their order. -/
def answers (t : Assignees α) : List (Call α) → List α
  | [] => []
  | c :: calls => (answer t c).toList ++ answers (step t c) calls

/-- `GetNextAssignee` would move the iterator from the end to the first unit. -/
def Wraps (t : Assignees α) : Prop :=
  t.units ≠ ∅ ∧ t.unitIt = ⊤

instance (t : Assignees α) : Decidable (Wraps t) := inferInstanceAs (Decidable (_ ∧ _))

def NoWrap (t : Assignees α) : List (Call α) → Prop
  | [] => True
  | c :: calls => (match c with | .getNextAssignee => ¬ Wraps t | _ => True) ∧ NoWrap (step t c) calls

/-- The unit is assigned before, between and after the calls. -/
def Stays (u : α) (t : Assignees α) : List (Call α) → Prop
  | [] => u ∈ t.units
  | c :: calls => u ∈ t.units ∧ Stays u (step t c) calls

end Circuit.Spec.RoundRobin
