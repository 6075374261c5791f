import Mathlib.Data.Finset.Erase
import Mathlib.Data.Finset.Insert

/-!
# Targets of fighter tasks (`task/fighter/FighterTask.cpp`, `unit/enemy/EnemyUnit.{h,cpp}`)

The target of an `IFighterTask` and the tasks of a `CEnemyInfo`, in memory that is allocated and freed: at an address there
is an object or `none`. A function that follows a pointer to a freed object fails.
-/

namespace Circuit.Impl.FighterTarget

open Function

/-- `T` and `E` are the addresses of tasks and of enemy infos. -/
structure State (T E : Type*) where
  target : T → Option (Option E)
  tasks : E → Option (Finset T)

variable {T E : Type*} [DecidableEq T] [DecidableEq E]

namespace State

def bindTask (s : State T E) (e : E) (t : T) : Option (State T E) :=
  (s.tasks e).map fun ts => { s with tasks := update s.tasks e (some (insert t ts)) }

def unbindTask (s : State T E) (e : E) (t : T) : Option (State T E) :=
  (s.tasks e).map fun ts => { s with tasks := update s.tasks e (some (ts.erase t)) }

def clearTarget (s : State T E) (t : T) : Option (State T E) :=
  (s.target t).map fun _ => { s with target := update s.target t (some none) }

/-- `if (target != nullptr) target->UnbindTask(this)`. -/
def release (s : State T E) (t : T) : Option (State T E) :=
  (s.target t).bind fun target => target.elim (some s) (s.unbindTask · t)

def setTarget (s : State T E) (t : T) (enemy : Option E) : Option (State T E) := do
  let s ← s.release t
  let s ← enemy.elim (some s) (s.bindTask · t)
  some { s with target := update s.target t (some enemy) }

/-- `IFighterTask(...)`. -/
def newTask (s : State T E) (t : T) : State T E := { s with target := update s.target t (some none) }

/-- `~IFighterTask()`. -/
def deleteTask (s : State T E) (t : T) : Option (State T E) := do
  let s ← s.release t
  some { s with target := update s.target t none }

/-- `CEnemyInfo(data)`. -/
def newInfo (s : State T E) (e : E) : State T E := { s with tasks := update s.tasks e (some ∅) }

/-- `~CEnemyInfo()`; `order` is the order of the set. -/
def deleteInfo (s : State T E) (e : E) (order : List T) : Option (State T E) := do
  let s ← order.foldlM clearTarget s
  some { s with tasks := update s.tasks e none }

end State

end Circuit.Impl.FighterTarget
