import Mathlib.Algebra.Order.Group.Unbundled.Int
import Mathlib.Data.List.Basic

/-!
# Mex tasks

The metal spots as `CBMexTask` reserves them: each spot has a flag in the `CMetalManager`, which the AIs of a team
share, and one in the `CEconomyManager` of each AI. Modelled are `Execute` and `Cancel` of the task, the creation of
tasks by `UpdateMetalTasks`, and the handler of `CBuilderManager` for a mex that is destroyed. What the engine, the
terrain and the search for spots answer are parameters of the events. The orders that are given to the units are left
out, and so are the blockers of `SetBuildPos`.
-/

namespace Circuit.Impl.MexTask

open Function

/-- What is fixed for a game: `A` are the AIs, `P` the valid positions, `S` the spots and `C` the clusters. -/
structure Metals (A P S C : Type*) where
  position : S → P
  /-- `none` stands for a negative index. -/
  findNearestSpot : P → Option S
  clusterId : S → C
  mexMax : A → ℤ

structure CMetalManager (S C : Type*) where
  isOpen : S → Bool
  queuedCount : C → ℤ

structure CEconomyManager (S : Type*) where
  openSpots : S → Bool
  mexCount : ℤ

structure CBMexTask (A P : Type*) where
  ai : A
  /-- Whether `state` is `ENGAGE`. -/
  isEngaged : Bool
  hasTarget : Bool
  /-- `none` is the invalid position. -/
  buildPos : Option P

/-- The task at index `k` is the `k`-th that was created. -/
structure State (A P S C : Type*) where
  metalMgr : CMetalManager S C
  economyMgr : A → CEconomyManager S
  tasks : List (CBMexTask A P)

/-- The answers while a task is executed. -/
structure Outcome (S : Type*) where
  /-- `IsPossibleToBuildAt` for `buildPos`. -/
  isPossibleToBuildAt : Bool
  /-- The spots in the order of their distance. -/
  nearest : List S
  /-- Whether a spot can be reached, and a mex can be built there. -/
  isSite : S → Bool
  /-- Whether the task is that of the unit, so that `FallbackTask` stops it. -/
  isAssigned : Bool

variable {A P S C : Type*} [DecidableEq A] [DecidableEq S] [DecidableEq C]

/-! ## Flags -/

def CMetalManager.setOpenSpot (m : CMetalManager S C) (clusterId : S → C) (index : S) (value : Bool) :
    CMetalManager S C :=
  if m.isOpen index ≠ value then
    { isOpen := update m.isOpen index value
      queuedCount := update m.queuedCount (clusterId index)
        (m.queuedCount (clusterId index) + if value then -1 else 1) }
  else m

def CEconomyManager.isOpenSpot (e : CEconomyManager S) (mexMax : ℤ) (spotId : S) : Bool :=
  e.openSpots spotId && decide (e.mexCount < mexMax)

def CEconomyManager.setOpenSpot (e : CEconomyManager S) (spotId : S) (value : Bool) : CEconomyManager S :=
  if e.openSpots spotId = value then e
  else
    { openSpots := update e.openSpots spotId value
      mexCount := if value then e.mexCount - 1 else e.mexCount + 1 }

namespace State

variable (d : Metals A P S C) (s : State A P S C)

/-- All spots are open. -/
def init : State A P S C where
  metalMgr := ⟨fun _ => true, fun _ => 0⟩
  economyMgr _ := ⟨fun _ => true, 0⟩
  tasks := []

def isAllyOpenSpot (ai : A) (spotId : S) : Bool :=
  (s.economyMgr ai).isOpenSpot (d.mexMax ai) spotId && s.metalMgr.isOpen spotId

/-- `SetOpenSpot` of the shared manager. -/
def setShared (index : S) (value : Bool) : State A P S C :=
  { s with metalMgr := s.metalMgr.setOpenSpot d.clusterId index value }

/-- `SetOpenSpot` of the manager of one AI. -/
def setOwn (ai : A) (index : S) (value : Bool) : State A P S C :=
  { s with economyMgr := update s.economyMgr ai ((s.economyMgr ai).setOpenSpot index value) }

/-- The first spot that is open for an AI and suits. -/
def findSpot (ai : A) (nearest : List S) (isSite : S → Bool) : Option S :=
  nearest.find? fun index => s.isAllyOpenSpot d ai index && isSite index

/-- A new task for a position, whose spot the AI closes for itself. -/
def enqueue (ai : A) (pos : P) (index : S) : State A P S C :=
  let task := { ai, isEngaged := false, hasTarget := false, buildPos := some pos }
  { s.setOwn ai index false with tasks := s.tasks ++ [task] }

/-! ## Tasks -/

/-- `CBMexTask::Cancel`. A position without a spot would be an index out of range. -/
def cancel (k : ℕ) (task : CBMexTask A P) : Option (State A P S C) :=
  match task.hasTarget, task.buildPos with
  | false, some pos =>
    (d.findNearestSpot pos).map fun index =>
      { (s.setShared d index true).setOwn task.ai index true with
        tasks := s.tasks.set k { task with buildPos := none } }
  | _, _ => some s

/-- `Finish` leaves the spots alone. -/
def stop (k : ℕ) (task : CBMexTask A P) (done : Bool) : Option (State A P S C) :=
  if done then some s else s.cancel d k task

/-- The end of `Execute`: another spot, or `FallbackTask`. -/
def expand (k : ℕ) (task : CBMexTask A P) (o : Outcome S) : Option (State A P S C) :=
  match s.findSpot d task.ai o.nearest o.isSite with
  | some index =>
    some { s.setOwn task.ai index false with
      tasks := s.tasks.set k { task with buildPos := some (d.position index) } }
  | none => if o.isAssigned then s.stop d k task false else some s

def execute (k : ℕ) (task : CBMexTask A P) (o : Outcome S) : Option (State A P S C) :=
  if task.hasTarget then some s
  else
    match task.buildPos.bind d.findNearestSpot with
    | none => s.expand d k task o
    | some index =>
      if o.isPossibleToBuildAt then
        if task.isEngaged || s.metalMgr.isOpen index then
          -- the unit is ordered to build
          some { s.setShared d index false with tasks := s.tasks.set k { task with isEngaged := true } }
        else (s.setOwn task.ai index true).expand d k task o
      else ((s.setShared d index true).setOwn task.ai index true).expand d k task o

/-- `UpdateTarget` with the position of the unit, and `SetTarget` without one. -/
def setTarget (k : ℕ) (task : CBMexTask A P) (pos : Option P) : State A P S C :=
  { s with tasks := s.tasks.set k { task with hasTarget := pos.isSome, buildPos := pos } }

/-! ## Managers -/

/-- What `UpdateMetalTasks` does about mexes, with the answer of `GetMexToBuild`. -/
def updateMetalTasks (ai : A) (nearest : List S) (isSite : S → Bool) : State A P S C :=
  match s.findSpot d ai nearest isSite with
  | some index => s.enqueue ai (d.position index) index
  | none => s

def mexDestroyed (ai : A) (pos : P) : State A P S C :=
  match d.findNearestSpot pos with
  | none => s
  | some index => (s.setShared d index true).setOwn ai index true

/-- What the handler puts off for 20 seconds. -/
def checkMex (ai : A) (pos : P) (canBeBuilt : Bool) : State A P S C :=
  match d.findNearestSpot pos with
  | none => s
  | some index => if s.isAllyOpenSpot d ai index && canBeBuilt then s.enqueue ai pos index else s

end State

/-! ## Events -/

inductive Event (A P S : Type*)
  | updateMetalTasks (ai : A) (nearest : List S) (isSite : S → Bool)
  | execute (k : ℕ) (o : Outcome S)
  | stop (k : ℕ) (done : Bool)
  | setTarget (k : ℕ) (pos : Option P)
  | mexDestroyed (ai : A) (pos : P)
  | checkMex (ai : A) (pos : P) (canBeBuilt : Bool)

/-- A step of one of the AIs. -/
def Event.handle (d : Metals A P S C) (s : State A P S C) : Event A P S → Option (State A P S C)
  | .updateMetalTasks ai nearest isSite => some (s.updateMetalTasks d ai nearest isSite)
  | .execute k o => s.tasks[k]?.bind (s.execute d k · o)
  | .stop k done => s.tasks[k]?.bind (s.stop d k · done)
  | .setTarget k pos => s.tasks[k]?.map (s.setTarget k · pos)
  | .mexDestroyed ai pos => some (s.mexDestroyed d ai pos)
  | .checkMex ai pos canBeBuilt => some (s.checkMex d ai pos canBeBuilt)

end Circuit.Impl.MexTask
