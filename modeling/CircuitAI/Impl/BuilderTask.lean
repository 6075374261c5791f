import CircuitAI.Impl.TerrainManager
import Mathlib.Algebra.Order.Ring.Rat
import Mathlib.Data.Finset.Max

/-!
# Builder tasks

The part of `IBuilderTask` and `CBFactoryTask` that reserves a site on the blocking map: `Execute` with its search for a
site, `OnUnitIdle`, `SetTarget` and `Cancel`. The calls of `AddBlocker` and `DelBlocker` are kept in `calls`, the last
one first. What the engine, the terrain and the ally units answer during an `Execute` is an `Outcome`.
-/

namespace Circuit.Impl.BuilderTask

open TerrainManager (AIFloat3 noPos isValid)

/-- The arguments of `AddBlocker` and `DelBlocker`. -/
structure Blocker (δ : Type*) where
  cdef : δ
  pos : AIFloat3
  facing : ℤ
  deriving DecidableEq

inductive Call (δ : Type*)
  | addBlocker (b : Blocker δ)
  | delBlocker (b : Blocker δ)
  deriving DecidableEq

/-- What is read of the unit that is being built. -/
structure Target (δ : Type*) where
  cdef : δ
  pos : AIFloat3
  facing : ℤ

/-- Which `FindBuildSite` a task has. -/
inductive Kind
  | builder
  | factory
  deriving DecidableEq

structure IBuilderTask (δ : Type*) where
  kind : Kind
  buildDef : δ
  target : Option (Target δ)
  buildPos : AIFloat3
  facing : ℤ
  buildFails : ℕ
  calls : List (Call δ)

/-- The answers during an `Execute`. -/
structure Outcome where
  terWidth : ℚ
  terHeight : ℚ
  /-- The position from which is searched, shaken and corrected. -/
  pos : AIFloat3
  sameAlly : Bool
  /-- `IsPossibleToBuildAt` for the definition of the task. -/
  isPossibleToBuildAt : AIFloat3 → ℤ → Bool
  /-- `CTerrainManager::FindBuildSite` with each facing. -/
  findBuildSite : ℤ → AIFloat3

/-! ## Facings -/

/-- `UNIT_COMMAND_BUILD_NO_FACING`. -/
def noFacing : ℤ := -1

def south : ℤ := 0

def east : ℤ := 1

def north : ℤ := 2

def west : ℤ := 3

/-- The table `opposite`. -/
def opposite (facing : ℤ) : ℤ :=
  if facing = 0 then north else if facing = 1 then west else if facing = 2 then south else east

/-- The facing towards the middle of the map. -/
def Outcome.facing (o : Outcome) : ℤ :=
  if |o.terHeight - 2 * o.pos.z| < |o.terWidth - 2 * o.pos.x| then
    if o.terWidth < 2 * o.pos.x then west else east
  else if o.terHeight < 2 * o.pos.z then north else south

def defaultSlack : ℚ := 64

/-- The place in front of a factory. -/
def posOffset (bp : AIFloat3) (facing : ℤ) : AIFloat3 :=
  if facing = east then { bp with x := bp.x + defaultSlack }
  else if facing = north then { bp with z := bp.z - defaultSlack }
  else if facing = west then { bp with x := bp.x - defaultSlack }
  else { bp with z := bp.z + defaultSlack }

namespace IBuilderTask

variable {δ : Type*}

/-- The constructor. -/
def new (kind : Kind) (buildDef : δ) : IBuilderTask δ := ⟨kind, buildDef, none, noPos, noFacing, 0, []⟩

def blocker (t : IBuilderTask δ) : Blocker δ := ⟨t.buildDef, t.buildPos, t.facing⟩

def addBlocker (t : IBuilderTask δ) : IBuilderTask δ := { t with calls := .addBlocker t.blocker :: t.calls }

def delBlocker (t : IBuilderTask δ) : IBuilderTask δ := { t with calls := .delBlocker t.blocker :: t.calls }

def unblock (t : IBuilderTask δ) : IBuilderTask δ := if isValid t.buildPos then t.delBlocker else t

def block (t : IBuilderTask δ) : IBuilderTask δ := if isValid t.buildPos then t.addBlocker else t

def setBuildPos (t : IBuilderTask δ) (pos : AIFloat3) : IBuilderTask δ := { t.unblock with buildPos := pos }.block

def setTarget (t : IBuilderTask δ) (unit : Option (Target δ)) : IBuilderTask δ :=
  let t := { t.unblock with target := unit }
  match unit with
  | some u => { t with buildDef := u.cdef, buildPos := u.pos, facing := u.facing }.block
  | none => { t with buildPos := noPos }.block

def cancel (t : IBuilderTask δ) : IBuilderTask δ := if t.target.isNone && isValid t.buildPos then t.setBuildPos noPos else t

/-- `Stop`, also by `AbortTask` and `FallbackTask`; `Finish` issues no blocker of this task. -/
def stop (t : IBuilderTask δ) (done : Bool) : IBuilderTask δ := if done then t else t.cancel

/-- `checkFacing` of a factory task; nothing when it fails. -/
def checkFacing (o : Outcome) (t : IBuilderTask δ) : Option (IBuilderTask δ) :=
  let bp := o.findBuildSite t.facing
  if !isValid bp then none
  else if o.isPossibleToBuildAt (posOffset bp t.facing) t.facing then some (t.setBuildPos bp)
  else none

/-- The facings that a factory task tries, one after the other. -/
def tryFacings (o : Outcome) (t : IBuilderTask δ) : List (ℤ → ℤ) → IBuilderTask δ
  | [] => t
  | turn :: turns =>
    let t := { t with facing := turn t.facing }
    (t.checkFacing o).getD (t.tryFacings o turns)

def findBuildSite (o : Outcome) (t : IBuilderTask δ) : IBuilderTask δ :=
  match t.kind with
  | .builder =>
    let t := { t with facing := o.facing }
    t.setBuildPos (o.findBuildSite t.facing)
  | .factory => t.tryFacings o [fun _ => o.facing, opposite, fun facing => (facing + 1).tmod 4, opposite]

def execute (t : IBuilderTask δ) (o : Outcome) : IBuilderTask δ :=
  if t.target.isSome then t
  else if isValid t.buildPos && o.isPossibleToBuildAt t.buildPos t.facing then t
  else if o.sameAlly then t
  else
    let t := t.findBuildSite o
    if isValid t.buildPos then t else t.stop false

def taskRetries : ℕ := 10

def onUnitIdle (t : IBuilderTask δ) (o : Outcome) : IBuilderTask δ :=
  let t := { t with buildFails := t.buildFails + 1 }
  if t.buildFails ≤ 2 then t.execute o
  else if t.buildFails ≤ taskRetries then t
  else if t.target.isNone then (t.stop false).addBlocker
  else t

end IBuilderTask

/-! ## The assignees -/

/-- The fields in which a task keeps its assignees. An iterator of the ordered set `units` is the unit it points to, or
`⊤` for the end. -/
structure Assignees (α : Type*) where
  units : Finset α
  unitIt : WithTop α
  traveled : Finset α
  lastTouched : ℤ

namespace Assignees

variable {α : Type*} [LinearOrder α]

def new (lastFrame : ℤ) : Assignees α where
  units := ∅
  unitIt := ⊤
  traveled := ∅
  lastTouched := lastFrame

def find (units : Finset α) (unit : α) : WithTop α :=
  if unit ∈ units then unit else ⊤

/-- `++it`. -/
def advance (units : Finset α) (it : WithTop α) : WithTop α :=
  (units.filter fun unit : α => it < unit).min

/-- `*it`, which is no unit at the end. -/
def deref : WithTop α → Option α :=
  WithTop.recTopCoe none some

def assignTo (t : Assignees α) (unit : α) : Assignees α :=
  { t with lastTouched := -1, units := insert unit t.units }

def removeAssignee (t : Assignees α) (unit : α) (lastFrame : ℤ) : Assignees α where
  unitIt := if find t.units unit = t.unitIt ∧ t.unitIt ≠ ⊤ then advance t.units t.unitIt else t.unitIt
  units := t.units.erase unit
  traveled := t.traveled.erase unit
  lastTouched := if t.units.erase unit = ∅ then lastFrame else t.lastTouched

def getNextAssignee (t : Assignees α) : Option α × Assignees α :=
  if t.units = ∅ then (none, t) else
    let unitIt := if t.unitIt = ⊤ then t.units.min else t.unitIt
    (deref unitIt, { t with unitIt := advance t.units unitIt })

end Assignees

end Circuit.Impl.BuilderTask
