import Mathlib.Algebra.Order.Ring.Rat
import Mathlib.Data.Finset.Card

/-!
# Workers

What `CCircuitAI` and `CBuilderManager` count when a worker is registered, finished and destroyed: the units of each
definition, how many worker definitions can build a definition, the definitions that are known to the economy manager,
and the workers of each area. The tasks themselves are not part of this: the handlers only ask whether a unit has one
and whether it is the nil task.
-/

namespace Circuit.Impl.Workers

open Function

/-- What is fixed for a game. -/
structure Game (U D : Type*) where
  circuitDef : U → D
  isWorkerDef : D → Bool
  buildOptions : D → Finset D
  buildDistance : D → ℚ

/-- `GetTask` of a worker, as far as its handlers look at it. -/
inductive WorkerTask
  | null
  | nil
  | assigned
  deriving DecidableEq

/-- `buildAreas`: the keys that it has, the area and then the definition, and their counts. Flying units have no area. -/
structure BuildAreas (D A : Type*) where
  keys : List (Option A × D)
  count : Option A → D → ℤ

structure State (U D A : Type*) where
  teamUnits : List U
  task : U → WorkerTask
  area : U → Option A
  count : D → ℤ
  /-- `GetBuildCount` of each definition. -/
  buildCounts : D → ℤ
  /-- What has been passed to `AddEnergyDefs` and not to `RemoveEnergyDefs` later. -/
  energyDefs : Finset D
  buildAreas : BuildAreas D A

variable {U D A P : Type*} [DecidableEq U] [DecidableEq D] [DecidableEq A]

def Game.canBuild (g : Game U D) (cdef buildDef : D) : Bool := buildDef ∈ g.buildOptions cdef

/-- Whether the handlers of a unit are those of a worker. -/
def Game.isWorker (g : Game U D) (u : U) : Bool := g.isWorkerDef (g.circuitDef u)

namespace BuildAreas

def empty : BuildAreas D A := ⟨[], fun _ _ => 0⟩

def add (b : BuildAreas D A) (a : Option A) (d : D) (n : ℤ) : BuildAreas D A where
  keys := b.keys.insert (a, d)
  count a' d' := if a' = a ∧ d' = d then b.count a d + n else b.count a' d'

end BuildAreas

/-- What `CanMobileReachAt` asks of the terrain. -/
structure Terrain (A P : Type*) where
  getSectorIndex : P → ℕ
  /-- The sectors of an area. -/
  sector : A → Finset ℕ
  getClosestSector : A → ℕ → ℕ
  /-- The distance of the middle of a sector. -/
  distance2D : ℕ → P → ℚ

def Terrain.canMobileReachAt (t : Terrain A P) (area : Option A) (destination : P) (range : ℚ) : Bool :=
  match area with
  | none => true
  | some area =>
    let iS := t.getSectorIndex destination
    if iS ∈ t.sector area then true else decide (t.distance2D (t.getClosestSector area iS) destination < range)

namespace State

def init : State U D A where
  teamUnits := []
  task _ := .null
  area _ := none
  count _ := 0
  buildCounts _ := 0
  energyDefs := ∅
  buildAreas := .empty

/-! ## `CCircuitAI` -/

/-- A new unit, with the area of its position. -/
def registerTeamUnit (g : Game U D) (s : State U D A) (u : U) (area : Option A) : State U D A where
  teamUnits := u :: s.teamUnits
  task := update s.task u .null
  area := update s.area u area
  count := update s.count (g.circuitDef u) (s.count (g.circuitDef u) + 1)
  buildCounts := s.buildCounts
  energyDefs := s.energyDefs
  buildAreas := s.buildAreas

def getOrRegTeamUnit (g : Game U D) (s : State U D A) (u : U) (area : Option A) : State U D A :=
  if u ∈ s.teamUnits then s else s.registerTeamUnit g u area

def unregisterTeamUnit (g : Game U D) (s : State U D A) (u : U) : State U D A :=
  { s with
    teamUnits := s.teamUnits.erase u
    count := update s.count (g.circuitDef u) (s.count (g.circuitDef u) - 1) }

/-! ## `CBuilderManager` -/

def addBuildList (g : Game U D) (s : State U D A) (u : U) : State U D A :=
  let cDef := g.circuitDef u
  if s.count cDef > 1 then s
  else
    { s with
      buildCounts := fun d => if d ∈ g.buildOptions cDef then s.buildCounts d + 1 else s.buildCounts d
      energyDefs := s.energyDefs ∪ {d ∈ g.buildOptions cDef | s.buildCounts d = 0} }

def removeBuildList (g : Game U D) (s : State U D A) (u : U) : State U D A :=
  let cDef := g.circuitDef u
  if s.count cDef > 1 then s
  else
    { s with
      buildCounts := fun d => if d ∈ g.buildOptions cDef then s.buildCounts d - 1 else s.buildCounts d
      energyDefs := s.energyDefs \ {d ∈ g.buildOptions cDef | s.buildCounts d - 1 = 0} }

def workerCreatedHandler (s : State U D A) (u : U) : State U D A :=
  if s.task u = .null then { s with task := update s.task u .nil } else s

def workerFinishedHandler (g : Game U D) (s : State U D A) (u : U) : State U D A :=
  addBuildList g
    { s with
      task := update s.task u .assigned
      buildAreas := s.buildAreas.add (s.area u) (g.circuitDef u) 1 } u

/-- Without a task the handler would follow a null pointer. -/
def workerDestroyedHandler (g : Game U D) (s : State U D A) (u : U) : Option (State U D A) :=
  match s.task u with
  | .null => none
  | .nil => some s
  | .assigned =>
    some (removeBuildList g { s with buildAreas := s.buildAreas.add (s.area u) (g.circuitDef u) (-1) } u)

/-- One round of the loop of `UpdateAreaUsers`. -/
def countUser (g : Game U D) (s : State U D A) (b : BuildAreas D A) (u : U) : BuildAreas D A :=
  if g.isWorker u then b.add (s.area u) (g.circuitDef u) 1 else b

/-- Both functions of this name: that of the terrain manager gives each unit its area among the new ones, that of the
builder manager counts anew. -/
def updateAreaUsers (g : Game U D) (s : State U D A) (area : U → Option A) : State U D A :=
  let s := { s with area := fun u => if u ∈ s.teamUnits then area u else s.area u }
  { s with buildAreas := s.teamUnits.foldl (countUser g s) .empty }

/-- `none` is the invalid position. -/
def isBuilderInArea (g : Game U D) (t : Terrain A P) (s : State U D A) (buildDef : D) (position : Option P) : Bool :=
  match position with
  | none => true
  | some position =>
    s.buildAreas.keys.any fun k =>
      decide (s.buildAreas.count k.1 k.2 > 0) && g.canBuild k.2 buildDef &&
        t.canMobileReachAt k.1 position (g.buildDistance k.2)

end State

/-! ## Events -/

inductive Event (U A : Type*)
  | unitCreated (u : U) (area : Option A)
  | unitFinished (u : U) (area : Option A) (isBeingBuilt : Bool)
  | unitDestroyed (u : U)
  | updateAreaUsers (area : U → Option A)

open State in
/-- An event of the engine, or an area update. The area is that of the position of a unit that is registered by the
event. -/
def Event.handle (g : Game U D) (s : State U D A) : Event U A → Option (State U D A)
  | .unitCreated u area =>
    let s := s.getOrRegTeamUnit g u area
    some (if g.isWorker u then s.workerCreatedHandler u else s)
  | .unitFinished u area isBeingBuilt =>
    let s := s.getOrRegTeamUnit g u area
    if isBeingBuilt then some s  -- created by gadget
    else some (if g.isWorker u then s.workerFinishedHandler g u else s)
  | .unitDestroyed u =>
    if u ∈ s.teamUnits then
      (if g.isWorker u then s.workerDestroyedHandler g u else some s).map (·.unregisterTeamUnit g u)
    else some s
  | .updateAreaUsers area => some (s.updateAreaUsers g area)

end Circuit.Impl.Workers
