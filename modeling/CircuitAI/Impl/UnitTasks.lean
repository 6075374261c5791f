import CircuitAI.Framework.Procedure
import Mathlib.Algebra.Order.Ring.Rat
import Mathlib.Data.Finset.Card

/-!
# Units and their tasks

The tasks of `CBuilderManager`, and those of `CMilitaryManager` as far as their units retreat: the methods of the classes
below `IUnitTask` for the tasks that workers can have, the events and updates of the builder manager, the power it counts
for its workers, the metal pull of its tasks, and the choice of a repairer by `CRetreatTask`.

The methods call each other through the task of a unit, so they are procedures with the three entry points of `Proc`.
What the engine, the map and the planning answer comes from outside, and so does the order in which a set of units is
walked through. Left out are orders, path queries, blockers and spots, the queue of `nextTask` (a task that is activated
is a request), the tasks of the player, and how the military manager forms its squads.
-/

namespace Circuit.Impl.UnitTasks

open Framework Function

inductive Manager
  | builder | military
  deriving DecidableEq

/-- `IBuilderTask::BuildType`; those up to `terraform` are below `_SIZE_`. -/
inductive BuildType
  | factory | nano | store | pylon | energy | defence | bunker | bigGun | radar | sonar | mex
  | repair | reclaim | terraform | patrol | guard
  deriving DecidableEq

/-- The classes of tasks. A `fighter` is a `CCombatTask` of the builder manager or any `IFighterTask` of the military
manager. -/
inductive Kind
  | nil | idle | wait | retreat | fighter
  | builder (buildType : BuildType)
  deriving DecidableEq

/-- What a task is made with. -/
structure IUnitTask where
  manager : Manager
  kind : Kind
  hasBuildDef : Bool := false
  /-- `IsIgnorePull` of the economy manager. -/
  isIgnorePull : Bool := false
  isPlop : Bool := false

/-- Whether assignees count for the metal pull. -/
def IUnitTask.isPull (k : IUnitTask) : Bool := k.hasBuildDef && !k.isIgnorePull

structure SRoleInfo (U : Type) where
  cost : ℚ := 0
  units : Finset U := ∅

/-- A cost query that a retreat task waits for, with the unit to validate when it is ready. -/
structure Callback (U : Type) where
  task : ℕ
  query : ℕ
  newRep : U

structure Game (U ρ : Type) where
  /-- The manager that has handlers for the unit: workers are mobile units that can build. -/
  manager : U → Option Manager
  buildSpeed : U → ℚ
  costM : U → ℚ
  isRespRole : U → ρ → Bool
  slowUpdateRate : ℕ

/-- Tasks are numbered as they are made; what changes of a task is a function of its number. -/
structure State (U ρ : Type) where
  tasks : ℕ → IUnitTask
  nextTask : ℕ
  units : ℕ → Finset U
  isDead : ℕ → Bool
  target : ℕ → Option U
  buildPower : ℕ → ℚ
  traveled : ℕ → Finset U
  buildFails : ℕ → ℕ
  /-- Whether the state of a terraform task is `ENGAGE`. -/
  isEngaged : ℕ → Bool
  isListed : ℕ → Bool
  repairer : ℕ → Option U
  costQuery : ℕ → Option ℕ
  task : U → Option ℕ
  teamUnits : Finset U
  workers : Finset U
  updateUnits : Finset U
  updateSlice : ℕ
  buildUpdates : List ℕ
  buildIterator : ℕ
  unfinishedUnits : U → Option ℕ
  repairedUnits : U → Option ℕ
  reclaimedUnits : U → Option ℕ
  metalPull : ℚ
  /-- `buildPower` of the builder manager. -/
  workerPower : ℚ
  roleInfos : ρ → SRoleInfo U
  /-- The units of the cost queries that retreat tasks have made. -/
  queries : List U
  callbacks : List (Callback U)
  /-- History: an `Execute` of a stopped task has called `FallbackTask`. -/
  isLateFallback : Bool
  /-- History: an `Execute` of a stopped task that counts for the metal pull has called `AbortTask`. -/
  isLateAbort : Bool

def nilTask : Manager → ℕ
  | .builder => 0
  | .military => 2

def idleTask : Manager → ℕ
  | .builder => 1
  | .military => 3

def initTasks : ℕ → IUnitTask
  | 0 => { manager := .builder, kind := .nil }
  | 1 => { manager := .builder, kind := .idle }
  | 2 => { manager := .military, kind := .nil }
  | 3 => { manager := .military, kind := .idle }
  | _ => { manager := .builder, kind := .wait }

def State.init {U ρ : Type} : State U ρ where
  tasks := initTasks
  nextTask := 4
  units _ := ∅
  isDead _ := false
  target _ := none
  buildPower _ := 0
  traveled _ := ∅
  buildFails _ := 0
  isEngaged _ := false
  isListed _ := false
  repairer _ := none
  costQuery _ := none
  task _ := none
  teamUnits := ∅
  workers := ∅
  updateUnits := ∅
  updateSlice := 0
  buildUpdates := []
  buildIterator := 0
  unfinishedUnits _ := none
  repairedUnits _ := none
  reclaimedUnits _ := none
  metalPull := 0
  workerPower := 0
  roleInfos _ := {}
  queries := []
  callbacks := []
  isLateFallback := false
  isLateAbort := false

/-- What other code asks the builder manager to enqueue. -/
inductive Request (U : Type)
  /-- `EnqueueTask`, `EnqueueFactory`, `EnqueuePylon` and `ActivateTask`. -/
  | construct (buildType : BuildType)
  | repair (target : U)
  | reclaim
  | reclaimUnit (target : U)
  | terraform
  | patrol | guard | wait | combat

/-- What `MakeTask` returns. -/
inductive Choice (U : Type)
  | nothing
  | listed (t : ℕ)
  | request (r : Request U)

inductive Answer (U : Type)
  | flag (b : Bool)
  | unit (u : U)
  | order (l : List U)
  | removeTasks (l : List ℕ)
  | requests (l : List (Request U))
  | choice (c : Choice U)

/-- The methods that are called through a pointer to a task, and `DequeueTask`. -/
inductive Proc (U : Type)
  | removeAssignee (t : ℕ) (u : U)
  | dequeueTask (t : ℕ) (done : Bool)
  | start (t : ℕ) (u : U)

abbrev M (U ρ α : Type) := Procedure (Answer U) (State U ρ) α

variable {U ρ : Type} [DecidableEq U]

/-! ## Assignees -/

namespace State

variable (g : Game U ρ) (s : State U ρ)

abbrev kind (t : ℕ) : Kind := (s.tasks t).kind

abbrev manager (t : ℕ) : Manager := (s.tasks t).manager

/-- `CIdleTask::AssignTo`. -/
def idleAssignTo (m : Manager) (u : U) : State U ρ :=
  { s with
    task := update s.task u (some (idleTask m))
    units := update s.units (idleTask m) (insert u (s.units (idleTask m))) }

/-- `CIdleTask::RemoveAssignee`. -/
def idleRemoveAssignee (m : Manager) (u : U) : State U ρ :=
  { s with
    units := update s.units (idleTask m) ((s.units (idleTask m)).erase u)
    updateUnits := if m = .builder ∧ u ∈ s.units (idleTask m) then s.updateUnits.erase u else s.updateUnits }

/-- `CIdleTask::Stop`. -/
def idleStop (m : Manager) : State U ρ :=
  { s with
    units := update s.units (idleTask m) ∅
    updateUnits := if m = .builder then ∅ else s.updateUnits }

def setTask (u : U) (t : ℕ) : State U ρ :=
  { s with task := update s.task u (some t) }

def insertUnit (t : ℕ) (u : U) : State U ρ :=
  { s with units := update s.units t (insert u (s.units t)) }

def eraseUnit (t : ℕ) (u : U) : State U ρ :=
  { s with units := update s.units t ((s.units t).erase u) }

/-- `IUnitTask::AssignTo`. -/
def unitAssignTo (t : ℕ) (u : U) : State U ρ :=
  ((s.idleRemoveAssignee (s.manager t) u).setTask u t).insertUnit t u

/-- `IUnitTask::RemoveAssignee`. -/
def unitRemoveAssignee (t : ℕ) (u : U) : State U ρ :=
  (s.eraseUnit t u).idleAssignTo (s.manager t) u

/-- The end of `IUnitTask::Stop`: the idle task gets the units. -/
def releaseUnits (t : ℕ) : State U ρ :=
  let idle := idleTask (s.manager t)
  { s with
    task := fun u => if u ∈ s.units t then some idle else s.task u
    units := update (update s.units idle (s.units idle ∪ s.units t)) t ∅ }

/-! ## Power and pull -/

def addMetalPull (t : ℕ) (speed : ℚ) : State U ρ :=
  { s with metalPull := if (s.tasks t).isPull then s.metalPull + speed else s.metalPull }

def delMetalPull (t : ℕ) (speed : ℚ) : State U ρ :=
  { s with metalPull := if (s.tasks t).isPull then s.metalPull - speed else s.metalPull }

def showAssignee (t : ℕ) (u : U) : State U ρ :=
  { s.addMetalPull t (g.buildSpeed u) with
    buildPower := update s.buildPower t (s.buildPower t + g.buildSpeed u) }

def hideAssignee (t : ℕ) (u : U) : State U ρ :=
  { s.delMetalPull t (g.buildSpeed u) with
    buildPower := update s.buildPower t (s.buildPower t - g.buildSpeed u) }

def addResponse (u : U) : State U ρ :=
  { s with
    roleInfos := fun r =>
      if g.isRespRole u r then
        { cost := (s.roleInfos r).cost + g.costM u, units := insert u (s.roleInfos r).units }
      else s.roleInfos r }

def delResponse (u : U) : State U ρ :=
  { s with
    roleInfos := fun r =>
      if g.isRespRole u r then
        { cost := max ((s.roleInfos r).cost - g.costM u) 0, units := (s.roleInfos r).units.erase u }
      else s.roleInfos r }

def addBuildPower (u : U) : State U ρ :=
  { s.addResponse g u with workerPower := s.workerPower + g.buildSpeed u }

def delBuildPower (u : U) : State U ρ :=
  { s.delResponse g u with workerPower := s.workerPower - g.buildSpeed u }

/-- `IBuilderTask::AssignTo`. -/
def builderAssignTo (t : ℕ) (u : U) : State U ρ :=
  (s.unitAssignTo t u).showAssignee g t u

def eraseTraveled (t : ℕ) (u : U) : State U ρ :=
  { s with traveled := update s.traveled t ((s.traveled t).erase u) }

/-- `IBuilderTask::RemoveAssignee`. -/
def builderRemoveAssignee (t : ℕ) (u : U) : State U ρ :=
  ((s.unitRemoveAssignee t u).eraseTraveled t u).hideAssignee g t u

/-! ## Retreat tasks -/

def setRepairer (t : ℕ) (r : Option U) : State U ρ :=
  { s with repairer := update s.repairer t r }

/-- The new cost query of `CheckRepairer`. -/
def pushQuery (t : ℕ) (unit newRep : U) : State U ρ :=
  { s with
    costQuery := update s.costQuery t (some s.queries.length)
    queries := s.queries ++ [unit]
    callbacks := s.callbacks ++ [⟨t, s.queries.length, newRep⟩] }

def retreatOf (u : U) : Option ℕ :=
  (s.task u).filter fun t => s.kind t = .retreat

/-- `IRepairTask::Cancel`: the unit that is repaired loses its repairer. -/
def clearRepairer (t : ℕ) : State U ρ :=
  match (s.target t).bind s.retreatOf with
  | none => s
  | some r => if (s.repairer r).any (· ∈ s.units t) then s.setRepairer r none else s

def validateNewRepairer (c : Callback U) : Bool :=
  !s.isDead c.task && s.costQuery c.task = some c.query && c.newRep ∈ s.teamUnits &&
    (s.task c.newRep).any fun t =>
      s.kind t = .builder .repair && (s.target t).isSome && s.target t = s.queries[c.query]?

/-! ## The lists of tasks -/

/-- A new task, which is updated if it is one of the builder manager's. -/
def push (k : IUnitTask) (target : Option U) (isListed : Bool) : State U ρ :=
  let t := s.nextTask
  { s with
    tasks := update s.tasks t k
    nextTask := t + 1
    units := update s.units t ∅
    isDead := update s.isDead t false
    target := update s.target t target
    buildPower := update s.buildPower t 0
    traveled := update s.traveled t ∅
    buildFails := update s.buildFails t 0
    isEngaged := update s.isEngaged t false
    isListed := update s.isListed t isListed
    repairer := update s.repairer t none
    costQuery := update s.costQuery t none
    buildUpdates := if k.manager = .builder then s.buildUpdates ++ [t] else s.buildUpdates }

def eraseKey (f : U → Option ℕ) : Option U → U → Option ℕ
  | none => f
  | some u => update f u none

/-- The first part of `DequeueTask`. -/
def unlist (t : ℕ) : State U ρ :=
  { s with
    isListed := update s.isListed t false
    repairedUnits :=
      if s.isListed t ∧ s.kind t = .builder .repair then eraseKey s.repairedUnits (s.target t) else s.repairedUnits
    reclaimedUnits :=
      if s.isListed t ∧ s.kind t = .builder .reclaim then eraseKey s.reclaimedUnits (s.target t)
      else s.reclaimedUnits
    unfinishedUnits :=
      if s.isListed t ∧ s.kind t ≠ .builder .repair ∧ s.kind t ≠ .builder .reclaim then
        eraseKey s.unfinishedUnits (s.target t)
      else s.unfinishedUnits }

def dead (t : ℕ) : State U ρ :=
  { s with isDead := update s.isDead t true }

end State

/-! ## Answers from outside -/

def askFlag : M U ρ Bool :=
  .ask fun | .flag b => some b | _ => none

def askUnit (units : Finset U) : M U ρ U :=
  .ask fun | .unit u => if u ∈ units then some u else none | _ => none

/-- The order in which a set of units is walked through. -/
def askOrder (units : Finset U) : M U ρ (List U) :=
  .ask fun | .order l => if l.Nodup ∧ l.toFinset = units then some l else none | _ => none

def askRemoveTasks : M U ρ (List ℕ) :=
  .ask fun | .removeTasks l => if l.Nodup then some l else none | _ => none

def askRequests : M U ρ (List (Request U)) :=
  .ask fun | .requests l => some l | _ => none

def askChoice : M U ρ (Choice U) :=
  .ask fun | .choice c => some c | _ => none

/-! ## Enqueueing -/

def newTask (k : IUnitTask) (target : Option U) (isListed : Bool) : M U ρ ℕ := do
  let s ← get
  modify (·.push k target isListed)
  pure s.nextTask

/-- The build types of `AddTask`, `EnqueueFactory` and `EnqueuePylon`. -/
def BuildType.isConstruct : BuildType → Bool
  | .repair | .reclaim | .terraform | .patrol | .guard => false
  | _ => true

def enqueueTask (buildType : BuildType) : M U ρ ℕ := do
  let isIgnorePull ← askFlag
  let isPlop ← askFlag
  newTask
    { manager := .builder, kind := .builder buildType, hasBuildDef := true, isIgnorePull := isIgnorePull,
      isPlop := isPlop && buildType = .factory } none true

def enqueueRepair (target : U) : M U ρ ℕ := do
  let s ← get
  match s.repairedUnits target with
  | some t => pure t
  | none => do
    let isBeingBuilt ← askFlag
    let isIgnorePull ← askFlag
    let t ← newTask
      { manager := .builder, kind := .builder .repair, hasBuildDef := isBeingBuilt, isIgnorePull := isIgnorePull }
      (some target) true
    modify fun s => { s with repairedUnits := update s.repairedUnits target (some t) }
    pure t

def enqueueReclaim (target : Option U) : M U ρ ℕ := do
  let s ← get
  match target.bind s.reclaimedUnits with
  | some t => pure t
  | none => do
    let t ← newTask { manager := .builder, kind := .builder .reclaim } target true
    modify fun s =>
      { s with reclaimedUnits := target.elim s.reclaimedUnits fun u => update s.reclaimedUnits u (some t) }
    pure t

def enqueueTerraform : M U ρ ℕ := do
  let hasTarget ← askFlag
  let isIgnorePull ← askFlag
  newTask
    { manager := .builder, kind := .builder .terraform, hasBuildDef := hasTarget, isIgnorePull := isIgnorePull }
    none true

def enqueuePatrol : M U ρ ℕ := newTask { manager := .builder, kind := .builder .patrol } none false

def enqueueGuard : M U ρ ℕ := newTask { manager := .builder, kind := .builder .guard } none false

def enqueueWait : M U ρ ℕ := newTask { manager := .builder, kind := .wait } none false

def enqueueCombat : M U ρ ℕ := newTask { manager := .builder, kind := .fighter } none false

def enqueueRetreat (m : Manager) : M U ρ ℕ := newTask { manager := m, kind := .retreat } none false

def enqueue : Request U → M U ρ ℕ
  | .construct buildType => if buildType.isConstruct then enqueueTask buildType else failure
  | .repair target => do
    let s ← get
    if target ∈ s.teamUnits then enqueueRepair target else failure
  | .reclaim => enqueueReclaim none
  | .reclaimUnit target => do
    let s ← get
    if target ∈ s.teamUnits then enqueueReclaim (some target) else failure
  | .terraform => enqueueTerraform
  | .patrol => enqueuePatrol
  | .guard => enqueueGuard
  | .wait => enqueueWait
  | .combat => enqueueCombat

/-- Other modules enqueue what they plan. -/
def enqueueAll : M U ρ Unit := do
  let requests ← askRequests
  .forEach (fun r => do let _ ← enqueue r; pure ()) requests

/-- `MakeTask` returns a task of `buildTasks` or a new one. -/
def makeTask : M U ρ (Option ℕ) := do
  enqueueAll
  let choice ← askChoice
  match choice with
  | .nothing => pure none
  | .listed t => do
    let s ← get
    if s.isListed t then pure (some t) else failure
  | .request r => do
    let t ← enqueue r
    pure (some t)

/-! ## Methods of the tasks -/

section Methods

variable (g : Game U ρ) (call : Proc U → M U ρ Unit)

def abortTask (t : ℕ) : M U ρ Unit := call (.dequeueTask t false)

def doneTask (t : ℕ) : M U ρ Unit := call (.dequeueTask t true)

def abortIfEmpty (t : ℕ) : M U ρ Unit := do
  let s ← get
  .when (s.units t = ∅) (abortTask call t)

/-- `CRetreatTask::CheckRepairer`. -/
def checkRepairer (t : ℕ) (newRep : U) : M U ρ Unit := do
  let s ← get
  let isReady ← askFlag
  let order ← askOrder (s.units t)
  match order with
  | [] => failure
  | unit :: _ => .when ((s.costQuery t).isNone || isReady) (modify (·.pushQuery t unit newRep))

def assignTo (t : ℕ) (u : U) : M U ρ Unit := do
  let s ← get
  match s.kind t with
  | .nil => modify (·.setTask u t)
  | .idle => modify (·.idleAssignTo (s.manager t) u)
  | .wait | .fighter => modify (·.unitAssignTo t u)
  | .retreat => do
    modify (·.unitAssignTo t u)
    let isMobileRepair ← askFlag
    .when isMobileRepair (do let _ ← enqueueRepair u; pure ())
  | .builder .guard => modify fun s => (s.builderAssignTo g t u).delBuildPower g u
  | .builder _ => modify (·.builderAssignTo g t u)

def assignTask (u : U) (t : ℕ) : M U ρ Unit := do
  let s ← get
  match s.task u with
  | none => failure
  | some t₀ => do
    call (.removeAssignee t₀ u)
    assignTo g t u
    call (.start t u)

def fallbackTask (u : U) : M U ρ Unit := do
  let s ← get
  match s.task u with
  | none => failure
  | some t₀ => do
    abortTask call t₀
    let t ← enqueuePatrol
    assignTo g t u
    call (.start t u)

/-- `IRepairTask::RemoveAssignee` informs the task of the unit that is repaired. -/
def informTarget (t : ℕ) (u : U) : M U ρ Unit := do
  let s ← get
  match (s.target t).bind s.retreatOf with
  | none => pure ()
  | some r =>
    .when (s.repairer r = some u) do
      modify (·.setRepairer r none)
      let order ← askOrder (s.units t)
      match order with
      | [] => pure ()
      | newRep :: _ => checkRepairer r newRep

def removeAssignee (t : ℕ) (u : U) : M U ρ Unit := do
  let s ← get
  match s.kind t with
  | .nil => pure ()
  | .idle => modify (·.idleRemoveAssignee (s.manager t) u)
  | .wait | .fighter => do
    modify (·.unitRemoveAssignee t u)
    abortIfEmpty call t
  | .retreat => do
    modify (·.unitRemoveAssignee t u)
    let s ← get
    .when (s.units t = ∅) (doneTask call t)
  | .builder .repair => do
    modify (·.builderRemoveAssignee g t u)
    informTarget t u
  | .builder .guard => do
    modify (·.builderRemoveAssignee g t u)
    abortIfEmpty call t
    modify (·.addBuildPower g u)
  | .builder .reclaim | .builder .terraform => do
    modify (·.builderRemoveAssignee g t u)
    abortIfEmpty call t
  | .builder .patrol => do
    modify (·.builderRemoveAssignee g t u)
    abortTask call t
  | .builder _ => modify (·.builderRemoveAssignee g t u)

/-- The defence that a build chain makes can replace a planned one. -/
def executeChain : M U ρ Unit := do
  enqueueAll
  let choice ← askChoice
  match choice with
  | .listed d => do
    let s ← get
    if s.isListed d ∧ s.kind d = .builder .defence ∧ s.target d = none then abortTask call d
    else failure
  | _ => pure ()

/-- `IBuilderTask::Finish`. -/
def builderFinish (t : ℕ) : M U ρ Unit := do
  let s ← get
  .when (s.tasks t).hasBuildDef do
    executeChain call
    let isBuildDelay ← askFlag
    .when isBuildDelay do
      let wait ← enqueueWait
      let s ← get
      let order ← askOrder (s.units t)
      .forEach (fun u => assignTask g call u wait) order
  enqueueAll

def cancel (t : ℕ) : M U ρ Unit := do
  let s ← get
  match s.kind t with
  | .retreat =>
    match s.repairer t with
    | none => pure ()
    | some r =>
      match s.task r with
      | none => failure
      | some t' => abortTask call t'
  | .builder .repair => modify (·.clearRepairer t)
  | _ => pure ()

def finish (t : ℕ) : M U ρ Unit := do
  let s ← get
  match s.kind t with
  | .retreat | .builder .repair => cancel call t
  | .builder .reclaim | .builder .patrol => pure ()
  | .builder _ => builderFinish g call t
  | _ => pure ()

/-- `IUnitTask::Stop`. -/
def unitStop (t : ℕ) (done : Bool) : M U ρ Unit := do
  (if done then finish g call t else cancel call t : M U ρ Unit)
  modify (·.releaseUnits t)

/-- `IBuilderTask::Stop`. -/
def builderStop (t : ℕ) (done : Bool) : M U ρ Unit := do
  unitStop g call t done
  modify fun s => s.delMetalPull t (s.buildPower t)

def stop (t : ℕ) (done : Bool) : M U ρ Unit := do
  let s ← get
  match s.kind t with
  | .nil => pure ()
  | .idle => modify (·.idleStop (s.manager t))
  | .builder .guard => do
    let order ← askOrder (s.units t)
    .forEach (fun u => modify (·.addBuildPower g u)) order
    builderStop g call t done
  | .builder _ => builderStop g call t done
  | _ => unitStop g call t done

def dequeueTask (t : ℕ) (done : Bool) : M U ρ Unit := do
  modify fun s => (s.unlist t).dead t
  stop g call t done

/-- `IBuilderTask::Execute`, where `buildDef` must not be null without a target. -/
def builderExecute (t : ℕ) (u : U) : M U ρ Unit := do
  let s ← get
  match s.target t with
  | some _ => pure ()
  | none =>
    if (s.tasks t).hasBuildDef then do
      let isSite ← askFlag
      .when (!isSite) do
        modify fun s => { s with isLateFallback := s.isLateFallback || s.isDead t }
        fallbackTask g call u
    else failure

def execute (t : ℕ) (u : U) : M U ρ Unit := do
  let s ← get
  match s.kind t with
  | .builder .repair => do
    let isDamaged ← askFlag
    if isDamaged then
      match (s.target t).bind s.retreatOf with
      | none => pure ()
      | some r => checkRepairer r u
    else do
      modify fun s => { s with isLateAbort := s.isLateAbort || (s.isDead t && (s.tasks t).isPull) }
      abortTask call t
  | .builder .guard => do
    let isVip ← askFlag
    .when (!isVip) (abortTask call t)
  | .builder .reclaim | .builder .patrol => pure ()
  | .builder _ => builderExecute g call t u
  | .fighter => do
    let isTarget ← askFlag
    .when (!isTarget) (call (.removeAssignee t u))
  | _ => pure ()

/-- `IBuilderTask::Reevaluate`. -/
def builderReevaluate (t : ℕ) (u : U) : M U ρ Bool := do
  let s ← get
  let isPoor ← askFlag
  if s.target t = none ∧ isPoor then do
    abortTask call t
    pure false
  else do
    let isNear ← askFlag
    if isNear then pure true else do
      modify (·.hideAssignee g t u)
      let task ← makeTask
      modify (·.showAssignee g t u)
      let s' ← get
      match task with
      | none => pure true
      | some t' =>
        if s'.kind t' = s.kind t then pure true else do
          assignTask g call u t'
          pure false

def reevaluate (t : ℕ) (u : U) : M U ρ Bool := do
  let s ← get
  match s.kind t with
  | .builder .repair => do
    let isPoor ← askFlag
    let isDamaged ← askFlag
    if isPoor || !isDamaged then do
      abortTask call t
      pure false
    else pure true
  | .builder .reclaim => do
    let isMetalFull ← askFlag
    if isMetalFull then do
      abortTask call t
      pure false
    else askFlag
  | _ => builderReevaluate g call t u

/-- `IBuilderTask::Update` for one unit. -/
def updateUnit (t : ℕ) (u : U) : M U ρ Unit := do
  let isSame ← reevaluate g call t u
  .when isSame do
    let isUnreachable ← askFlag
    .when isUnreachable (abortTask call t)

def terraformStart (t : ℕ) : M U ρ Unit := do
  let s ← get
  .when (!s.isEngaged t) do
    modify fun s => { s with isEngaged := update s.isEngaged t true }
    let isSite ← askFlag
    .when (!isSite) (call (.dequeueTask t (!(s.tasks t).hasBuildDef)))

def start (t : ℕ) (u : U) : M U ρ Unit := do
  let s ← get
  match s.kind t with
  | .builder .patrol => execute g call t u
  | .builder .terraform => terraformStart call t
  | .builder .factory => if (s.tasks t).isPlop then execute g call t u else updateUnit g call t u
  | .builder _ => updateUnit g call t u
  | .fighter => execute g call t u
  | _ => pure ()

/-- `IBuilderTask::Update`. -/
def builderUpdate (t : ℕ) : M U ρ Unit := do
  let s ← get
  let order ← askOrder (s.traveled t)
  .forEach (fun u => execute g call t u) order
  modify fun s => { s with traveled := update s.traveled t ∅ }
  let s ← get
  .when (s.units t ≠ ∅) do
    let u ← askUnit (s.units t)
    updateUnit g call t u

/-- `ISensorTask::Update`. -/
def sensorUpdate (t : ℕ) : M U ρ Unit := do
  builderUpdate g call t
  let s ← get
  .when (!s.isDead t && s.target t = none) do
    let isBuilt ← askFlag
    .when isBuilt (abortTask call t)

def update (t : ℕ) : M U ρ Unit := do
  let s ← get
  match s.kind t with
  | .builder .patrol | .builder .terraform => pure ()
  | .builder .factory => .when (!(s.tasks t).isPlop) (builderUpdate g call t)
  | .builder .radar | .builder .sonar => sensorUpdate g call t
  | .builder _ => builderUpdate g call t
  | .fighter => do
    let isExecute ← askFlag
    let order ← askOrder (s.units t)
    .when isExecute (.forEach (fun u => execute g call t u) order)
  | .retreat => do
    let order ← askOrder (s.units t)
    .forEach (fun u => do
      let isRepaired ← askFlag
      .when isRepaired (call (.removeAssignee t u))) order
  | _ => pure ()

/-! ## Events of the tasks -/

def taskRetries : ℕ := 10

/-- `IBuilderTask::OnUnitIdle`. -/
def builderOnUnitIdle (t : ℕ) (u : U) : M U ρ Unit := do
  modify fun s => { s with buildFails := Function.update s.buildFails t (s.buildFails t + 1) }
  let s ← get
  if s.buildFails t ≤ 2 then execute g call t u
  else if s.buildFails t ≤ taskRetries then call (.removeAssignee t u)
  else .when (s.target t = none) (abortTask call t)

/-- `CBMexTask::OnUnitIdle`: a mex of the enemy is in the way. -/
def mexOnUnitIdle (t : ℕ) (u : U) : M U ρ Unit := do
  let isBlocked ← askFlag
  if isBlocked then do
    let choice ← askChoice
    match choice with
    | .listed d => do
      let s ← get
      if s.isListed d ∧ s.kind d = .builder .defence then assignTask g call u d else failure
    | _ => do
      let d ← enqueueTask .defence
      assignTask g call u d
  else builderOnUnitIdle g call t u

def retreat (u : U) : M U ρ Unit := do
  let t ← enqueueRetreat .builder
  assignTask g call u t

def onUnitIdle (t : ℕ) (u : U) : M U ρ Unit := do
  let s ← get
  match s.kind t with
  | .builder .repair => do
    let isDamaged ← askFlag
    if isDamaged then call (.removeAssignee t u) else doneTask call t
  | .builder .guard => do
    let isVip ← askFlag
    .when (!isVip) (abortTask call t)
  | .builder .reclaim => abortTask call t
  | .builder .terraform => do
    let isNear ← askFlag
    if isNear then doneTask call t else builderOnUnitIdle g call t u
  | .builder .mex => mexOnUnitIdle g call t u
  | .builder _ => builderOnUnitIdle g call t u
  | .fighter => do
    let isCoward ← askFlag
    .when isCoward (retreat g call u)
  | _ => pure ()

/-- `IBuilderTask::OnUnitDamaged`. -/
def builderOnUnitDamaged (t : ℕ) (u : U) : M U ρ Unit := do
  let isRetreat ← askFlag
  .when isRetreat do
    retreat g call u
    let s ← get
    .when (s.target t = none) (abortTask call t)

def onUnitDamaged (t : ℕ) (u : U) : M U ρ Unit := do
  let s ← get
  match s.kind t with
  | .builder .repair | .wait => do
    let isRetreat ← askFlag
    .when isRetreat (retreat g call u)
  | .builder _ => builderOnUnitDamaged g call t u
  | .fighter => do
    let isRetreat ← askFlag
    let isHeavy ← askFlag
    if isRetreat then retreat g call u
    else .when isHeavy (do let _ ← enqueueRepair u; pure ())
  | _ => pure ()

def onUnitDestroyed (t : ℕ) (u : U) : M U ρ Unit := do
  let s ← get
  match s.kind t with
  | .builder _ => do
    call (.removeAssignee t u)
    let s ← get
    let isMorphing ← askFlag
    .when ((s.target t = none ∨ s.units t = ∅) ∧ !isMorphing) (abortTask call t)
  | .wait | .retreat | .fighter => call (.removeAssignee t u)
  | _ => pure ()

/-- `IBuilderTask::OnTravelEnd`. -/
def onTravelEnd (t : ℕ) (u : U) : M U ρ Unit := do
  let s ← get
  match s.kind t with
  | .builder _ => modify fun s => { s with traveled := Function.update s.traveled t (insert u (s.traveled t)) }
  | _ => pure ()

/-- The bodies of the entry points. -/
def body : Proc U → M U ρ Unit
  | .removeAssignee t u => removeAssignee g call t u
  | .dequeueTask t done => dequeueTask g call t done
  | .start t u => start g call t u

end Methods

/-- The entry points, with calls nested at most `n` deep. -/
def run (g : Game U ρ) : ℕ → Proc U → M U ρ Unit := Procedure.recurse (body g)

/-! ## Events and updates -/

section Events

variable (g : Game U ρ) (n : ℕ)

/-- The tasks that a map has for a unit are stopped. -/
def dequeueKey (units : State U ρ → U → Option ℕ) (u : U) (done : Bool) : M U ρ Unit := do
  let s ← get
  match units s u with
  | none => pure ()
  | some t => run g n (.dequeueTask t done)

/-- `AssignTask` for an idle unit, and `Start` of the task that it has then. -/
def assignIdle (u : U) : M U ρ Unit := do
  let task ← makeTask
  match task with
  | none => pure ()
  | some t => do
    assignTo g t u
    run g n (.start t u)

/-- The loop of `CIdleTask::Update`; `i` counts the units that were given a task. -/
def idleLoop : List U → ℕ → M U ρ Unit
  | [], _ => pure ()
  | ass :: l, i => do
    let s ← get
    let isRecent ← askFlag
    if ass ∉ s.updateUnits ∨ isRecent then idleLoop l i else do
      modify fun s => { s with updateUnits := s.updateUnits.erase ass }
      assignIdle g n ass
      if i + 1 ≥ s.updateSlice then pure () else idleLoop l (i + 1)

def updateIdle : M U ρ Unit := do
  modify fun s =>
    { s with
      updateSlice :=
        if s.updateUnits = ∅ then (s.units (idleTask .builder)).card / g.slowUpdateRate else s.updateSlice
      updateUnits := if s.updateUnits = ∅ then s.units (idleTask .builder) else s.updateUnits }
  let s ← get
  let order ← askOrder s.updateUnits
  idleLoop g n order 0

/-- One round of `UpdateBuild` for the live task `t`. -/
def updateTask (t : ℕ) : M U ρ Unit := do
  let isTimeout ← askFlag
  if isTimeout then run g n (.dequeueTask t false) else update g (run g n) t

def buildLoop : ℕ → ℕ → M U ρ Unit
  | 0, _ => failure
  | fuel + 1, k => do
    let s ← get
    match s.buildUpdates[s.buildIterator]? with
    | none => pure ()
    | some t =>
      if k = 0 then pure ()
      else if s.isDead t then do
        modify fun s =>
          { s with buildUpdates := (s.buildUpdates.set s.buildIterator (s.buildUpdates.getLastD t)).dropLast }
        buildLoop fuel k
      else do
        updateTask g n t
        modify fun s => { s with buildIterator := s.buildIterator + 1 }
        buildLoop fuel (k - 1)

def updateBuild : M U ρ Unit := do
  modify fun s => { s with buildIterator := if s.buildUpdates.length ≤ s.buildIterator then 0 else s.buildIterator }
  let s ← get
  buildLoop g n n (s.buildUpdates.length / g.slowUpdateRate + 1)

/-- `UpdateAreaUsers` aborts the listed tasks that no builder can reach. -/
def updateAreaUsers : M U ρ Unit := do
  let removeTasks ← askRemoveTasks
  let s ← get
  if ∀ t ∈ removeTasks, s.isListed t ∧ (s.tasks t).hasBuildDef then
    .forEach (fun t => run g n (.dequeueTask t false)) removeTasks
  else failure

def createdHandler (u : U) : M U ρ Unit := do
  let s ← get
  match g.manager u, s.task u with
  | some m, none => modify (·.setTask u (nilTask m))
  | _, _ => pure ()

/-- `UnitCreated` of the builder manager for the unit that builds `u`. -/
def builderCreated (u builder : U) (isBeingBuilt : Bool) : M U ρ Unit := do
  let s ← get
  match s.task builder with
  | none => pure ()
  | some t =>
    match s.kind t with
    | .builder _ =>
      if isBeingBuilt then do
        let isSame ← askFlag
        if s.target t = none ∧ (s.tasks t).hasBuildDef ∧ isSame then
          modify fun s =>
            { s with
              target := Function.update s.target t (some u)
              unfinishedUnits := Function.update s.unfinishedUnits u (some t) }
        else do
          let t' ← enqueueReclaim (some u)
          assignTask g (run g n) builder t'
      else run g n (.dequeueTask t true)
    | _ => pure ()

def unitCreated (u : U) (builder : Option U) (isBeingBuilt : Bool) : M U ρ Unit := do
  modify fun s => { s with teamUnits := insert u s.teamUnits }
  createdHandler g u
  match builder with
  | none => pure ()
  | some b => do
    let s ← get
    .when (b ∈ s.teamUnits) (builderCreated g n u b isBeingBuilt)

def unitFinished (u : U) : M U ρ Unit := do
  modify fun s => { s with teamUnits := insert u s.teamUnits }
  .when (g.manager u = some .military) (modify (·.idleAssignTo .military u))
  dequeueKey g n (·.unfinishedUnits) u true
  dequeueKey g n (·.repairedUnits) u true
  dequeueKey g n (·.reclaimedUnits) u false
  .when (g.manager u = some .builder) (modify fun s =>
    { (s.idleAssignTo .builder u).addBuildPower g u with workers := insert u s.workers })

/-- `OnUnitDestroyed` of the task, and `RemoveAssignee` of the one that the unit has then. Returns whether the unit was
finished. -/
def destroyedHandler (u : U) : M U ρ Bool := do
  let s ← get
  match s.task u with
  | none => failure
  | some t => do
    onUnitDestroyed (run g n) t u
    let s' ← get
    match s'.task u with
    | none => failure
    | some t' => do
      run g n (.removeAssignee t' u)
      pure (s.kind t ≠ .nil)

def unitDestroyed (u : U) : M U ρ Unit := do
  .when (g.manager u = some .military) (do let _ ← destroyedHandler g n u; pure ())
  dequeueKey g n (·.unfinishedUnits) u false
  dequeueKey g n (·.repairedUnits) u false
  dequeueKey g n (·.reclaimedUnits) u true
  .when (g.manager u = some .builder) do
    let isFinished ← destroyedHandler g n u
    .when isFinished (modify fun s => { s.delBuildPower g u with workers := s.workers.erase u })
  modify fun s => { s with teamUnits := s.teamUnits.erase u }

/-- What the builder manager does for a worker goes to the task of the worker. -/
def toTask (handler : ℕ → U → M U ρ Unit) (u : U) : M U ρ Unit := do
  let s ← get
  match s.task u with
  | none => failure
  | some t => handler t u

def costMapReady (i : ℕ) : M U ρ Unit := do
  let s ← get
  match s.callbacks[i]? with
  | none => failure
  | some c => do
    modify fun s => { s with callbacks := s.callbacks.eraseIdx i }
    let isBetter ← askFlag
    .when (s.validateNewRepairer c && isBetter) (modify (·.setRepairer c.task (some c.newRep)))

/-! ## The military manager -/

def fighterAssign (u : U) (t : Option ℕ) : M U ρ Unit := do
  let s ← get
  if u ∈ s.units (idleTask .military) then
    match t with
    | none => do
      let t ← newTask { manager := .military, kind := .fighter } none false
      assignTo g t u
    | some t =>
      if t < s.nextTask ∧ s.kind t = .fighter ∧ s.manager t = .military ∧ s.isDead t = false
      then assignTo g t u else failure
  else failure

def fighterLeave (u : U) (isRetreat : Bool) : M U ρ Unit := do
  let s ← get
  match s.task u with
  | none => failure
  | some t =>
    if s.kind t = .fighter ∧ s.manager t = .military then
      if isRetreat then do
        let t' ← enqueueRetreat .military
        assignTask g (run g n) u t'
      else run g n (.removeAssignee t u)
    else failure

def updateFight (t : ℕ) : M U ρ Unit := do
  let s ← get
  if t < s.nextTask ∧ s.manager t = .military ∧ s.isDead t = false ∧
      (s.kind t = .retreat ∨ s.kind t = .fighter) then updateTask g n t
  else failure

end Events

inductive Event (U : Type)
  | unitCreated (u : U) (builder : Option U) (isBeingBuilt : Bool)
  | unitFinished (u : U)
  | unitIdle (u : U)
  | unitDamaged (u : U)
  | unitDestroyed (u : U)
  | travelEnd (u : U)
  | updateIdle
  | updateBuild
  | updateAreaUsers
  /-- Another module enqueues a task, such as the repair of a damaged building. -/
  | enqueue (r : Request U)
  /-- Another module aborts a listed task. -/
  | abort (t : ℕ)
  | costMapReady (i : ℕ)
  /-- A static builder repairs the retreating unit `u`. -/
  | staticRepair (u nano : U)
  | fighterAssign (u : U) (t : Option ℕ)
  | fighterLeave (u : U) (isRetreat : Bool)
  | updateFight (t : ℕ)

/-- What happens in an event, with calls nested at most `n` deep. -/
def Event.handle (g : Game U ρ) (n : ℕ) : Event U → M U ρ Unit
  | .unitCreated u builder isBeingBuilt => UnitTasks.unitCreated g n u builder isBeingBuilt
  | .unitFinished u => UnitTasks.unitFinished g n u
  | .unitIdle u => do
    let s ← get
    let isLater ← askFlag
    .when (u ∈ s.teamUnits ∧ g.manager u = some .builder ∧ isLater) (toTask (onUnitIdle g (run g n)) u)
  | .unitDamaged u => do
    let s ← get
    .when (u ∈ s.teamUnits ∧ g.manager u = some .builder) (toTask (onUnitDamaged g (run g n)) u)
  | .unitDestroyed u => do
    let s ← get
    .when (u ∈ s.teamUnits) (UnitTasks.unitDestroyed g n u)
  | .travelEnd u => toTask onTravelEnd u
  | .updateIdle => UnitTasks.updateIdle g n
  | .updateBuild => UnitTasks.updateBuild g n
  | .updateAreaUsers => UnitTasks.updateAreaUsers g n
  | .enqueue r => do let _ ← UnitTasks.enqueue r; pure ()
  | .abort t => do
    let s ← get
    if s.isListed t then run g n (.dequeueTask t false) else failure
  | .costMapReady i => UnitTasks.costMapReady i
  | .staticRepair u nano => do
    let s ← get
    match s.retreatOf u with
    | none => pure ()
    | some t => checkRepairer t nano
  | .fighterAssign u t => UnitTasks.fighterAssign g u t
  | .fighterLeave u isRetreat => UnitTasks.fighterLeave g n u isRetreat
  | .updateFight t => UnitTasks.updateFight g n t

end Circuit.Impl.UnitTasks
