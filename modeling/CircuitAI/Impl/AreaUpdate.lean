import Mathlib.Logic.Function.Basic
import Mathlib.Data.Int.Notation

/-!
# Updates of the shared area data

What brings the AIs of a process from one of the two `SAreaData` to the other. An update is computed by a worker
(`enqueueUpdate`), announced to every AI (`scheduleUsersUpdate`), taken over by each in two scheduled tasks
(`updateAreaUsers`, `staggered`) and ends when the countdown `aiToUpdate` comes to zero (`onAreaUsersUpdated`). An AI can
be released in between (`release`). A pointer to one of the two `SAreaData` is a `Bool`. The path finder and the enemy
manager are shared by the AIs of an ally team; `team` gives the ally team of an AI.
-/

namespace Circuit.Impl.AreaUpdate

open Function

/-- What the scheduler of an AI has to run for an update. -/
inductive Task
  | updateAreaUsers
  | staggered
  deriving DecidableEq, Repr

/-- The part of `CPathFinder` or `CEnemyManager` that follows the area data. -/
structure Shared where
  isAreaUpdated : Bool
  areaData : Bool
  deriving DecidableEq, Repr

/-- `UpdateAreaUsers` of the path finder and of the enemy manager: the first AI of the team does the work. -/
def Shared.updateAreaUsers (m : Shared) (areaData : Bool) : Shared :=
  if m.isAreaUpdated then m else ⟨true, areaData⟩

def Shared.setAreaUpdated (m : Shared) (value : Bool) : Shared := { m with isAreaUpdated := value }

structure State (α τ : Type*) where
  circuits : List α
  scheduler : α
  pAreaData : Bool
  isUpdating : Bool
  aiToUpdate : ℤ
  workTasks : List α
  finishTasks : List α
  onceTasks : α → List Task
  areaData : α → Bool
  pathfinder : τ → Shared
  enemyManager : τ → Shared

namespace State

variable {α τ : Type*} [DecidableEq α] [DecidableEq τ] (team : α → τ)

def getNextAreaData (s : State α τ) : Bool := !s.pAreaData

/-- The state after the AIs have been initialised. -/
def new (circuits : List α) (scheduler : α) : State α τ where
  circuits := circuits
  scheduler := scheduler
  pAreaData := false
  isUpdating := false
  aiToUpdate := 0
  workTasks := []
  finishTasks := []
  onceTasks _ := []
  areaData _ := false
  pathfinder _ := ⟨true, false⟩
  enemyManager _ := ⟨true, false⟩

def enqueueUpdate (s : State α τ) : State α τ :=
  if s.isUpdating then s
  else { s with isUpdating := true, workTasks := s.workTasks ++ [s.scheduler] }

/-- The worker runs `UpdateAreas` of the scheduler of `a` and hands its callback over. -/
def runWorkTask (a : α) (s : State α τ) : State α τ :=
  { s with workTasks := s.workTasks.erase a, finishTasks := s.finishTasks ++ [a] }

def onAreaUsersUpdated (s : State α τ) : State α τ :=
  let s := { s with aiToUpdate := s.aiToUpdate - 1 }
  if s.aiToUpdate ≠ 0 then s
  else { s with pAreaData := s.getNextAreaData, isUpdating := false }

def prepareAreaUpdate (a : α) (s : State α τ) : State α τ :=
  { s with
    pathfinder := update s.pathfinder (team a) ((s.pathfinder (team a)).setAreaUpdated false)
    enemyManager := update s.enemyManager (team a) ((s.enemyManager (team a)).setAreaUpdated false) }

/-- `RunTaskAfter` on the scheduler of `a`. -/
def runTaskAfter (a : α) (t : Task) (s : State α τ) : State α τ :=
  { s with onceTasks := update s.onceTasks a (s.onceTasks a ++ [t]) }

/-- The body of the loop of `ScheduleUsersUpdate`. -/
def scheduleUser (s : State α τ) (a : α) : State α τ :=
  prepareAreaUpdate team a { s.runTaskAfter a .updateAreaUsers with aiToUpdate := s.aiToUpdate + 1 }

def scheduleUsersUpdate (s : State α τ) : State α τ :=
  let s := s.circuits.foldl (scheduleUser team) { s with aiToUpdate := 0 }
  onAreaUsersUpdated { s with aiToUpdate := s.aiToUpdate + 1 }

/-- `CTerrainManager::UpdateAreaUsers` of `a`. -/
def updateAreaUsers (a : α) (s : State α τ) : State α τ :=
  runTaskAfter a .staggered
    { s with
      areaData := update s.areaData a s.getNextAreaData
      enemyManager := update s.enemyManager (team a)
        ((s.enemyManager (team a)).updateAreaUsers s.getNextAreaData) }

/-- The task that `UpdateAreaUsers` of `a` leaves for later. -/
def staggered (a : α) (s : State α τ) : State α τ :=
  onAreaUsersUpdated
    { s with
      pathfinder := update s.pathfinder (team a)
        ((s.pathfinder (team a)).updateAreaUsers s.getNextAreaData) }

def runOnceTask (a : α) (t : Task) (s : State α τ) : State α τ :=
  let s := { s with onceTasks := update s.onceTasks a ((s.onceTasks a).erase t) }
  match t with
  | .updateAreaUsers => updateAreaUsers team a s
  | .staggered => staggered team a s

def runFinishTask (a : α) (s : State α τ) : State α τ :=
  scheduleUsersUpdate team { s with finishTasks := s.finishTasks.erase a }

def delegateAuthority (curOwner : α) (s : State α τ) : State α τ :=
  match s.circuits.find? (· != curOwner) with
  | some circuit => { s with scheduler := circuit }
  | none => s

/-- `CScheduler::Release` of the scheduler of `a`, which is not processed again. -/
def releaseScheduler (a : α) (s : State α τ) : State α τ :=
  { s with
    workTasks := s.workTasks.filter (· != a)
    finishTasks := s.finishTasks.filter (· != a)
    onceTasks := update s.onceTasks a [] }

/-- `CCircuitAI::Release` of `a`. -/
def release (a : α) (s : State α τ) : State α τ :=
  let s := s.onAreaUsersUpdated
  -- `DelegateAuthority` is a release task of the owner only
  let s := if s.scheduler = a then s.delegateAuthority a else s
  let s := s.releaseScheduler a
  { s with circuits := s.circuits.erase a }

end State

end Circuit.Impl.AreaUpdate
