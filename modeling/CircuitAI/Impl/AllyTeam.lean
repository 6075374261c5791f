import Mathlib.Data.List.Basic

/-!
# Authority over what AIs share

The AIs of an ally team share the managers of `CAllyTeam`, and all AIs of the process share `CTerrainData`. Each of these
records one AI, or its scheduler: the one that made it, until a release task of that AI's scheduler passes it on
(`DelegateAuthority`). `team` gives the ally team of an AI. `init` and `release` are `CCircuitAI::Init`, of an AI that gets
through it, and `CCircuitAI::Release`, as far as they bear on this. The defence matrix and the factory data are left out.
-/

namespace Circuit.Impl.AllyTeam

open Function

/-- `CAllyTeam`, with the AI that each manager has recorded; `pathfinder` is the AI whose scheduler it holds. -/
structure AllyTeam (α : Type*) where
  initCount : ℕ
  circuit : Option α
  mapManager : Option α
  enemyManager : Option α
  metalManager : Option α
  energyGrid : Option α
  pathfinder : Option α
  deriving DecidableEq

/-- `DelegateAuthority` of the terrain data or of the ally team, for the AI whose scheduler has the task. -/
inductive ReleaseTask
  | terrainData
  | allyTeam
  deriving DecidableEq

structure State (α τ : Type*) where
  circuits : List α
  gaCounter : ℕ
  isInitialized : α → Bool
  terrainData : Option α
  allyTeams : τ → AllyTeam α
  releaseTasks : α → List ReleaseTask

namespace AllyTeam

variable {α : Type*}

def new : AllyTeam α := ⟨0, none, none, none, none, none, none⟩

/-- `Init` of the first AI. -/
def create (t : AllyTeam α) (a : α) : AllyTeam α :=
  { t with
    initCount := t.initCount + 1
    circuit := some a
    mapManager := some a
    enemyManager := some a
    metalManager := some a
    energyGrid := some a
    pathfinder := some a }

/-- `Release`; the last one leaves the enemy manager. -/
def release (t : AllyTeam α) : AllyTeam α :=
  if 1 < t.initCount then { t with initCount := t.initCount - 1 }
  else
    { t with
      initCount := t.initCount - 1
      mapManager := none
      metalManager := none
      energyGrid := none
      pathfinder := none }

/-- What `DelegateAuthority` hands over. -/
def setAuthority (t : AllyTeam α) (a : α) : AllyTeam α :=
  { t with circuit := some a, mapManager := some a, metalManager := some a, energyGrid := some a }

end AllyTeam

namespace State

variable {α τ : Type*} [DecidableEq α] [DecidableEq τ]

def new : State α τ := ⟨[], 0, fun _ => false, none, fun _ => .new, fun _ => []⟩

def setTeam (s : State α τ) (T : τ) (t : AllyTeam α) : State α τ :=
  { s with allyTeams := update s.allyTeams T t }

def runOnRelease (s : State α τ) (a : α) (task : ReleaseTask) : State α τ :=
  { s with releaseTasks := update s.releaseTasks a (s.releaseTasks a ++ [task]) }

/-! ## Init -/

def createGameAttribute (s : State α τ) (a : α) : State α τ :=
  { s with
    circuits := a :: s.circuits
    gaCounter := s.gaCounter + 1
    -- the scheduler is a new one
    releaseTasks := update s.releaseTasks a [] }

/-- `InitUnitDefs`. -/
def initTerrainData (s : State α τ) (a : α) : State α τ :=
  if s.terrainData.isNone then { s with terrainData := some a }.runOnRelease a .terrainData else s

/-- `CAllyTeam::Init`. -/
def initAllyTeam (team : α → τ) (s : State α τ) (a : α) : State α τ :=
  let t := s.allyTeams (team a)
  if 0 < t.initCount then s.setTeam (team a) { t with initCount := t.initCount + 1 }
  else (s.setTeam (team a) (t.create a)).runOnRelease a .allyTeam

def init (team : α → τ) (s : State α τ) (a : α) : State α τ :=
  let s := ((s.createGameAttribute a).initTerrainData a).initAllyTeam team a
  { s with isInitialized := update s.isInitialized a true }

/-! ## Release -/

/-- `CTerrainData::DelegateAuthority`; `order` is the order in which the circuits are gone through. -/
def delegateTerrainData (order : List α) (s : State α τ) (curOwner : α) : State α τ :=
  match order.find? fun c => s.isInitialized c && c ≠ curOwner with
  | some c => { s with terrainData := some c }.runOnRelease c .terrainData
  | none => s

/-- `CAllyTeam::DelegateAuthority`. -/
def delegateAllyTeam (team : α → τ) (order : List α) (s : State α τ) (curOwner : α) : State α τ :=
  match order.find? fun c => s.isInitialized c && c ≠ curOwner && team c = team curOwner with
  | some c => (s.setTeam (team curOwner) ((s.allyTeams (team curOwner)).setAuthority c)).runOnRelease c .allyTeam
  | none => s

def runTask (team : α → τ) (order : List α) (curOwner : α) (s : State α τ) : ReleaseTask → State α τ
  | .terrainData => s.delegateTerrainData order curOwner
  | .allyTeam => s.delegateAllyTeam team order curOwner

/-- `CScheduler::ProcessRelease`. -/
def processRelease (team : α → τ) (order : List α) (s : State α τ) (a : α) : State α τ :=
  (s.releaseTasks a).foldl (runTask team order a) s

/-- The last AI takes the game attribute with the terrain data and the ally teams along. -/
def destroyGameAttribute (s : State α τ) (a : α) : State α τ :=
  let s := { s with circuits := s.circuits.erase a }
  if s.gaCounter ≤ 1 then { s with gaCounter := 0, terrainData := none, allyTeams := fun _ => .new }
  else { s with gaCounter := s.gaCounter - 1 }

def release (team : α → τ) (order : List α) (s : State α τ) (a : α) : State α τ :=
  let s := s.processRelease team order a
  let s := s.setTeam (team a) (s.allyTeams (team a)).release
  let s := s.destroyGameAttribute a
  { s with isInitialized := update s.isInitialized a false }

end State

end Circuit.Impl.AllyTeam
