import CircuitAI.Framework.SwapRemove
import Mathlib.Algebra.Order.Ring.Rat

/-!
# Enemies of an ally team

`CEnemyManager`, the registries of `CMapManager`, `CAllyTeam` as the gate to both, and the part of `CCircuitAI` that
keeps a record of each enemy. Enemies are numbered in the order of their registration, so that a number is an
instance, while the `id` of an enemy can be used again. What the game engine answers about a unit is a `Sight`.

Positions, velocities and health are left out, as is what only the threat map reads. The result of
`CThreatMap::GetEnemyUnitThreat` is part of the `Sight`.
-/

namespace Circuit.Impl.Enemies

open Function

/-! ## Enemy units -/

/-- What is read of a `CCircuitDef`; `ρ` are the roles. -/
structure CircuitDef (ρ : Type*) where
  id : ℤ
  isAttacker : Bool
  isMobile : Bool
  isIgnore : Bool
  isEnemyRoleAny : ρ → Bool
  costM : ℚ
  threat : ℚ
  thrDamage : ℚ
  costM_nonneg : 0 ≤ costM
  threat_nonneg : 0 ≤ threat

/-- What the engine tells about a unit when an event arrives. -/
structure Sight (ρ : Type*) where
  isValid : Bool
  isNeutral : Bool
  unitDef : Option (CircuitDef ρ)
  commCost : Option ℚ
  isWeak : Bool
  threat : ℚ
  commCost_nonneg : ∀ c ∈ commCost, 0 ≤ c

/-- `CEnemyUnit` with its `SEnemyData`. -/
structure EnemyUnit (ρ : Type*) where
  id : ℤ
  cdef : Option (CircuitDef ρ)
  knownFrame : ℤ
  lastSeen : ℤ
  cost : ℚ
  threat : ℚ
  isWeak : Bool
  isInLOS : Bool
  isInRadar : Bool
  hidden : Bool
  isIgnore : Bool
  isDead : Bool

namespace EnemyUnit

variable {ρ : Type*}

def new (id : ℤ) (cdef : Option (CircuitDef ρ)) : EnemyUnit ρ where
  id := id
  cdef := cdef
  knownFrame := -1
  lastSeen := -1
  cost := cdef.elim 0 CircuitDef.costM
  threat := 0
  isWeak := false
  isInLOS := false
  isInRadar := false
  hidden := false
  isIgnore := false
  isDead := false

def setKnown (e : EnemyUnit ρ) (frame : ℤ) : EnemyUnit ρ :=
  { e with knownFrame := if e.knownFrame ≠ -1 then e.knownFrame else frame }

def isKnown (e : EnemyUnit ρ) (frame : ℤ) : Bool := e.knownFrame ≠ -1 && e.knownFrame ≠ frame

/-- An unknown enemy is a threat. -/
def isAttacker (e : EnemyUnit ρ) : Bool := e.cdef.elim true CircuitDef.isAttacker

def getDamage (e : EnemyUnit ρ) : ℚ :=
  match e.cdef with
  | none => 1 / 10
  | some d => if d.thrDamage < 1 / 1000 then 0 else if e.isWeak then 1 / 1000 else d.thrDamage

def isHidden (e : EnemyUnit ρ) : Bool := e.hidden || e.isIgnore

def clearHidden (e : EnemyUnit ρ) : EnemyUnit ρ := { e with hidden := false }

def setDead (e : EnemyUnit ρ) : EnemyUnit ρ := { e with isDead := true, hidden := true }

end EnemyUnit

/-! ## State -/

/-- The factors of `initThrMod`. -/
structure ThrMod where
  inMobile : ℚ
  inStatic : ℚ
  inMobile_nonneg : 0 ≤ inMobile
  inStatic_nonneg : 0 ≤ inStatic

/-- Where the main thread is in `CCircuitAI::Update`. -/
inductive Pc (α : Type*)
  | idle
  | garbage (ai : α) (rest : List ℤ)
  /-- In the loop of `UpdateEnemyDatas`. -/
  | sweep (n : ℕ)

structure State (α ρ : Type*) where
  /-- The authority of the ally team. -/
  circuit : α
  lastFrame : α → ℤ
  /-- `CCircuitAI::enemyInfos`, with the data of each record. -/
  enemyInfos : α → ℤ → Option ℕ
  heap : ℕ → EnemyUnit ρ
  /-- The number of the next enemy to be registered. -/
  next : ℕ
  enemyUnits : ℤ → Option ℕ
  enemyUpdates : List ℕ
  enemyIterator : ℕ
  enemyGarbage : List ℤ
  hostileUnits : ℤ → Option ℕ
  peaceUnits : ℤ → Option ℕ
  roleCost : ρ → ℚ
  /-- `SEnemyInfo::threat` of each role. -/
  roleThreat : ρ → ℚ
  enemyMobileCost : ℚ
  mobileThreat : ℚ
  staticThreat : ℚ
  pc : Pc α

namespace State

variable {α ρ : Type*} [DecidableEq α]

/-- The state after `CAllyTeam::Init`. -/
def new (circuit : α) : State α ρ where
  circuit := circuit
  lastFrame _ := -2
  enemyInfos _ _ := none
  heap _ := .new 0 none
  next := 0
  enemyUnits _ := none
  enemyUpdates := []
  enemyIterator := 0
  enemyGarbage := []
  hostileUnits _ := none
  peaceUnits _ := none
  roleCost _ := 0
  roleThreat _ := 0
  enemyMobileCost := 0
  mobileThreat := 0
  staticThreat := 0
  pc := .idle

def modify (s : State α ρ) (p : ℕ) (f : EnemyUnit ρ → EnemyUnit ρ) : State α ρ :=
  { s with heap := update s.heap p (f (s.heap p)) }

def setHostile (s : State α ρ) (id : ℤ) (p : Option ℕ) : State α ρ :=
  { s with hostileUnits := update s.hostileUnits id p }

def setPeace (s : State α ρ) (id : ℤ) (p : Option ℕ) : State α ρ :=
  { s with peaceUnits := update s.peaceUnits id p }

def setInfo (s : State α ρ) (ai : α) (id : ℤ) (p : Option ℕ) : State α ρ :=
  { s with enemyInfos := update s.enemyInfos ai (update (s.enemyInfos ai) id p) }

/-- `circuit->GetLastFrame()` as the managers see it. -/
def frame (s : State α ρ) : ℤ := s.lastFrame s.circuit

/-! ## `CEnemyManager` -/

def unitInLOS (s : State α ρ) (p : ℕ) (v : Sight ρ) : Bool × State α ρ :=
  match v.unitDef with
  | none => (false, s)
  | some d =>
    if (s.heap p).cdef.all (·.id ≠ d.id) then
      let s := s.modify p fun e => { e with cdef := some d, cost := v.commCost.getD d.costM }
      if d.isIgnore then (false, s.modify p fun e => { e with isIgnore := true }) else (true, s)
    else (true, s)

/-- `RegisterEnemyUnit` of a unit that has been reported with its id. -/
def registerEnemyUnit (s : State α ρ) (id : ℤ) (isInLOS : Bool) (v : Sight ρ) : Option ℕ × State α ρ :=
  let cdef := if isInLOS then v.unitDef else none
  if !v.isValid || isInLOS && v.unitDef.isNone then (none, s)
  else
    let data := { EnemyUnit.new id cdef with isIgnore := v.isNeutral || cdef.any CircuitDef.isIgnore }
    (some s.next,
      { s with
        heap := update s.heap s.next data
        next := s.next + 1
        enemyUnits := update s.enemyUnits id (some s.next)
        enemyUpdates := s.enemyUpdates ++ [s.next] })

def unregisterEnemyUnit (s : State α ρ) (p : ℕ) : State α ρ :=
  { s.modify p EnemyUnit.setDead with enemyUnits := update s.enemyUnits (s.heap p).id none }

/-- The last entry takes the place of the deleted one. -/
def deleteEnemyUnit (s : State α ρ) : State α ρ :=
  { s with enemyUpdates := Framework.swapRemove s.enemyUpdates s.enemyIterator 0 }

def garbageEnemy (s : State α ρ) (p : ℕ) : State α ρ :=
  let s := { s with enemyGarbage := s.enemyGarbage ++ [(s.heap p).id] }
  let s := s.unregisterEnemyUnit p
  { s with enemyIterator := s.enemyIterator + 1 }

def addEnemyCost (mod : ThrMod) (s : State α ρ) (p : ℕ) : State α ρ :=
  match (s.heap p).cdef with
  | none => s
  | some cdef =>
    let s := { s with
      roleCost := fun r => if cdef.isEnemyRoleAny r then s.roleCost r + (s.heap p).cost else s.roleCost r
      roleThreat := fun r => if cdef.isEnemyRoleAny r then s.roleThreat r + cdef.threat else s.roleThreat r }
    if cdef.isMobile then
      { s with
        mobileThreat := s.mobileThreat + cdef.threat * mod.inMobile
        enemyMobileCost := s.enemyMobileCost + (s.heap p).cost }
    else { s with staticThreat := s.staticThreat + cdef.threat * mod.inStatic }

def delEnemyCost (mod : ThrMod) (s : State α ρ) (p : ℕ) : State α ρ :=
  match (s.heap p).cdef with
  | none => s
  | some cdef =>
    let s := { s with
      roleCost := fun r =>
        if cdef.isEnemyRoleAny r then max (s.roleCost r - (s.heap p).cost) 0 else s.roleCost r
      roleThreat := fun r =>
        if cdef.isEnemyRoleAny r then max (s.roleThreat r - cdef.threat) 0 else s.roleThreat r }
    if cdef.isMobile then
      { s with
        mobileThreat := max (s.mobileThreat - cdef.threat * mod.inMobile) 0
        enemyMobileCost := max (s.enemyMobileCost - (s.heap p).cost) 0 }
    else { s with staticThreat := max (s.staticThreat - cdef.threat * mod.inStatic) 0 }

/-! ## `CMapManager` -/

/-- `HostileInLOS` of `CMapManager` on one enemy; `isSeen` tells whether its last position is in line of sight. -/
def hostileInLOS (isSeen : Bool) (threat : ℚ) (e : EnemyUnit ρ) : EnemyUnit ρ :=
  if e.isHidden then e
  else if !(e.isInRadar || e.isInLOS) && isSeen then { e with hidden := true }
  else if e.isInLOS then { e with threat := threat }
  else e

def peaceInLOS (isSeen : Bool) (e : EnemyUnit ρ) : EnemyUnit ρ :=
  if e.isHidden then e
  else if !(e.isInRadar || e.isInLOS) && isSeen then { e with hidden := true }
  else e

/-- `CEnemyManager::PrepareUpdate`: all hostile enemies, then all peaceful ones. -/
def prepareUpdate (s : State α ρ) (isSeen : ℕ → Bool) (threat : ℕ → ℚ) : State α ρ :=
  let s := { s with
    heap := fun p =>
      if s.hostileUnits (s.heap p).id = some p then hostileInLOS (isSeen p) (threat p) (s.heap p) else s.heap p }
  { s with
    heap := fun p => if s.peaceUnits (s.heap p).id = some p then peaceInLOS (isSeen p) (s.heap p) else s.heap p }

/-- `CMapManager::EnemyEnterLOS` of an enemy that is no attacker. -/
def peaceEnterLOS (s : State α ρ) (p : ℕ) : State α ρ :=
  let e := s.heap p
  if 0 < e.threat then
    -- threat prediction failed when the enemy was unknown
    ((s.setHostile e.id none).setPeace e.id (some p)).modify p fun e => { e.clearHidden with threat := 0 }
  else if s.peaceUnits e.id = none then s.setPeace e.id (some p)
  else s.modify p EnemyUnit.clearHidden

/-- `CMapManager::EnemyEnterLOS` of an attacker. -/
def hostileEnterLOS (s : State α ρ) (p : ℕ) : State α ρ :=
  let e := s.heap p
  if s.hostileUnits e.id = none then s.setHostile e.id (some p) else s.modify p EnemyUnit.clearHidden

/-- `CMapManager::EnemyEnterLOS`, with whether the enemy was not known before. -/
def mapEnterLOS (s : State α ρ) (p : ℕ) (v : Sight ρ) : Bool × State α ρ :=
  let wasKnown := (s.heap p).isKnown s.frame
  let s := s.modify p fun e => { e with isInLOS := true }
  let s :=
    if (s.heap p).isAttacker then
      (s.hostileEnterLOS p).modify p fun e => { e with isWeak := v.isWeak, threat := v.threat }
    else (s.peaceEnterLOS p).modify p fun e => { e with isWeak := v.isWeak }
  (!wasKnown, s.modify p (·.setKnown s.frame))

def mapEnterRadar (s : State α ρ) (p : ℕ) : State α ρ :=
  let s := s.modify p fun e => { e with lastSeen := -1, isInRadar := true }
  let e := s.heap p
  if e.isInLOS then s
  else if !e.isAttacker then s.modify p EnemyUnit.clearHidden
  else if s.hostileUnits e.id = none then
    -- `CThreatMap::NewEnemy`
    (s.setHostile e.id (some p)).modify p fun e => { e with threat := e.getDamage }
  else s.modify p EnemyUnit.clearHidden

/-- `CMapManager::EnemyDestroyed`, with whether the enemy was known. -/
def mapDestroyed (s : State α ρ) (p : ℕ) : Bool × State α ρ :=
  let e := s.heap p
  (e.isKnown s.frame,
    if s.hostileUnits e.id = none then s.setPeace e.id none else s.setHostile e.id none)

/-! ## `CAllyTeam` -/

def teamEnterLOS (mod : ThrMod) (s : State α ρ) (ai : α) (p : ℕ) (v : Sight ρ) : State α ρ :=
  if s.circuit ≠ ai then s
  else
    let (isNew, s) := s.mapEnterLOS p v
    if isNew then s.addEnemyCost mod p else s

def teamLeaveLOS (s : State α ρ) (ai : α) (p : ℕ) : State α ρ :=
  if s.circuit ≠ ai then s else s.modify p fun e => { e with isInLOS := false }

def teamEnterRadar (s : State α ρ) (ai : α) (p : ℕ) : State α ρ :=
  if s.circuit ≠ ai then s else s.mapEnterRadar p

def teamLeaveRadar (s : State α ρ) (ai : α) (p : ℕ) : State α ρ :=
  if s.circuit ≠ ai then s
  else s.modify p fun e => { e with lastSeen := s.frame, isInRadar := false }

def teamDestroyed (mod : ThrMod) (s : State α ρ) (ai : α) (p : ℕ) : State α ρ :=
  if s.circuit ≠ ai then s
  else
    let (isKnown, s) := s.mapDestroyed p
    if isKnown then s.delEnemyCost mod p else s

/-! ## `CCircuitAI` -/

/-- `RegisterEnemyInfo`; for an AI without authority the ally team has the enemy already or not at all. -/
def registerEnemyInfo (s : State α ρ) (ai : α) (id : ℤ) (isInLOS : Bool) (v : Sight ρ) : Option ℕ × State α ρ :=
  match s.enemyInfos ai id with
  | some p =>
    if isInLOS then
      let (ok, s) := if s.circuit ≠ ai then (!(s.heap p).isIgnore, s) else s.unitInLOS p v
      (if ok then some p else none, s)
    else (some p, s)
  | none =>
    let (data, s) := if s.circuit ≠ ai then (s.enemyUnits id, s) else s.registerEnemyUnit id isInLOS v
    match data with
    | none => (none, s)
    | some p => (some p, s.setInfo ai id (some p))

def enemyEnterLOS (mod : ThrMod) (s : State α ρ) (ai : α) (id : ℤ) (v : Sight ρ) : State α ρ :=
  match s.registerEnemyInfo ai id true v with
  | (some p, s) => s.teamEnterLOS mod ai p v
  | (none, s) => s

def enemyLeaveLOS (s : State α ρ) (ai : α) (id : ℤ) : State α ρ :=
  match s.enemyInfos ai id with
  | some p => s.teamLeaveLOS ai p
  | none => s

def enemyEnterRadar (s : State α ρ) (ai : α) (id : ℤ) (v : Sight ρ) : State α ρ :=
  match s.registerEnemyInfo ai id false v with
  | (some p, s) => s.teamEnterRadar ai p
  | (none, s) => s

def enemyLeaveRadar (s : State α ρ) (ai : α) (id : ℤ) : State α ρ :=
  match s.enemyInfos ai id with
  | some p => s.teamLeaveRadar ai p
  | none => s

def unregisterEnemyInfo (s : State α ρ) (ai : α) (p : ℕ) : State α ρ :=
  let s := if s.circuit ≠ ai then s else s.unregisterEnemyUnit p
  s.setInfo ai (s.heap p).id none

/-- The events `EnemyDestroyed` and `UnitGiven`, and an entry of `enemyGarbage`. -/
def enemyDestroyed (mod : ThrMod) (s : State α ρ) (ai : α) (id : ℤ) : State α ρ :=
  match s.enemyInfos ai id with
  | some p => (s.teamDestroyed mod ai p).unregisterEnemyInfo ai p
  | none => s

/-- `Update` up to the loop over `enemyGarbage`. -/
def beginUpdate (s : State α ρ) (ai : α) (frame : ℕ) : State α ρ :=
  { s with lastFrame := update s.lastFrame ai frame, pc := .garbage ai s.enemyGarbage }

/-! ## `UpdateEnemyDatas` -/

/-- What comes before the loop. `THREAT_UPDATE_RATE` is 7. -/
def beginSweep (s : State α ρ) : State α ρ :=
  { s with
    enemyIterator := if s.enemyUpdates.length ≤ s.enemyIterator then 0 else s.enemyIterator
    enemyGarbage := []
    pc := .sweep (s.enemyUpdates.length / (7 - 1) + 1) }

/-- The enemy has not been seen for 20 minutes. -/
def isOld (s : State α ρ) (p : ℕ) : Bool :=
  (s.heap p).lastSeen ≠ -1 && (s.heap p).lastSeen ≤ s.frame - 30 * 60 * 20

/-- The enemy is taken for garbage; `isOut` tells whether its position is out of bounds. -/
def isGarbage (s : State α ρ) (p : ℕ) (isOut : Bool) : Bool :=
  s.isOld p || ((s.heap p).isInRadar || (s.heap p).isInLOS) && isOut

/-- The end of an iteration that updates the enemy `p`, with `n` more to go. -/
def updateEnemyData (s : State α ρ) (p n : ℕ) (isWeak : Bool) : State α ρ :=
  let s := s.modify p fun e => if e.isInLOS then { e with isWeak } else e
  { s with enemyIterator := s.enemyIterator + 1, pc := .sweep n }

end State

end Circuit.Impl.Enemies
