import CircuitAI.Impl.Enemies
import Mathlib.Algebra.BigOperators.Group.Finset.Defs

/-!
# Runs of enemy events

`Step` is one event that an AI of the team receives, or one piece of its `Update`: an entry of `enemyGarbage`, the start
of `UpdateEnemyDatas` or of a threat update, one iteration of the sweep over all enemies. A run takes any such steps
that meet a condition on the state and the input, and keeps what happened, the last event first.
-/

namespace Circuit.Spec.EnemyRuns

open Impl.Enemies

/-- What the engine or the clock feeds into a step. -/
inductive Input (α ρ : Type*)
  | enterLOS (ai : α) (id : ℤ) (v : Sight ρ)
  | leaveLOS (ai : α) (id : ℤ)
  | enterRadar (ai : α) (id : ℤ) (v : Sight ρ)
  | leaveRadar (ai : α) (id : ℤ)
  | destroyed (ai : α) (id : ℤ)
  | update (ai : α) (frame : ℕ)
  | handle
  /-- `CAllyTeam::Update`; `isUpdating` of the managers, and what `PrepareUpdate` asks about enemies. -/
  | team (isUpdating : Bool) (isSeen : ℕ → Bool) (threat : ℕ → ℚ)
  /-- The next iteration of `UpdateEnemyDatas`, for a position out of bounds or not. -/
  | sweep (isOut isWeak : Bool)

inductive Event (α : Type*)
  | tau
  /-- The ally team has taken in that the enemy entered the line of sight. -/
  | enterLOS (p : ℕ)
  /-- The record of `ai` was removed because the enemy was reported destroyed. -/
  | destroyed (ai : α) (p : ℕ)
  /-- The record of `ai` was removed because of an entry of `enemyGarbage`. -/
  | handled (ai : α) (p : ℕ)
  | beginPass
  | visit (p : ℕ)
  | garbage (p : ℕ)
  | delete (p : ℕ)
  deriving DecidableEq

variable {α ρ : Type*} [DecidableEq α]

def enterEvent (s : State α ρ) (ai : α) (id : ℤ) (v : Sight ρ) : Event α :=
  if s.circuit = ai then (s.registerEnemyInfo ai id true v).1.elim .tau .enterLOS else .tau

/-- `CAllyTeam::Update` of an AI whose last frame is set; `mark` is `uEnemyMark`. -/
def teamUpdate (mark : ℤ) (s : State α ρ) (ai : α) (isUpdating : Bool) (isSeen : ℕ → Bool) (threat : ℕ → ℚ) :
    Event α × State α ρ :=
  if s.circuit ≠ ai then (.tau, { s with pc := .idle })
  else if s.frame % 7 = mark then
    (.tau, { (if isUpdating then s else s.prepareUpdate isSeen threat) with pc := .idle })
  else (if s.enemyUpdates.length ≤ s.enemyIterator then .beginPass else .tau, s.beginSweep)

inductive Step (mod : ThrMod) (mark : ℤ) (s : State α ρ) : Input α ρ → Event α → State α ρ → Prop
  | enterLOS {ai : α} {id : ℤ} {v : Sight ρ} (hpc : s.pc = .idle) :
    Step mod mark s (.enterLOS ai id v) (enterEvent s ai id v) (s.enemyEnterLOS mod ai id v)
  | leaveLOS {ai : α} {id : ℤ} (hpc : s.pc = .idle) :
    Step mod mark s (.leaveLOS ai id) .tau (s.enemyLeaveLOS ai id)
  | enterRadar {ai : α} {id : ℤ} {v : Sight ρ} (hpc : s.pc = .idle) :
    Step mod mark s (.enterRadar ai id v) .tau (s.enemyEnterRadar ai id v)
  | leaveRadar {ai : α} {id : ℤ} (hpc : s.pc = .idle) :
    Step mod mark s (.leaveRadar ai id) .tau (s.enemyLeaveRadar ai id)
  | destroyed {ai : α} {id : ℤ} (hpc : s.pc = .idle) :
    Step mod mark s (.destroyed ai id) ((s.enemyInfos ai id).elim .tau (.destroyed ai))
      (s.enemyDestroyed mod ai id)
  | update {ai : α} {frame : ℕ} (hpc : s.pc = .idle) :
    Step mod mark s (.update ai frame) .tau (s.beginUpdate ai frame)
  | handle {ai : α} {id : ℤ} {rest : List ℤ} (hpc : s.pc = .garbage ai (id :: rest)) :
    Step mod mark s .handle ((s.enemyInfos ai id).elim .tau (.handled ai))
      { s.enemyDestroyed mod ai id with pc := .garbage ai rest }
  | team {ai : α} {isUpdating : Bool} {isSeen : ℕ → Bool} {threat : ℕ → ℚ} (hpc : s.pc = .garbage ai []) :
    Step mod mark s (.team isUpdating isSeen threat) (teamUpdate mark s ai isUpdating isSeen threat).1
      (teamUpdate mark s ai isUpdating isSeen threat).2
  | delete {n p : ℕ} {isOut isWeak : Bool} (hpc : s.pc = .sweep (n + 1))
    (hp : s.enemyUpdates[s.enemyIterator]? = some p) (hd : (s.heap p).isDead = true) :
    Step mod mark s (.sweep isOut isWeak) (.delete p) s.deleteEnemyUnit
  | garbage {n p : ℕ} {isOut isWeak : Bool} (hpc : s.pc = .sweep (n + 1))
    (hp : s.enemyUpdates[s.enemyIterator]? = some p) (hd : (s.heap p).isDead = false)
    (hg : s.isGarbage p isOut = true) :
    Step mod mark s (.sweep isOut isWeak) (.garbage p) (s.garbageEnemy p)
  | visit {n p : ℕ} {isOut isWeak : Bool} (hpc : s.pc = .sweep (n + 1))
    (hp : s.enemyUpdates[s.enemyIterator]? = some p) (hd : (s.heap p).isDead = false)
    (hg : s.isGarbage p isOut = false) :
    Step mod mark s (.sweep isOut isWeak) (.visit p) (s.updateEnemyData p n isWeak)
  | endSweep {n : ℕ} {isOut isWeak : Bool} (hpc : s.pc = .sweep n)
    (h : n = 0 ∨ s.enemyUpdates.length ≤ s.enemyIterator) :
    Step mod mark s (.sweep isOut isWeak) .tau { s with pc := .idle }

/-- The states of the runs whose steps meet the condition, with the events so far. -/
inductive Run (mod : ThrMod) (mark : ℤ) (ok : State α ρ → Input α ρ → Prop) : List (Event α) → State α ρ → Prop
  | new (circuit : α) : Run mod mark ok [] (.new circuit)
  | step {es : List (Event α)} {s t : State α ρ} {i : Input α ρ} {e : Event α} (h : Run mod mark ok es s)
    (hok : ok s i) (hst : Step mod mark s i e t) : Run mod mark ok (e :: es) t

/-! ## Short runs -/

def scout (isAttacker : Bool) : CircuitDef Unit where
  id := if isAttacker then 2 else 1
  isAttacker := isAttacker
  isMobile := true
  isIgnore := false
  isEnemyRoleAny _ := true
  costM := 5
  threat := 1
  thrDamage := 1
  costM_nonneg := by decide
  threat_nonneg := by decide

def seeing (d : CircuitDef Unit) : Sight Unit where
  isValid := true
  isNeutral := false
  unitDef := some d
  commCost := none
  isWeak := false
  threat := 1
  commCost_nonneg := by simp

def unitThrMod : ThrMod where
  inMobile := 1
  inStatic := 1
  inMobile_nonneg := by decide
  inStatic_nonneg := by decide

end Circuit.Spec.EnemyRuns
