import CircuitAI.Framework.DoubleBuffer
import CircuitAI.Impl.TerrainManager
import Mathlib.Algebra.Order.Ring.Rat
import Mathlib.Data.Nat.Sqrt
import Mathlib.Order.WithBot

/-!
# Groups of enemies

The part of `CEnemyManager` that puts the enemies into groups: one iteration of k-means over the hostile and peaceful
enemies (`kMeansIteration`), and the two buffers in which it is done (`prepare`, `update`, `apply`). The member
`enemyGroups` is a reference that the constructor binds to the vector of `groupData0`, so that it is a place and not a
value (`groupSlot`).
-/

namespace Circuit.Impl.EnemyGroups

open Framework
open TerrainManager (AIFloat3)

/-! ## Enemies and groups -/

/-- What is read of a `CCircuitDef`. -/
structure CircuitDef (ρ : Type*) where
  mainRole : ρ
  isMobile : Bool

/-- What is read of an `SEnemyData`. -/
structure EnemyData (ρ : Type*) where
  id : ℤ
  cdef : Option (CircuitDef ρ)
  pos : AIFloat3
  cost : ℚ
  threat : ℚ
  isInRadarOrLOS : Bool

def EnemyData.isFake {ρ : Type*} (e : EnemyData ρ) : Bool := e.id = -1

structure EnemyGroup (ρ : Type*) where
  units : List ℤ
  pos : AIFloat3
  roleCosts : ρ → ℚ
  cost : ℚ
  threat : ℚ

structure GroupData (ρ : Type*) where
  enemyGroups : List (EnemyGroup ρ)
  enemyPos : AIFloat3
  maxThreatGroupIdx : ℕ

structure InitThrMod where
  inMobile : ℚ
  inStatic : ℚ

namespace EnemyGroup

variable {ρ : Type*} [DecidableEq ρ]

def new (p : AIFloat3) : EnemyGroup ρ := ⟨[], p, fun _ => 0, 0, 0⟩

/-- A group without members at the origin. -/
def clear (g : EnemyGroup ρ) : EnemyGroup ρ :=
  { g with units := [], pos := .zeroVector, roleCosts := fun _ => 0, cost := 0, threat := 0 }

/-- A member is added to a group that gets `num` of them. -/
def addEnemy (mod : InitThrMod) (num : ℕ) (g : EnemyGroup ρ) (e : EnemyData ρ) : EnemyGroup ρ :=
  let g := { g with
    pos := g.pos.add (e.pos.div (max 1 num : ℕ))
    units := if e.isFake then g.units else g.units ++ [e.id] }
  match e.cdef with
  | some d =>
    { g with
      roleCosts := Function.update g.roleCosts d.mainRole (g.roleCosts d.mainRole + e.cost)
      cost := if !d.isMobile || e.isInRadarOrLOS then g.cost + e.cost else g.cost
      threat := g.threat + e.threat * (if d.isMobile then mod.inMobile else mod.inStatic) }
  | none => { g with threat := g.threat + e.threat }

end EnemyGroup

/-! ## K-means -/

section KMeans

variable {ρ : Type*} [DecidableEq ρ]

/-- The loop over the means, from the largest number there is as `closestDistance`; of the numbers here that is `⊤`. -/
def closestIndex (closestDistance : WithTop ℚ) (groups : List (EnemyGroup ρ)) (e : EnemyData ρ) : Option ℕ :=
  (groups.zipIdx.foldl (fun (closest : WithTop ℚ × Option ℕ) gm =>
    let distance := e.pos.sqDistance2D gm.1.pos
    if distance < closest.1 then (distance, some gm.2) else closest) (closestDistance, none)).2

/-- A new mean is put where the first enemy is. -/
def newMeansPosition (hostileDatas peaceDatas : List (EnemyData ρ)) (enemyPos : AIFloat3) : AIFloat3 :=
  ((hostileDatas ++ peaceDatas).head?.map EnemyData.pos).getD enemyPos

/-- `std::vector::resize`. -/
def resize {β : Type*} (l : List β) (n : ℕ) (x : β) : List β := l.take n ++ List.replicate (n - l.length) x

/-- The number of groups. -/
def newK (enemySize : ℕ) : ℕ := min 32 (1 + enemySize.sqrt)

/-- The enemies are added to the groups with the given indices. -/
def addEnemies (mod : InitThrMod) (groups : List (EnemyGroup ρ)) (datas : List (EnemyData ρ))
    (unitsClosestMeanID : List (Option ℕ)) : List (EnemyGroup ρ) :=
  (datas.zip unitsClosestMeanID).foldl (fun groups ei =>
    match ei.2 with
    | some m => groups.modify m (·.addEnemy mod (unitsClosestMeanID.count (some m)) ei.1)
    | none => groups) groups

/-- The first group of maximal threat. -/
def maxThreatIdx (groups : List (EnemyGroup ρ)) : ℕ :=
  (groups.zipIdx.foldl (fun (best : Option (ℚ × ℕ)) gm =>
    if best.all (·.1 < gm.1.threat) then some (gm.1.threat, gm.2) else best) none).elim 0 (·.2)

/-- `KMeansIteration` on the groups that the buffer has. -/
def kMeansIteration (mod : InitThrMod) (hostileDatas peaceDatas : List (EnemyData ρ)) (enemyPos : AIFloat3)
    (enemyGroups : List (EnemyGroup ρ)) : GroupData ρ :=
  let datas := hostileDatas ++ peaceDatas
  let newK := newK datas.length
  let newPos := newMeansPosition hostileDatas peaceDatas enemyPos
  let groups := resize enemyGroups newK (EnemyGroup.new newPos)
  let newMeans := addEnemies mod (groups.map EnemyGroup.clear) datas (datas.map (closestIndex ⊤ groups))
  -- a mean that is left at the origin becomes a new group
  let newMeans := newMeans.map fun g => if g.pos = .zeroVector then EnemyGroup.new newPos else g
  { enemyGroups := newMeans
    enemyPos := ((newMeans.map EnemyGroup.pos).foldl AIFloat3.add AIFloat3.zeroVector).div newK
    maxThreatGroupIdx := maxThreatIdx newMeans }

end KMeans

/-! ## Rounds -/

/-- Where the update is. -/
inductive Worker
  | idle
  | queued
  | prepared
  | finished
  deriving DecidableEq

structure State (ρ : Type*) where
  hostileDatas : List (EnemyData ρ)
  peaceDatas : List (EnemyData ρ)
  groupData : Buffers (GroupData ρ)
  enemyPos : AIFloat3
  maxThreatGroupIdx : ℕ
  isUpdating : Bool
  worker : Worker

namespace State

variable {ρ : Type*} [DecidableEq ρ]

/-- The buffer whose vector `enemyGroups` refers to. -/
def groupSlot : Slot := .first

def getEnemyGroups (s : State ρ) : List (EnemyGroup ρ) := (s.groupData.get groupSlot).enemyGroups

/-- The constructor. -/
def new (enemyPos : AIFloat3) : State ρ where
  hostileDatas := []
  peaceDatas := []
  groupData := ⟨⟨[.new enemyPos], .zeroVector, 0⟩, ⟨[], .zeroVector, 0⟩, .first⟩
  enemyPos := enemyPos
  maxThreatGroupIdx := 0
  isUpdating := false
  worker := .idle

/-- `PrepareUpdate`, as far as it collects the enemies, and `EnqueueUpdate`. -/
def enqueueUpdate (s : State ρ) (hostileDatas peaceDatas : List (EnemyData ρ)) : State ρ :=
  { s with hostileDatas, peaceDatas, isUpdating := true, worker := .queued }

def prepare (s : State ρ) : State ρ :=
  let groupData := s.groupData.get s.groupData.next
  { s with
    groupData := s.groupData.set s.groupData.next
      { groupData with enemyGroups := (s.groupData.get s.groupData.cur).enemyGroups }
    worker := .prepared }

/-- `KMeansIteration` in the next buffer. -/
def update (mod : InitThrMod) (s : State ρ) : State ρ :=
  { s with
    groupData := s.groupData.set s.groupData.next (kMeansIteration mod s.hostileDatas s.peaceDatas s.enemyPos
      (s.groupData.get s.groupData.next).enemyGroups)
    worker := .finished }

/-- `SwapBuffers`: the vectors of `enemyGroups` and of the new current buffer are exchanged. -/
def swapBuffers (s : State ρ) : State ρ :=
  let b := { s.groupData with cur := s.groupData.next }
  let groupData := b.get b.cur
  let own := b.get groupSlot
  { s with
    groupData := (b.set groupSlot { own with enemyGroups := groupData.enemyGroups }).set b.cur
      { groupData with enemyGroups := own.enemyGroups }
    enemyPos := groupData.enemyPos
    maxThreatGroupIdx := groupData.maxThreatGroupIdx }

def apply (s : State ρ) : State ρ := { s.swapBuffers with isUpdating := false, worker := .idle }

end State

end Circuit.Impl.EnemyGroups
