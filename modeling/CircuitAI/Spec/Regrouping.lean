import CircuitAI.Framework.Bins
import CircuitAI.Impl.EnemyGroups

/-!
# Regrouping

What an iteration of k-means is for: every enemy goes to a group whose mean was nearest to it (`nearest`), and the groups
are made anew of the enemies that went to them (`GroupOf`), so that no enemy, cost or threat is lost on the way.
-/

namespace Circuit.Spec.Regrouping

open Circuit.Framework (bin)
open Circuit.Impl.EnemyGroups
open Circuit.Impl.TerrainManager (AIFloat3)

variable {ρ : Type*} [DecidableEq ρ]

/-! ## What an enemy contributes -/

def roleCost (r : ρ) (e : EnemyData ρ) : ℚ :=
  match e.cdef with
  | some d => if d.mainRole = r then e.cost else 0
  | none => 0

/-- Mobile enemies count while they are seen. -/
def cost (e : EnemyData ρ) : ℚ :=
  match e.cdef with
  | some d => if !d.isMobile || e.isInRadarOrLOS then e.cost else 0
  | none => 0

def threat (mod : InitThrMod) (e : EnemyData ρ) : ℚ :=
  match e.cdef with
  | some d => e.threat * (if d.isMobile then mod.inMobile else mod.inStatic)
  | none => e.threat

/-- The ids of the enemies that are real. -/
def ids (l : List (EnemyData ρ)) : List ℤ := (l.filter fun e => !e.isFake).map EnemyData.id

def mean (l : List AIFloat3) : AIFloat3 :=
  ⟨(l.map AIFloat3.x).sum / l.length, (l.map AIFloat3.y).sum / l.length, (l.map AIFloat3.z).sum / l.length⟩

/-! ## Groups -/

structure GroupOf (mod : InitThrMod) (members : List (EnemyData ρ)) (g : EnemyGroup ρ) : Prop where
  units : g.units = ids members
  roleCosts : ∀ r, g.roleCosts r = (members.map (roleCost r)).sum
  cost : g.cost = (members.map cost).sum
  threat : g.threat = (members.map (threat mod)).sum
  pos : members ≠ [] → g.pos = mean (members.map EnemyData.pos)

/-- The result of an iteration that starts with the groups `previous` and puts each enemy into a group. -/
structure Regrouped (mod : InitThrMod) (datas : List (EnemyData ρ)) (previous : List (EnemyGroup ρ))
    (assigned : EnemyData ρ → ℕ) (r : GroupData ρ) : Prop where
  length : r.enemyGroups.length = previous.length
  nearest : ∀ e ∈ datas, ∃ g, previous[assigned e]? = some g ∧
    ∀ g' ∈ previous, e.pos.sqDistance2D g.pos ≤ e.pos.sqDistance2D g'.pos
  group : ∀ (m : ℕ) g, r.enemyGroups[m]? = some g → GroupOf mod (bin assigned datas m) g
  once : (ids datas).Nodup → ∀ e ∈ datas, e.isFake = false →
    ∃! m : ℕ, ∃ g, r.enemyGroups[m]? = some g ∧ e.id ∈ g.units
  roleCosts : ∀ role, (r.enemyGroups.map (·.roleCosts role)).sum = (datas.map (roleCost role)).sum
  cost : (r.enemyGroups.map (·.cost)).sum = (datas.map cost).sum
  threat : (r.enemyGroups.map (·.threat)).sum = (datas.map (threat mod)).sum
  maxThreat : ∃ g, r.enemyGroups[r.maxThreatGroupIdx]? = some g ∧ ∀ g' ∈ r.enemyGroups, g'.threat ≤ g.threat
  enemyPos : r.enemyPos = mean (r.enemyGroups.map EnemyGroup.pos)

/-- Enemies where `CorrectPosition` leaves them, away from the edge of the map. -/
def Placed (l : List (EnemyData ρ)) : Prop := ∀ e ∈ l, 1 ≤ e.pos.x ∧ 1 ≤ e.pos.z

/-- The groups that an iteration starts with: the first ones of the previous list, and new ones if it is too short. -/
def startGroups (hostileDatas peaceDatas : List (EnemyData ρ)) (enemyPos : AIFloat3) (enemyGroups : List (EnemyGroup ρ)) :
    List (EnemyGroup ρ) :=
  resize enemyGroups (newK (hostileDatas ++ peaceDatas).length)
    (.new (newMeansPosition hostileDatas peaceDatas enemyPos))

end Circuit.Spec.Regrouping
