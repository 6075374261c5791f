import CircuitAI.Impl.MicroPather
import CircuitAI.Impl.ThreatMap

/-!
# The choice of a repairer (`task/RetreatTask.cpp`, `terrain/path/QueryCostMap.cpp`)

A unit that retreats has a cost map made from where it is. When the map is ready, `ApplyCostMap` reads the cost of the
unit's destination off it (`GetCostAt`: the cheapest of eight points around it, -1 if none can be reached), and a second
cost, and makes the candidate the repairer if the second one is lower. Positions and ranges are exact rationals.
`ValidateNewRepairer` is part of the model of the tasks.
-/

namespace Circuit.Impl.RetreatTask

open ThreatMap (toInt)

def ISQRT_2 : ℚ := 1 / MicroPather.SQRT_2

/-- An `AIFloat3`, without its height. -/
structure Pos where
  x : ℚ
  z : ℚ

/-! ## Costs around a position -/

/-- What is read of the `CPathFinder`. -/
structure PathFinder where
  squareSize : ℕ
  pathMapXSize : ℕ
  pathMapYSize : ℕ
  squareSize_pos : 0 < squareSize

namespace PathFinder

variable (P : PathFinder)

def pos2PathXY (pos : Pos) : ℤ × ℤ := (toInt (pos.x / P.squareSize), toInt (pos.z / P.squareSize))

def pos2MoveNode (pos : Pos) : ℕ :=
  (toInt (pos.z / P.squareSize + 1) * (P.pathMapXSize + 2) + toInt (pos.x / P.squareSize + 1)).toNat

def pathXY2PathIndex (c : ℤ × ℤ) : ℤ := c.2 * P.pathMapXSize + c.1

def isWithin (c : ℤ × ℤ) (radius : ℤ) : Bool :=
  (radius ≤ c.1 ∧ c.1 ≤ P.pathMapXSize - 1 - radius) ∧ radius ≤ c.2 ∧ c.2 ≤ P.pathMapYSize - 1 - radius

def isInPathMap (c : ℤ × ℤ) : Bool :=
  (0 ≤ c.1 ∧ c.1 ≤ P.pathMapXSize - 1) ∧ 0 ≤ c.2 ∧ c.2 ≤ P.pathMapYSize - 1

/-- The eight points of `GetCostAt`. -/
def ring (c : ℤ × ℤ) (radius : ℤ) : List (ℤ × ℤ) :=
  let r2 := toInt (radius * ISQRT_2 + 1)
  [(c.1 - radius, c.2), (c.1 + radius, c.2), (c.1, c.2 - radius), (c.1, c.2 + radius),
    (c.1 - r2, c.2 - r2), (c.1 + r2, c.2 - r2), (c.1 - r2, c.2 + r2), (c.1 + r2, c.2 + r2)]

/-- The two functions `minCost`: the second one, for rings that may leave the map, tests each point. -/
def minCost (isInside : Bool) (costMap : ℤ → ℚ) (cost : ℚ) (c : ℤ × ℤ) : ℚ :=
  if !isInside && !P.isInPathMap c then cost
  else
    let costR := costMap (P.pathXY2PathIndex c)
    if cost < 0 then costR
    else if costR < 0 then cost
    else min cost costR

def getCostAt (costMap : ℤ → ℚ) (endPos : Pos) (radius : ℤ) : ℚ :=
  let radius := radius.tdiv P.squareSize
  let c := P.pos2PathXY endPos
  (ring c radius).foldl (P.minCost (P.isWithin c radius) costMap) (-1)

/-- A read of the cost map at a cell; there is nothing to read outside the map. -/
def readCost (costMap : ℤ → ℚ) (c : ℤ × ℤ) : Option ℚ :=
  if P.isInPathMap c then some (costMap (P.pathXY2PathIndex c)) else none

/-- `minCost` with its reads checked. -/
def readMinCost (isInside : Bool) (costMap : ℤ → ℚ) (cost : ℚ) (c : ℤ × ℤ) : Option ℚ :=
  if !isInside && !P.isInPathMap c then some cost
  else
    (P.readCost costMap c).map fun costR =>
      if cost < 0 then costR
      else if costR < 0 then cost
      else min cost costR

/-- `GetCostAt` with its reads checked, for either choice of `minCost`. -/
def readCostAt (isInside : Bool) (costMap : ℤ → ℚ) (endPos : Pos) (radius : ℤ) : Option ℚ :=
  (ring (P.pos2PathXY endPos) (radius.tdiv P.squareSize)).foldlM (P.readMinCost isInside costMap) (-1)

end PathFinder

/-! ## The task -/

/-- What `ApplyCostMap` reads of the game. -/
structure Game (U : Type*) where
  pathfinder : PathFinder
  pos : U → Pos
  isMobile : U → Bool
  closestHaven : U → Option Pos
  basePos : Pos
  buildDistance : ℚ
  buildDistance_nonneg : 0 ≤ buildDistance

structure CRetreatTask (U : Type*) where
  repairer : Option U

namespace CRetreatTask

variable {U : Type*} (g : Game U)

/-- Where the unit is going, and how close it has to get. -/
def destination (t : CRetreatTask U) (unit : U) : Pos × ℚ :=
  match t.repairer with
  | some repairer => (g.pos repairer, g.pathfinder.squareSize)
  | none => ((g.closestHaven unit).getD g.basePos, g.buildDistance * (6 / 10) + g.pathfinder.squareSize)

def applyCostMap (costMap : ℤ → ℚ) (unit newRep : U) (t : CRetreatTask U) : CRetreatTask U :=
  let (endPos, range) := t.destination g unit
  let prevCost := g.pathfinder.getCostAt costMap endPos (toInt range)
  let prevCost := if t.repairer.any g.isMobile then prevCost / 2 else prevCost
  -- the cost around the retreating unit, not around the candidate
  let nextCost := g.pathfinder.getCostAt costMap (g.pos unit) (toInt range)
  let nextCost := if g.isMobile unit then nextCost / 2 else nextCost
  if prevCost > nextCost then { t with repairer := some newRep } else t

end CRetreatTask

end Circuit.Impl.RetreatTask
