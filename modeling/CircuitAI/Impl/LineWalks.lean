import CircuitAI.Framework.LineWalk
import CircuitAI.Impl.RetreatTask

/-!
# Line walks (`terrain/path/MicroPather.cpp`, `terrain/path/QueryLineMap.cpp`, `task/fighter/SquadTask.cpp`)

`IsStraightLine` of `RefinePath`, `IsSafeLine` and the test made by `GetHitTest` walk along a line and give up at the
first cell that they do not accept. The loop is the same in all of them (`Line.walk`). `RefinePath` looks by bisection for
a late cell of a path that can be reached from the first one along such a line. Heights, costs and positions are exact
rationals. Loops take fuel; `none` stands for a loop that has not ended.
-/

namespace Circuit.Impl

open Circuit.Framework (Line Walk)
open ThreatMap (toInt)

/-! ## Path refinement -/

namespace RetreatTask.PathFinder

variable (graph : PathFinder)

def moveMapXSize : ℤ := graph.pathMapXSize + 2

def moveXY2MoveNode (c : ℤ × ℤ) : ℕ := (c.2 * graph.moveMapXSize + c.1).toNat

def pathIndex2MoveXY (index : ℤ) : ℤ × ℤ :=
  let ty := index.tdiv graph.pathMapXSize
  (index - ty * graph.pathMapXSize + 1, ty + 1)

end RetreatTask.PathFinder

namespace MicroPather

open RetreatTask (PathFinder)

def THREAT_EPSILON : ℚ := 1 / 100

def MOVE_EPSILON : ℚ := 1 / 10

namespace CMicroPather

def canMoveNode2Index (M : MapData) (p : CMicroPather) (node : ℕ) : ℤ :=
  if M.canMoveArray node then (p.pathNodeMem node).index2 else -1

/-- The line between the cells of two path indices, in the move map. -/
def moveLine (graph : PathFinder) (index₀ index : ℤ) : Line :=
  let (x0, y0) := graph.pathIndex2MoveXY index₀
  let (x1, y1) := graph.pathIndex2MoveXY index
  ⟨x0, y0, x1, y1⟩

/-- The lambda `IsStraightLine`, for a path that starts at `index₀`. -/
def isStraightLine (graph : PathFinder) (M : MapData) (p : CMicroPather) (fuel : ℕ) (index₀ index : ℤ) : Option Walk :=
  let moveCost := M.moveFun index₀ + MOVE_EPSILON
  (moveLine graph index₀ index).walk (fun c =>
    let idx := p.canMoveNode2Index M (graph.moveXY2MoveNode c)
    !decide (idx < 0 ∨ M.threatArray idx > THREAT_EPSILON ∨ M.moveFun idx > moveCost)) fuel

/-- `while (l <= r)`; `l` is at least 1. -/
def refineLoop (test : ℕ → Option Bool) : ℕ → ℕ → ℕ → Option ℕ
  | 0, _, _ => none
  | fuel + 1, l, r =>
    if l ≤ r then
      let m := (l + r) / 2
      (test m).bind fun ok => if ok then refineLoop test fuel (m + 1) r else refineLoop test fuel l (m - 1)
    else some (l - 1)

/-- `RefinePath`; a path has its start and its end. -/
def refinePath (graph : PathFinder) (M : MapData) (p : CMicroPather) (fuel : ℕ) (path : List ℤ) : Option ℕ :=
  if M.threatArray (path.getD 0 0) > THREAT_EPSILON then some 0
  else
    refineLoop (fun m => (p.isStraightLine graph M fuel (path.getD 0 0) (path.getD m 0)).map (·.clear))
      fuel 1 (path.length - 1)

end CMicroPather

end MicroPather

/-! ## Safe lines -/

/-- What `IsSafeLine` reads of a `CQueryLineMap`. -/
structure QueryLineMap where
  threatXSize : ℤ
  squareSize : ℤ
  canMoveArray : ℤ → Bool
  threatArray : ℤ → ℚ

namespace QueryLineMap

open RetreatTask (Pos)

def THREAT_BASE : ℚ := 0

def line (q : QueryLineMap) (startPos endPos : Pos) : Line where
  x0 := toInt (startPos.x / q.squareSize)
  y0 := toInt (startPos.z / q.squareSize)
  x1 := toInt (endPos.x / q.squareSize)
  y1 := toInt (endPos.z / q.squareSize)

def isSafeLine (q : QueryLineMap) (fuel : ℕ) (startPos endPos : Pos) : Option Walk :=
  (q.line startPos endPos).walk (fun c =>
    let index2 := c.2 * q.threatXSize + c.1
    -- +2 for edges
    let index := (c.2 + 1) * (q.threatXSize + 2) + c.1 + 1
    !(!q.canMoveArray index || decide (q.threatArray index2 > THREAT_BASE))) fuel

end QueryLineMap

/-! ## Hit tests -/

namespace SquadTask

/-- What the test of `GetHitTest` reads: the sectors, and the height of the leader. -/
structure HitTest where
  maxElevation : ℤ → ℚ
  sectorXSize : ℤ
  height : ℚ

namespace HitTest

def SQUARE_SIZE : ℚ := 8

variable (t : HitTest)

def elevation (c : ℤ × ℤ) : ℚ := t.maxElevation (c.2 * t.sectorXSize + c.1)

def losTest (fuel : ℕ) (first last : ℤ × ℤ) : Option Walk :=
  let aimLift := t.height / 2
  let startHeight := t.elevation first + aimLift
  let diffHeight := t.elevation last + SQUARE_SIZE - startHeight
  let line : Line := ⟨first.1, first.2, last.1, last.2⟩
  line.walk (fun c =>
    let s : ℚ := |if line.dx > -line.dy then ((c.1 - first.1 : ℤ) : ℚ) / line.dx else ((c.2 - first.2 : ℤ) : ℚ) / line.dy|
    !decide (t.elevation c > diffHeight * s + startHeight)) fuel

end HitTest

end SquadTask

end Circuit.Impl
