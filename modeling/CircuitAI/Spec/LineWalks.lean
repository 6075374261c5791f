import CircuitAI.Impl.LineWalks

/-!
# Straight lines and clear shortcuts

What a loop along a line is for: it visits the cells of a straight walk of king moves from one end to the other, unless it
finds a cell that it does not accept. A shortcut of a path (`Shortcut`) goes straight from its first cell to a later one,
over cells that can be passed, are as good as free of threat, and are not much worse to move on than the first.
-/

namespace Circuit.Spec.LineWalks

open Circuit.Framework (Line Walk)
open Circuit.Impl.RetreatTask (PathFinder)
open Circuit.Impl.MicroPather (MapData CMicroPather THREAT_EPSILON MOVE_EPSILON)

/-- The loop ends on its own. If it rejects no cell it has taken one turn for each column or row between the ends,
whichever are more, each of them a king move, and it is at the end; it never leaves the box of the two ends. -/
def Straight (l : Line) (loop : ℕ → Option Walk) : Prop :=
  ∃ w, (∀ fuel, l.turns < fuel → loop fuel = some w) ∧ (w.clear = true → l.Straight w.visited) ∧
    ∀ c ∈ w.visited, l.InBox c

structure Clear (graph : PathFinder) (M : MapData) (index₀ : ℤ) (c : ℤ × ℤ) : Prop where
  inPathMap : graph.isInPathMap (c.1 - 1, c.2 - 1) = true
  canMove : M.canMoveArray (graph.moveXY2MoveNode c) = true
  threat : M.threatArray (graph.pathXY2PathIndex (c.1 - 1, c.2 - 1)) ≤ THREAT_EPSILON
  move : M.moveFun (graph.pathXY2PathIndex (c.1 - 1, c.2 - 1)) ≤ M.moveFun index₀ + MOVE_EPSILON

def Shortcut (graph : PathFinder) (M : MapData) (p : CMicroPather) (fuel : ℕ) (path : List ℤ) (k : ℕ) : Prop :=
  ∃ w, p.isStraightLine graph M fuel (path.getD 0 0) (path.getD k 0) = some w ∧ w.clear = true ∧
    (CMicroPather.moveLine graph (path.getD 0 0) (path.getD k 0)).Straight w.visited ∧
    ∀ c ∈ w.visited, Clear graph M (path.getD 0 0) c

structure IsPath (graph : PathFinder) (path : List ℤ) : Prop where
  ne_nil : path ≠ []
  inside : ∀ index ∈ path, 0 ≤ index ∧ index < graph.pathMapXSize * graph.pathMapYSize

end Circuit.Spec.LineWalks
