import Mathlib.Algebra.Order.Ring.Rat
import Mathlib.Data.Fin.VecNotation

/-!
# The path finder (`terrain/path/MicroPather.{h,cpp}`)

`CMicroPather` keeps one `PathNode` for each cell of the move map (the path map with a one-cell edge) and reuses the nodes
from search to search: a node whose `frame` is not the pather's is stale. A pointer to a node is its index in
`pathNodeMem`. `float`s are exact rationals. The three searches run one loop (`searchLoop`): pop the cheapest node of the
open queue, stop if it is a goal, else look at its eight neighbours. What differs is a `Rules` and the goal test. The loop
takes fuel; `none` stands for a search that has not ended yet.
-/

namespace Circuit.Impl.MicroPather

/-- `SQRT_2` of `util/Defines.h`. -/
def SQRT_2 : ℚ := 14142 / 10000

/-- The largest `float`. -/
def FLT_MAX : ℚ := (2 ^ 24 - 1) * 2 ^ 104

def FLT_BIG : ℚ := FLT_MAX / 2

def COST_BASE : ℚ := 1

structure PathNode where
  myIndex : Nat
  x2 : Int
  y2 : Int
  index2 : Int
  costFromStart : ℚ
  totalCost : ℚ
  parent : Option Nat
  inOpen : Bool
  inClosed : Bool
  isEndNode : Bool
  frame : Nat

/-- `PathNode::Init`; `myIndex` is left as it was. -/
def PathNode.init (myIndex : Nat) (x y index2 : Int) (frame : Nat) (costFromStart : ℚ) : PathNode :=
  { myIndex, x2 := x, y2 := y, index2, costFromStart, totalCost := costFromStart, parent := none,
    inOpen := false, inClosed := false, isEndNode := false, frame := frame % 2 ^ 16 }

def PathNode.reuse (n : PathNode) (frame : Nat) : PathNode :=
  { n with
    costFromStart := FLT_BIG / 2
    parent := none
    frame := frame % 2 ^ 16
    inOpen := false
    inClosed := false }

/-! ## The open queue -/

/-- A binary heap of nodes, in positions `1 … size`, over the node memory its pointers lead to. -/
structure OpenQueueBH where
  nodes : Nat → PathNode
  heapArray : Nat → Nat
  size : Nat

namespace OpenQueueBH

/-- The total cost of the node at a position. -/
def key (q : OpenQueueBH) (i : Nat) : ℚ := (q.nodes (q.heapArray i)).totalCost

/-- A write to one node. -/
def modify (q : OpenQueueBH) (v : Nat) (f : PathNode → PathNode) : OpenQueueBH :=
  { q with nodes := Function.update q.nodes v (f (q.nodes v)) }

/-- `swap them`: the nodes at the positions `p` and `i`, and their indices. -/
def swap (q : OpenQueueBH) (p i : Nat) : OpenQueueBH :=
  let temp := q.heapArray p
  let heapArray := Function.update (Function.update q.heapArray p (q.heapArray i)) i temp
  let q := { q with heapArray }
  let q := q.modify temp fun n => { n with myIndex := i }
  q.modify (q.heapArray p) fun n => { n with myIndex := p }

/-- The loop of `Push` and of `Update`. Each turn halves `i`, so `i` turns are enough. -/
def siftUp : Nat → OpenQueueBH → Nat → OpenQueueBH
  | 0, q, _ => q
  | fuel + 1, q, i =>
    if i > 1 ∧ q.key (i / 2) > q.key i then siftUp fuel (q.swap (i / 2) i) (i / 2) else q

def push (q : OpenQueueBH) (v : Nat) : OpenQueueBH :=
  let q := q.modify v fun n => { n with inOpen := true }
  if q.size > 0 then
    let q := { q with size := q.size + 1, heapArray := Function.update q.heapArray (q.size + 1) v }
    let q := q.modify v fun n => { n with myIndex := q.size }
    siftUp q.size q q.size
  else
    let q := { q with size := q.size + 1, heapArray := Function.update q.heapArray 1 v }
    q.modify v fun n => { n with myIndex := q.size }

def update (q : OpenQueueBH) (v : Nat) : OpenQueueBH :=
  if q.size > 1 then siftUp (q.nodes v).myIndex q (q.nodes v).myIndex else q

/-- The smallest of a position and its children. -/
def smalest (q : OpenQueueBH) (index : Nat) : Nat :=
  let left := index * 2
  let right := index * 2 + 1
  let s := if left ≤ q.size ∧ q.key left < q.key index then left else index
  if right ≤ q.size ∧ q.key right < q.key s then right else s

/-- The loop of `Pop`. Each turn at least doubles `index`, so `size` turns are enough. -/
def siftDown : Nat → OpenQueueBH → Nat → OpenQueueBH
  | 0, q, _ => q
  | fuel + 1, q, index =>
    let s := q.smalest index
    if s ≠ index then siftDown fuel (q.swap index s) s else q

def pop (q : OpenQueueBH) : Nat × OpenQueueBH :=
  let min := q.heapArray 1
  let q := q.modify min fun n => { n with inOpen := false }
  let q := { q with heapArray := Function.update q.heapArray 1 (q.heapArray q.size), size := q.size - 1 }
  if q.size = 0 then (min, q)
  else
    let q := q.modify (q.heapArray 1) fun n => { n with myIndex := 1 }
    (min, siftDown q.size q 1)

end OpenQueueBH

/-! ## The search loop -/

/-- What `SetMapData` hands to a search. -/
structure MapData where
  canMoveArray : Nat → Bool
  threatArray : Int → ℚ
  moveFun : Int → ℚ
  threatFun : Int → ℚ

/-- Where a search may step, what a step costs, and what it expects to pay from there on. -/
structure Rules where
  canMoveArray : Nat → Bool
  skip : Int → Bool
  nodeCost : Int → ℚ
  estimate : Int → Int → ℚ

/-- The fixed offset array: the four sides, then the four corners. -/
def offsets (mapSizeX : Nat) : Fin 8 → Int :=
  ![-1, 1, mapSizeX, -mapSizeX, -mapSizeX - 1, -mapSizeX + 1, mapSizeX - 1, mapSizeX + 1]

/-- The body of the loop over the neighbours of `node`, at `nodeCostFromStart` from the start. -/
def visit (R : Rules) (mapSizeX frame node : Nat) (nodeCostFromStart : ℚ) (q : OpenQueueBH) (i : Fin 8) : OpenQueueBH :=
  let indexEnd := (offsets mapSizeX i + node).toNat
  if !R.canMoveArray indexEnd then q
  else
    let index2 := (q.nodes indexEnd).index2
    if R.skip index2 then q
    else
      let q := if (q.nodes indexEnd).frame ≠ frame then q.modify indexEnd fun n => n.reuse frame else q
      let nodeCost := R.nodeCost index2
      let newCost := nodeCostFromStart + if i > 3 then nodeCost * SQRT_2 else nodeCost
      if (q.nodes indexEnd).costFromStart ≤ newCost then q
      else
        let q := q.modify indexEnd fun n =>
          { n with
            parent := some node
            costFromStart := newCost
            totalCost := newCost + R.estimate n.x2 n.y2 }
        if (q.nodes indexEnd).inOpen then q.update indexEnd
        else (q.modify indexEnd fun n => { n with inClosed := false }).push indexEnd

/-- A popped node that is no goal: its neighbours, then its own mark. -/
def expand (R : Rules) (mapSizeX frame node : Nat) (q : OpenQueueBH) : OpenQueueBH :=
  let q := (List.finRange 8).foldl (visit R mapSizeX frame node (q.nodes node).costFromStart) q
  q.modify node fun n => { n with inClosed := true }

/-- `while (!open.Empty())`: the goal reached, if any, the queue and node memory left, and what
`onPop` made of the nodes popped. -/
def searchLoop {α : Type} (R : Rules) (mapSizeX frame : Nat) (goal : Nat → PathNode → Bool)
    (onPop : α → PathNode → α) : Nat → OpenQueueBH → α → Option (Option Nat × OpenQueueBH × α)
  | 0, q, a => if q.size = 0 then some (none, q, a) else none
  | fuel + 1, q, a =>
    if q.size = 0 then some (none, q, a)
    else
      let (node, q) := q.pop
      if goal node (q.nodes node) then some (some node, q, a)
      else
        searchLoop R mapSizeX frame goal onPop fuel (expand R mapSizeX frame node q)
          (onPop a (q.nodes node))

/-! ## The pather -/

inductive Status where
  | SOLVED
  | NO_SOLUTION
  | START_END_SAME
  deriving DecidableEq, Repr

structure CMicroPather where
  mapSizeX : Nat
  mapSizeY : Nat
  isRunning : Bool
  pathNodeMem : Nat → PathNode
  heapArrayMem : Nat → Nat
  frame : Nat

namespace CMicroPather

/-- The constructor, for a path map of `sizeX × sizeY` cells; `junk` is what `malloc` leaves in
the fields that nothing sets. -/
def new (sizeX sizeY : Nat) (junk : Nat → Nat) : CMicroPather where
  mapSizeX := sizeX + 2
  mapSizeY := sizeY + 2
  isRunning := false
  pathNodeMem := fun i =>
    let mapSizeX := sizeX + 2
    let y : Int := (i / mapSizeX : Nat)
    let x : Int := i - y * mapSizeX
    PathNode.init (junk i) x y ((y - 1) * (mapSizeX - 2) + x - 1) 0 FLT_BIG
  heapArrayMem := junk
  frame := 0

/-- `Reset`: the loop runs over the whole node memory. -/
def reset (p : CMicroPather) : CMicroPather :=
  { p with pathNodeMem := fun i => (p.pathNodeMem i).reuse 0, frame := 1 }

/-- `++frame`, and `Reset` before it outgrows 16 bits. -/
def nextFrame (p : CMicroPather) : CMicroPather :=
  let p := { p with frame := (p.frame + 1) % 2 ^ 32 }
  if p.frame > 65534 then p.reset else p

/-- `DiagonalDistance`; the constant is `2 - SQRT_2`. -/
def diagonalDistance (xStart yStart xEnd yEnd : Int) : ℚ :=
  let dx := |xStart - xEnd|
  let dy := |yStart - yEnd|
  ((dx + dy : Int) : ℚ) - 5858 / 10000 * ((min dx dy : Int) : ℚ)

/-- The column and the row of a node. -/
def xy (p : CMicroPather) (node : Nat) : Nat × Nat := (node - node / p.mapSizeX * p.mapSizeX, node / p.mapSizeX)

/-- `no node can be at the edge!` -/
def unedge (size a : Nat) : Nat := if a = 0 then 1 else if a = size - 1 then size - 2 else a

def fixNode (p : CMicroPather) (node : Nat) : Nat :=
  unedge p.mapSizeY (p.xy node).2 * p.mapSizeX + unedge p.mapSizeX (p.xy node).1

def openStart (p : CMicroPather) (startNode : Nat) (estToGoal : ℚ) : OpenQueueBH :=
  let q : OpenQueueBH := { nodes := p.pathNodeMem, heapArray := p.heapArrayMem, size := 0 }
  let q := q.modify startNode fun n => { n.reuse p.frame with costFromStart := 0, totalCost := estToGoal }
  q.push startNode

/-- The pather once a search has left its queue and nodes. -/
def close (p : CMicroPather) (q : OpenQueueBH) : CMicroPather :=
  { p with isRunning := false, pathNodeMem := q.nodes, heapArrayMem := q.heapArray }

def markEnds (nodes : Nat → PathNode) (endNodes : List Nat) (b : Bool) : Nat → PathNode :=
  endNodes.foldl (fun m v => Function.update m v { m v with isEndNode := b }) nodes

def chain (nodes : Nat → PathNode) : Nat → Nat → Option (List Nat)
  | 0, _ => none
  | fuel + 1, it =>
    match (nodes it).parent with
    | none => some [it]
    | some p => (chain nodes fuel p).map (it :: ·)

/-- `GoalReached`: the path in cells of the path map. -/
def goalReached (nodes : Nat → PathNode) (fuel node start goal : Nat) : Option (List Int) :=
  if start = goal then some [(nodes start).index2]
  else
    (chain nodes fuel node).map fun c =>
      if c.length < 3 then [(nodes start).index2, (nodes node).index2]
      else
        (nodes start).index2 :: c.tail.dropLast.reverse.map (fun v => (nodes v).index2) ++
          [(nodes node).index2]

/-- What a path search leaves in its return value and in `path` and `cost`. -/
structure PathResult where
  status : Status
  path : List Int
  cost : ℚ
  deriving DecidableEq

/-- The rules of the two path searches. -/
def pathRules (M : MapData) (maxThreat : ℚ) (xEndNode yEndNode : Int) : Rules where
  canMoveArray := M.canMoveArray
  skip index2 := M.threatArray index2 > maxThreat
  nodeCost index2 := COST_BASE + M.moveFun index2 + M.threatFun index2
  estimate x2 y2 := diagonalDistance x2 y2 xEndNode yEndNode

/-- The rules of `MakeCostMap`. -/
def costRules (M : MapData) : Rules where
  canMoveArray := M.canMoveArray
  skip _ := false
  nodeCost index2 := COST_BASE + M.threatArray index2
  estimate _ _ := 0

/-- The search of both path searches, from a fixed start towards a fixed end, and its result. -/
def solve (M : MapData) (maxThreat : ℚ) (fuel startNode endNode : Nat) (endNodes : List Nat)
    (goal : Nat → PathNode → Bool) (path : List Int) (p : CMicroPather) : Option (PathResult × CMicroPather) :=
  let (xEndNode, yEndNode) := p.xy endNode
  let R := pathRules M maxThreat xEndNode yEndNode
  let p := p.nextFrame
  let (x, y) := p.xy startNode
  let q := p.openStart startNode (R.estimate x y)
  let q := { q with nodes := markEnds q.nodes endNodes true }
  match searchLoop R p.mapSizeX p.frame goal (fun _ _ => ()) fuel q () with
  | none => none
  | some (none, q, _) =>
    let q := { q with nodes := markEnds q.nodes endNodes false }
    some (⟨.NO_SOLUTION, path, 0⟩, p.close q)
  | some (some node, q, _) =>
    (goalReached q.nodes fuel node startNode node).map fun path =>
      let cost := (q.nodes node).costFromStart
      let q := { q with nodes := markEnds q.nodes endNodes false }
      (⟨.SOLVED, path, cost⟩, p.close q)

/-- The rows of the disc, and the test of a popped node: the box, the disc, then `hitTest`, both
cells without the edges. -/
def inRadius (p : CMicroPather) (endNode : Nat) (radius : Int) (hitTest : Int × Int → Int × Int → Bool)
    (node : Nat) : Bool :=
  let x : Int := (p.xy endNode).1
  let y : Int := (p.xy endNode).2
  let xstart : Int := (p.xy node).1
  let ystart : Int := (p.xy node).2
  let xend : Int → Int := fun a =>
    let z := a - radius
    Nat.sqrt (radius * radius - z * z).toNat
  let relativeY := ystart - (y - radius)
  let relativeX := |xstart - x|
  (y - radius ≤ ystart ∧ ystart ≤ y + radius) ∧ (x - radius ≤ xstart ∧ xstart ≤ x + radius) ∧
    relativeX ≤ xend relativeY ∧ hitTest (xstart - 1, ystart - 1) (x - 1, y - 1)

def findBestPathToPointOnRadius (M : MapData) (fuel startNode endNode : Nat) (radius : Int) (maxThreat : ℚ)
    (hitTest : Int × Int → Int × Int → Bool) (path : List Int) (p : CMicroPather) :
    Option (PathResult × CMicroPather) :=
  if p.isRunning then none
  else if radius ≤ 0 then some (⟨.NO_SOLUTION, path, 0⟩, p)
  else
    let startNode := p.fixNode startNode
    let endNode := p.fixNode endNode
    solve M maxThreat fuel startNode endNode [] (fun v _ => p.inRadius endNode radius hitTest v) path p

/-- `select best goal node`: the target nearest to the start, which is not fixed yet; the first
end node if there is none. -/
def bestGoal (p : CMicroPather) (startNode endNode : Nat) (targets : List Nat) : Nat :=
  let (xStart, yStart) := p.xy startNode
  (targets.foldl (fun (best : Nat × ℚ) target =>
    let target := p.fixNode target
    let (x, y) := p.xy target
    let cost := diagonalDistance xStart yStart x y
    if best.2 > cost then (target, cost) else best) (endNode, FLT_MAX)).1

def findBestPathToAnyGivenPoint (M : MapData) (fuel startNode : Nat) (endNodes targets : List Nat)
    (maxThreat : ℚ) (path : List Int) (p : CMicroPather) : Option (PathResult × CMicroPather) :=
  if p.isRunning then none
  else
    match endNodes with
    | [] => some (⟨.NO_SOLUTION, path, 0⟩, p)
    | endNode :: _ =>
      let endNode := p.fixNode (p.bestGoal startNode endNode targets)
      let startNode := p.fixNode startNode
      solve M maxThreat fuel startNode endNode (endNodes.map p.fixNode) (fun _ n => n.isEndNode) path p

def makeCostMap (M : MapData) (fuel startNode : Nat) (costMap : Int → ℚ) (p : CMicroPather) :
    Option ((Int → ℚ) × CMicroPather) :=
  if p.isRunning then none
  else
    let startNode := p.fixNode startNode
    let p := p.nextFrame
    let q := p.openStart startNode 0
    match searchLoop (costRules M) p.mapSizeX p.frame (fun _ _ => false)
        (fun m n => Function.update m n.index2 n.costFromStart) fuel q costMap with
    | none => none
    | some (_, q, costMap) => some (costMap, p.close q)

end CMicroPather

/-! ## Histories -/

/-- A call of one of the three searches, with the map data set for it. -/
inductive Query where
  | pointOnRadius (M : MapData) (startNode endNode : Nat) (radius : Int) (maxThreat : ℚ)
      (hitTest : Int × Int → Int × Int → Bool) (path : List Int)
  | anyGivenPoint (M : MapData) (startNode : Nat) (endNodes targets : List Nat) (maxThreat : ℚ) (path : List Int)
  | costMap (M : MapData) (startNode : Nat) (costMap : Int → ℚ)

inductive Answer where
  | path (r : CMicroPather.PathResult)
  | costs (costMap : Int → ℚ)

def Query.run (fuel : Nat) : Query → CMicroPather → Option (Answer × CMicroPather)
  | .pointOnRadius M startNode endNode radius maxThreat hitTest path, p =>
    (p.findBestPathToPointOnRadius M fuel startNode endNode radius maxThreat hitTest path).map
      fun r => (.path r.1, r.2)
  | .anyGivenPoint M startNode endNodes targets maxThreat path, p =>
    (p.findBestPathToAnyGivenPoint M fuel startNode endNodes targets maxThreat path).map fun r => (.path r.1, r.2)
  | .costMap M startNode costs, p => (p.makeCostMap M fuel startNode costs).map fun r => (.costs r.1, r.2)

/-- A pather for a path map of `sizeX × sizeY` cells, after any searches that have ended. -/
inductive Reachable (sizeX sizeY : Nat) : CMicroPather → Prop
  | new (junk : Nat → Nat) : Reachable sizeX sizeY (.new sizeX sizeY junk)
  | search {p p' : CMicroPather} {fuel : Nat} {Q : Query} {a : Answer} :
      Reachable sizeX sizeY p → Q.run fuel p = some (a, p') → Reachable sizeX sizeY p'

end Circuit.Impl.MicroPather
