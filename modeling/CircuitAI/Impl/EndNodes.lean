import CircuitAI.Impl.LineWalks

/-!
# The end nodes of a search for many targets (`CPathFinder::FindBestPath`)

The cells around each target at the range of the unit. `FindBestPath` lists their offsets once, in a vector of ten slots
for each cell of the radius: a quarter of the ring row by row (`putRow`), its image below, and the image of both on the
other side (`putCopies`). Then it collects, target by target, the cells on the map that pass the hit test. Square roots
are exact before they are truncated. A write or a read past the end of the vector is `none`.
-/

namespace Circuit.Impl.EndNodes

open MicroPather RetreatTask List
open ThreatMap (toInt)

/-! ## Offsets -/

/-- The vector `offsets`, and the next slot to be written. -/
structure Offsets where
  offsets : List (ℤ × ℤ)
  index : ℕ
  deriving DecidableEq

namespace Offsets

def put (s : Offsets) (o : ℤ × ℤ) : Option Offsets :=
  if s.index < s.offsets.length then some ⟨s.offsets.set s.index o, s.index + 1⟩ else none

def xend (radius a : ℕ) : ℕ :=
  let z : ℤ := a - radius
  Nat.sqrt (radius * radius - z * z).toNat

/-- The loop over the cells of the row `a`. -/
def putRow (radius : ℕ) (s : Offsets) (a : ℕ) : Option Offsets :=
  let endPosIdx := xend radius a
  let startPosIdx := xend radius (a - 1)
  (range' startPosIdx (endPosIdx + 1 - startPosIdx)).foldlM (fun s (x : ℕ) => s.put ((x : ℤ), (a : ℤ))) s

/-- A loop that appends images of the first `n` offsets. -/
def putCopies (image : ℤ × ℤ → ℤ × ℤ) (n : ℕ) (s : Offsets) : Option Offsets :=
  (range n).foldlM (fun s a => s.offsets[a]?.bind fun o => s.put (image o)) s

/-- The last loop: rows are counted from the centre. -/
def centre (radius : ℕ) (s : Offsets) : Offsets :=
  { s with offsets := s.offsets.mapIdx fun a o => if a < s.index then (o.1, o.2 - radius) else o }

def make (radius : ℕ) : Option Offsets := do
  let doubleRadius := radius * 2
  let s ← put ⟨replicate (doubleRadius * 5) (0, 0), 0⟩ (0, 0)
  let s ← (range' 1 radius).foldlM (putRow radius) s
  let s ← s.putCopies (fun o => (o.1, doubleRadius - o.2)) (s.index - 2)
  let s ← s.putCopies (fun o => (-o.1, o.2)) s.index
  return s.centre radius

/-- The first `offsetSize` offsets. -/
def entries (s : Offsets) : List (ℤ × ℤ) := s.offsets.take s.index

end Offsets

/-! ## End nodes -/

/-- The ends of the map. -/
structure Bounds where
  maxxpos : ℚ
  maxzpos : ℚ

/-- `CTerrainData::CorrectPosition`. -/
def correctPosition (b : Bounds) (pos : Pos) : Pos where
  x := if pos.x < 1 then 1 else if pos.x > b.maxxpos - 2 then b.maxxpos - 2 else pos.x
  z := if pos.z < 1 then 1 else if pos.z > b.maxzpos - 2 then b.maxzpos - 2 else pos.z

def moveNode2MoveXY (P : PathFinder) (node : ℕ) : ℤ × ℤ :=
  let y := node / (P.pathMapXSize + 2)
  ((node : ℤ) - y * (P.pathMapXSize + 2), y)

/-- The cells of a target that are not on the edge of the move map and pass the hit test, which counts cells of the path
map. -/
def isEndCell (P : PathFinder) (hitTest : ℤ × ℤ → ℤ × ℤ → Bool) (target c : ℤ × ℤ) : Bool :=
  (1 ≤ c.1 ∧ c.1 < P.pathMapXSize + 2 - 1) && (1 ≤ c.2 ∧ c.2 < P.pathMapYSize + 2 - 1) &&
    hitTest (c.1 - 1, c.2 - 1) (target.1 - 1, target.2 - 1)

/-- What the loop over the targets leaves: the marks in the node memory, `nodeTargets` and `endNodes`. -/
structure Ends where
  nodes : ℕ → PathNode
  nodeTargets : List ℕ
  endNodes : List ℕ

variable (P : PathFinder) (b : Bounds) (hitTest : ℤ × ℤ → ℤ × ℤ → Bool)

def targetNode (f : Pos) : ℕ := P.pos2MoveNode (correctPosition b f)

/-- A turn of the loop over the targets. -/
def addTarget (offsets : List (ℤ × ℤ)) (e : Ends) (f : Pos) : Ends :=
  let node := targetNode P b f
  if (e.nodes node).isEndNode then e
  else
    let c := moveNode2MoveXY P node
    let cells := (offsets.map fun o => (c.1 + o.1, c.2 + o.2)).filter (isEndCell P hitTest c)
    { nodes := Function.update e.nodes node { e.nodes node with isEndNode := true }
      nodeTargets := e.nodeTargets ++ [node]
      endNodes := e.endNodes ++ cells.map P.moveXY2MoveNode ++ [P.moveXY2MoveNode c] }

def addTargets (offsets : List (ℤ × ℤ)) (nodes : ℕ → PathNode) (possibleTargets : List Pos) : Ends :=
  possibleTargets.foldl (addTarget P b hitTest offsets) ⟨nodes, [], []⟩

/-- `FindBestPath` up to the path; a query with a range below a square is left as it is. -/
def findBestPath (M : MapData) (fuel : ℕ) (startPos : Pos) (possibleTargets : List Pos) (maxRange maxThreat : ℚ)
    (r : CMicroPather.PathResult) (p : CMicroPather) : Option (CMicroPather.PathResult × CMicroPather) := do
  if maxRange < P.squareSize then return (r, p)
  let s ← Offsets.make (toInt (maxRange / P.squareSize)).toNat
  let e := addTargets P b hitTest s.entries p.pathNodeMem possibleTargets
  let p := { p with pathNodeMem := CMicroPather.markEnds e.nodes e.nodeTargets false }
  p.findBestPathToAnyGivenPoint M fuel (P.pos2MoveNode (correctPosition b startPos)) e.endNodes e.nodeTargets maxThreat []

end Circuit.Impl.EndNodes
