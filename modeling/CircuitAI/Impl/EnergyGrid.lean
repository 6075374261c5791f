import CircuitAI.Framework.QueueSearch
import CircuitAI.Impl.TerrainManager
import Mathlib.Algebra.Order.Ring.Rat

/-!
# The energy grid

The links between metal clusters (`CEnergyLink`) and their upkeep in `CEnergyGrid`. A link holds the pylons near it as a
graph: two pylons are neighbours if their ranges overlap, a pylon and an endpoint if the pylon covers it. The search
`checkConnection` finds out whether the endpoints are connected, and otherwise how far each side reaches.

An `SPylon*` is a `Ref`: those of the endpoints are members of the vertices, those of the pylons are numbered in the order
of their allocation. `distance2D` takes a root, and is a parameter.
-/

namespace Circuit.Impl.EnergyGrid

open Framework
open TerrainManager (AIFloat3)

/-! ## Pylons -/

/-- `SPylon*`: the member `pylon` of a vertex, or an allocated pylon. -/
inductive Ref
  | vertex (i : Bool)
  | pylon (addr : ℕ)
  deriving DecidableEq

structure SPylon where
  pos : AIFloat3
  range : ℚ
  neighbors : List Ref

/-- The pylons by their addresses. -/
abbrev Memory := Ref → SPylon

namespace Memory

def setNeighbors (m : Memory) (r : Ref) (ns : List Ref) : Memory := Function.update m r { m r with neighbors := ns }

/-- Each of two pylons is inserted into the neighbours of the other. -/
def connect (m : Memory) (r q : Ref) : Memory :=
  let m := m.setNeighbors r ((m r).neighbors.insert q)
  m.setNeighbors q ((m q).neighbors.insert r)

def connectAll (near : AIFloat3 → ℚ → Bool) (r : Ref) (qs : List Ref) (m : Memory) : Memory :=
  qs.foldl (fun m q => if near (m q).pos (m q).range then m.connect r q else m) m

/-- A pylon is erased from the neighbours of those of a list. -/
def eraseAll (r : Ref) (qs : List Ref) (m : Memory) : Memory :=
  qs.foldl (fun m q => m.setNeighbors q ((m q).neighbors.filter (· ≠ r))) m

end Memory

/-! ## Links -/

/-- `SVertex`; its `pylon` is in the memory. -/
structure SVertex where
  index : ℤ
  head : Ref

structure CEnergyLink (ι : Type*) where
  vertex : Bool → SVertex
  /-- The vertex that `source` points to; `target` points to the other one. -/
  source : Bool
  memory : Memory
  pylons : List (ι × ℕ)
  /-- The next address. -/
  nextPylon : ℕ
  isFinished : Bool
  invDistance : ℚ
  costMod : ℚ

def minCostMod : ℚ := 1 / 100

/-- The order in which a set of pointers is walked through. -/
structure SetOrder where
  order : List Ref → List Ref
  mem_order : ∀ {l : List Ref} {r : Ref}, r ∈ order l ↔ r ∈ l

namespace CEnergyLink

variable {ι : Type*} [DecidableEq ι]

def target (l : CEnergyLink ι) : Bool := !l.source

def new (distance2D : AIFloat3 → AIFloat3 → ℚ) (idx0 : ℤ) (p0 : AIFloat3) (idx1 : ℤ) (p1 : AIFloat3) :
    CEnergyLink ι where
  vertex i := if i then ⟨idx1, .vertex true⟩ else ⟨idx0, .vertex false⟩
  source := false
  memory r := if r = .vertex true then ⟨p1, 0, []⟩ else ⟨p0, 0, []⟩
  pylons := []
  nextPylon := 0
  isFinished := false
  invDistance := 1 / distance2D p0 p1
  costMod := 1

def addPylon (l : CEnergyLink ι) (unitId : ι) (pos : AIFloat3) (range : ℚ) : CEnergyLink ι :=
  if unitId ∈ l.pylons.map (·.1) then l
  else
    let pylon0 := Ref.pylon l.nextPylon
    let m : Memory := Function.update l.memory pylon0 ⟨pos, range, []⟩
    let m := m.connectAll (fun pos1 range1 => pos.sqDistance2D pos1 < (range + range1) ^ 2) pylon0
      (l.pylons.map (.pylon ·.2))
    let m := m.connectAll (fun pos1 _ => pos1.sqDistance2D pos < range ^ 2) pylon0 [.vertex l.source, .vertex l.target]
    { l with
      memory := m
      pylons := (unitId, l.nextPylon) :: l.pylons
      nextPylon := l.nextPylon + 1 }

def removePylon (l : CEnergyLink ι) (unitId : ι) : CEnergyLink ι × Bool :=
  match l.pylons.lookup unitId with
  | none => (l, false)
  | some addr =>
    let pylon0 := Ref.pylon addr
    let m := l.memory.eraseAll pylon0 (l.memory pylon0).neighbors
    let m := m.eraseAll pylon0 [.vertex l.source, .vertex l.target]
    ({ l with memory := m, pylons := l.pylons.filter (·.1 ≠ unitId) }, true)

/-- The pylon whose range ends nearest to `P1`, of those seen so far; `none` stands for the largest `float` and a null
head. -/
def nearer (distance2D : AIFloat3 → AIFloat3 → ℚ) (m : Memory) (p1 : AIFloat3) (best : Option (ℚ × Ref)) (q : Ref) :
    Option (ℚ × Ref) :=
  let dist := distance2D p1 (m q).pos - (m q).range
  if best.all (dist < ·.1) then some (dist, q) else best

/-- One of the two searches: from the neighbours of the vertex `i`, until `stop`. -/
def searchFrom (distance2D : AIFloat3 → AIFloat3 → ℚ) (it : SetOrder) (fuel : ℕ) (l : CEnergyLink ι) (i : Bool)
    (stop : Ref → Bool) (p1 : AIFloat3) : Option (Option (Option (ℚ × Ref))) :=
  search (fun r => it.order (l.memory r).neighbors) stop (nearer distance2D l.memory p1) fuel
    (it.order (l.memory (.vertex i)).neighbors) [] none

/-- The end of `CheckConnection` when the target is not reached. -/
def setHeads (distance2D : AIFloat3 → AIFloat3 → ℚ) (l : CEnergyLink ι) (sourceHead targetHead : Ref) : CEnergyLink ι :=
  let m := l.memory
  let dist := distance2D (m sourceHead).pos (m targetHead).pos - (m sourceHead).range - (m targetHead).range
  { l with
    vertex := fun i => { l.vertex i with head := if i = l.source then sourceHead else targetHead }
    costMod := max (dist * l.invDistance) minCostMod
    isFinished := false }

/-- A null head is replaced by the pylon of the vertex. -/
def headOf (best : Option (ℚ × Ref)) (i : Bool) : Ref := (best.map (·.2)).getD (.vertex i)

/-- `CheckConnection`; `none` if the fuel does not suffice. The second search stops nowhere. -/
def checkConnection (distance2D : AIFloat3 → AIFloat3 → ℚ) (it : SetOrder) (fuel : ℕ) (l : CEnergyLink ι) :
    Option (CEnergyLink ι) :=
  match l.searchFrom distance2D it fuel l.source (· = .vertex l.target) (l.memory (.vertex l.target)).pos with
  | none => none
  | some none => some { l with isFinished := true, costMod := minCostMod }
  | some (some best) =>
    let sourceHead := headOf best l.source
    match l.searchFrom distance2D it fuel l.target (fun _ => false) (l.memory sourceHead).pos with
    | some (some best) => some (l.setHeads distance2D sourceHead (headOf best l.target))
    | _ => none

def setSource (l : CEnergyLink ι) (index : ℤ) : CEnergyLink ι :=
  if index ≠ (l.vertex l.source).index then { l with source := l.target } else l

/-- Whether a pylon belongs to the link. -/
def isNear (distance2D : AIFloat3 → AIFloat3 → ℚ) (l : CEnergyLink ι) (pos : AIFloat3) (range : ℚ) : Bool :=
  let p0 := (l.memory (.vertex l.source)).pos
  let p1 := (l.memory (.vertex l.target)).pos
  let midPos := (p0.add p1).div 2
  midPos.sqDistance2D pos < (distance2D midPos p1 + range) ^ 2

end CEnergyLink

/-! ## The grid -/

/-- A link of the grid, and whether its index is in `linkPylons` and in `unlinkPylons`. -/
structure GridLink (ι : Type*) where
  link : CEnergyLink ι
  inLinkPylons : Bool
  inUnlinkPylons : Bool

/-- `CEnergyGrid`: its links by their indices. -/
abbrev CEnergyGrid (ι : Type*) := List (GridLink ι)

namespace CEnergyGrid

variable {ι : Type*} [DecidableEq ι] (distance2D : AIFloat3 → AIFloat3 → ℚ)

def addPylon (g : CEnergyGrid ι) (unitId : ι) (pos : AIFloat3) (range : ℚ) : CEnergyGrid ι :=
  g.map fun e =>
    if e.link.isNear distance2D pos range then
      { e with link := e.link.addPylon unitId pos range, inLinkPylons := true }
    else e

def removePylon (g : CEnergyGrid ι) (unitId : ι) : CEnergyGrid ι :=
  g.map fun e =>
    let (link, removed) := e.link.removePylon unitId
    { e with link := link, inUnlinkPylons := e.inUnlinkPylons || removed }

/-- `CheckGrid` for one link: no link is read while another one is checked. -/
def checkLink (it : SetOrder) (fuel : ℕ) (e : GridLink ι) : Option (GridLink ι) :=
  let linked := if e.inLinkPylons && !e.link.isFinished then e.link.checkConnection distance2D it fuel else some e.link
  let unlinked := linked.bind fun link =>
    if e.inUnlinkPylons then link.checkConnection distance2D it fuel else some link
  unlinked.map fun link => ⟨link, false, false⟩

def checkGrid (it : SetOrder) (fuel : ℕ) (g : CEnergyGrid ι) : Option (CEnergyGrid ι) :=
  g.mapM (checkLink distance2D it fuel)

/-- `RebuildTree` sets the sources of links. -/
def setSource (g : CEnergyGrid ι) (edgeIdx : ℕ) (index : ℤ) : CEnergyGrid ι :=
  g.modify edgeIdx fun e => { e with link := e.link.setSource index }

end CEnergyGrid

end Circuit.Impl.EnergyGrid
