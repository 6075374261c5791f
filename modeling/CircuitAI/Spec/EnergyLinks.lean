import CircuitAI.Impl.EnergyGrid
import Mathlib.Combinatorics.SimpleGraph.Connectivity.Connected

/-!
# What an energy link reports

Two endpoints are connected if a chain of pylons leads from one that covers the first to one that covers the second, each
overlapping the next. `Reports` says that a link knows this and refers to nothing that is gone; `Run` is a grid after any
additions and removals of pylons, checks and changes of direction. `expanded` is the order in which a search goes through
the pylons, and `TreeFrom` the shape of the neighbours in which it meets none of them twice.
-/

namespace Circuit.Spec.EnergyLinks

open Framework Relation Impl.EnergyGrid
open Impl.TerrainManager (AIFloat3)

variable {ι : Type*} [DecidableEq ι]

section Link

variable (l : CEnergyLink ι)

def Registered (addr : ℕ) : Prop := addr ∈ l.pylons.map (·.2)

def Known : Ref → Prop
  | .vertex _ => True
  | .pylon addr => Registered l addr

def Covers (i : Bool) (addr : ℕ) : Prop :=
  Registered l addr ∧
    (l.memory (.vertex i)).pos.sqDistance2D (l.memory (.pylon addr)).pos < (l.memory (.pylon addr)).range ^ 2

def Overlap (a b : ℕ) : Prop :=
  Registered l a ∧ Registered l b ∧
    (l.memory (.pylon a)).pos.sqDistance2D (l.memory (.pylon b)).pos
      < ((l.memory (.pylon a)).range + (l.memory (.pylon b)).range) ^ 2

/-- A chain of pylons leads from the vertex `i` to the vertex `j`. -/
def Chain (i j : Bool) : Prop := ∃ a b, Covers l i a ∧ ReflTransGen (Overlap l) a b ∧ Covers l j b

def Connected : Prop := Chain l l.source l.target

/-- Each head is a registered pylon or the endpoint it belongs to. -/
def HeadsKnown : Prop := ∀ i, (l.vertex i).head = .vertex i ∨ ∃ addr, Registered l addr ∧ (l.vertex i).head = .pylon addr

/-- The link reports its connection, its neighbours are symmetric and known, and so are its heads. -/
structure Reports : Prop where
  finished : l.isFinished = true ↔ Connected l
  neighbors : ∀ r q, Known l r → q ∈ (l.memory r).neighbors → Known l q ∧ r ∈ (l.memory q).neighbors
  heads : l.isFinished = false → HeadsKnown l

/-! ## Searches -/

/-- The vertex `i` reaches `r` over the neighbours that are stored. -/
def ReachesFrom (it : SetOrder) (i : Bool) (r : Ref) : Prop :=
  Reaches (fun r => it.order (l.memory r).neighbors) (it.order (l.memory (.vertex i)).neighbors) r

/-- The pylons that the search from the vertex `i` expands, in their order. -/
def expanded (it : SetOrder) (i : Bool) (stop : Ref → Bool) (fuel : ℕ) : List Ref :=
  taken (fun r => it.order (l.memory r).neighbors) stop fuel (it.order (l.memory (.vertex i)).neighbors) []

/-- The graph of the neighbours that are stored. -/
def graph : SimpleGraph Ref := .fromRel fun r q => Known l r ∧ q ∈ (l.memory r).neighbors

/-- The vertex `i` has at most one neighbour, and no cycle can be reached from it. -/
structure TreeFrom (i : Bool) : Prop where
  single : ∀ r ∈ (l.memory (.vertex i)).neighbors, ∀ q ∈ (l.memory (.vertex i)).neighbors, r = q
  acyclic : ∀ r, (graph l).Reachable (.vertex i) r → ∀ c : (graph l).Walk r r, ¬c.IsCycle

end Link

/-! ## Runs -/

variable (distance2D : AIFloat3 → AIFloat3 → ℚ)

inductive Step (g : CEnergyGrid ι) : CEnergyGrid ι → Prop
  | addPylon (unitId : ι) (pos : AIFloat3) (range : ℚ) : Step g (g.addPylon distance2D unitId pos range)
  | removePylon (unitId : ι) : Step g (g.removePylon unitId)
  | checkGrid (it : SetOrder) (fuel : ℕ) {t : CEnergyGrid ι} (h : g.checkGrid distance2D it fuel = some t) : Step g t
  | setSource (edgeIdx : ℕ) (index : ℤ) : Step g (g.setSource edgeIdx index)

/-- An endpoint of a link: the index of a cluster and the position of one of its spots. -/
abbrev Endpoint := ℤ × AIFloat3

/-- The grid that `Init` makes of the edges of the cluster graph. -/
def init (edges : List (Endpoint × Endpoint)) : CEnergyGrid ι :=
  edges.map fun e => ⟨.new distance2D e.1.1 e.1.2 e.2.1 e.2.2, false, false⟩

/-- A grid that comes about from the edges of a cluster graph. -/
def Run (edges : List (Endpoint × Endpoint)) : CEnergyGrid ι → Prop :=
  ReflTransGen (Step distance2D) (init distance2D edges)

end Circuit.Spec.EnergyLinks
