import CircuitAI.Impl.MicroPather

/-!
# Paths on the move map

What the path searches are for. A cell of the move map is its index; its column and its row are
read off the width of the map. A path (`Field.Path`) goes from a start by king moves over cells
that may be entered, and pays for each cell it enters.
-/

namespace Circuit.Spec.GridPath

open Circuit.Impl.MicroPather (MapData)
open Circuit.Impl.MicroPather.CMicroPather (PathResult diagonalDistance)

/-- The cells that may be entered, and what entering one costs. -/
structure Field where
  width : Nat
  Enterable : Nat → Prop
  cost : Nat → ℚ

namespace Field

variable (F : Field)

def col (v : Nat) : Int := (v % F.width : Nat)

def row (v : Nat) : Int := (v / F.width : Nat)

def KingStep (u v : Nat) : Prop := u ≠ v ∧ |F.col u - F.col v| ≤ 1 ∧ |F.row u - F.row v| ≤ 1

/-- A move along both axes costs 1.4142 times as much. -/
def stepCost (u v : Nat) : ℚ :=
  if F.col u ≠ F.col v ∧ F.row u ≠ F.row v then F.cost v * (14142 / 10000) else F.cost v

/-- An admissible path from `s`: its cells, the last of them, and the sum of its step costs. -/
inductive Path (s : Nat) : List Nat → Nat → ℚ → Prop
  | start : Path s [s] s 0
  | step {l : List Nat} {u v : Nat} {a : ℚ} : Path s l u a → F.KingStep u v → F.Enterable v →
      Path s (l ++ [v]) v (a + F.stepCost u v)

def InDisc (e : Nat) (radius : Int) (v : Nat) : Prop :=
  (F.col v - F.col e) ^ 2 + (F.row v - F.row e) ^ 2 ≤ radius ^ 2

/-- The cells of the disc that pass the test, which counts cells without the border. -/
def Hit (e : Nat) (radius : Int) (hitTest : Int × Int → Int × Int → Bool) (v : Nat) : Prop :=
  F.InDisc e radius v ∧ hitTest (F.col v - 1, F.row v - 1) (F.col e - 1, F.row e - 1) = true

def distance (e v : Nat) : ℚ := diagonalDistance (F.col v) (F.row v) (F.col e) (F.row e)

/-- The path `l` from `s` to `t` is a best one, of those that cost less than `limit`: no path to `t`
is cheaper, and no goal does better with the estimate `est` of what it leaves to go. -/
structure Best (limit : ℚ) (s : Nat) (Goal : Nat → Prop) (est : Nat → ℚ) (l : List Nat) (t : Nat) (a : ℚ) : Prop where
  path : F.Path s l t a
  goal : Goal t
  lt : a < limit
  cheapest : ∀ l' a', F.Path s l' t a' → a ≤ a'
  nearest : ∀ n l' a', Goal n → F.Path s l' n a' → a' < limit → a + est t ≤ a' + est n

/-- A search for a path that costs less than `limit` to a goal solves it with a best path, or has no
solution if there is no such path. The result names the cells of a path by `index`. -/
structure Solves (limit : ℚ) (index : Nat → Int) (s : Nat) (Goal : Nat → Prop) (est : Nat → ℚ) (r : PathResult) :
    Prop where
  status : r.status = .SOLVED ∨ r.status = .NO_SOLUTION
  solved : r.status = .SOLVED → ∃ l t, r.path = l.map index ∧ F.Best limit s Goal est l t r.cost
  no_solution : r.status = .NO_SOLUTION ↔ ∀ n l a, Goal n → F.Path s l n a → limit ≤ a

def Cheapest (s v : Nat) (a : ℚ) : Prop := (∃ l, F.Path s l v a) ∧ ∀ l' a', F.Path s l' v a' → a ≤ a'

/-- The map has the cost of a cheapest path for every cell that a path leads to that costs less than `limit`, and -1
everywhere else. -/
structure CostMap (limit : ℚ) (index : Nat → Int) (s : Nat) (costMap : Int → ℚ) : Prop where
  reached : ∀ v l a, F.Path s l v a → a < limit → F.Cheapest s v (costMap (index v))
  other : ∀ i, (∀ v l a, F.Path s l v a → a < limit → index v ≠ i) → costMap i = -1

end Field

/-- A path map of `sizeX × sizeY` cells and the move map around it, whose border nobody can move
on, with costs that are not negative. -/
structure Terrain (sizeX sizeY : Nat) where
  data : MapData
  sizeX_pos : 0 < sizeX
  sizeY_pos : 0 < sizeY
  border : ∀ v, v < (sizeX + 2) * (sizeY + 2) →
    v % (sizeX + 2) = 0 ∨ v % (sizeX + 2) = sizeX + 1 ∨ v / (sizeX + 2) = 0 ∨ v / (sizeX + 2) = sizeY + 1 →
    data.canMoveArray v = false
  moveFun_nonneg : ∀ i, 0 ≤ data.moveFun i
  threatFun_nonneg : ∀ i, 0 ≤ data.threatFun i

/-- The index of a cell of the move map in the path map. -/
def index2 (sizeX v : Nat) : Int := ((v / (sizeX + 2) : Nat) - 1) * sizeX + (v % (sizeX + 2) : Nat) - 1

/-- The cells where one can move without too much threat, at a base cost of one. -/
def Terrain.field {sizeX sizeY : Nat} (T : Terrain sizeX sizeY) (maxThreat : ℚ) : Field where
  width := sizeX + 2
  Enterable v := T.data.canMoveArray v = true ∧ T.data.threatArray (index2 sizeX v) ≤ maxThreat
  cost v := 1 + T.data.moveFun (index2 sizeX v) + T.data.threatFun (index2 sizeX v)

/-- A path map of `sizeX × sizeY` cells whose border nobody can move on, with threats that are not negative. -/
structure ThreatTerrain (sizeX sizeY : Nat) where
  data : MapData
  sizeX_pos : 0 < sizeX
  sizeY_pos : 0 < sizeY
  border : ∀ v, v < (sizeX + 2) * (sizeY + 2) →
    v % (sizeX + 2) = 0 ∨ v % (sizeX + 2) = sizeX + 1 ∨ v / (sizeX + 2) = 0 ∨ v / (sizeX + 2) = sizeY + 1 →
    data.canMoveArray v = false
  threat_nonneg : ∀ i, 0 ≤ data.threatArray i

/-- The cells where one can move, at a base cost of one and the threat there. -/
def ThreatTerrain.field {sizeX sizeY : Nat} (T : ThreatTerrain sizeX sizeY) : Field where
  width := sizeX + 2
  Enterable v := T.data.canMoveArray v = true
  cost v := 1 + T.data.threatArray (index2 sizeX v)

/-- A map without obstacles or threat: one can move everywhere but on the border. -/
def Terrain.meadow {sizeX sizeY : Nat} (hX : 0 < sizeX) (hY : 0 < sizeY) (moveFun : Int → ℚ) (h : ∀ i, 0 ≤ moveFun i) :
    Terrain sizeX sizeY where
  data :=
    { canMoveArray := fun v =>
        decide (1 ≤ v % (sizeX + 2) ∧ v % (sizeX + 2) ≤ sizeX ∧ 1 ≤ v / (sizeX + 2) ∧ v / (sizeX + 2) ≤ sizeY)
      threatArray := fun _ => 0
      moveFun
      threatFun := fun _ => 0 }
  sizeX_pos := hX
  sizeY_pos := hY
  border v _ hb := by
    rw [decide_eq_false_iff_not]
    omega
  moveFun_nonneg := h
  threatFun_nonneg _ := le_rfl

end Circuit.Spec.GridPath
