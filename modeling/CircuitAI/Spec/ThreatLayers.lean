import CircuitAI.Impl.ThreatMap

/-!
# What an enemy adds to the threat layers

The contribution of an enemy to a cell of a layer, as a formula in the cell: the enemy's circle (`Within`) and the heat
in it. A hostile enemy may add to every layer, a peaceful one to the cloak layer only.
-/

namespace Circuit.Spec.ThreatLayers

open Impl.ThreatMap

variable {K : Type*} [Field K] [LinearOrder K] [FloorRing K] (env : Env K) (sector : ℤ → Sector K) (e : EnemyData K)

/-- The squared distance of the cell from that of the enemy. -/
def distSq (x z : ℤ) : ℤ := ((env.posToXZ e).1 - x) ^ 2 + ((env.posToXZ e).2 - z) ^ 2

/-- The loops go through the cell: it is closer than the range in both directions. -/
def InBox (range x z : ℤ) : Prop := |(env.posToXZ e).1 - x| < range ∧ |(env.posToXZ e).2 - z| < range

instance (range x z : ℤ) : Decidable (InBox env e range x z) := inferInstanceAs (Decidable (_ ∧ _))

/-- The cell is in the circle that is drawn for the range. -/
def Within (range x z : ℤ) : Prop := InBox env e range x z ∧ distSq env e x z ≤ range ^ 2

instance (range x z : ℤ) : Decidable (Within env e range x z) := inferInstanceAs (Decidable (_ ∧ _))

/-- A value that decreases by the share `slope` from the center to the range. -/
def falloff (val slope : K) (range x z : ℤ) : K := val * (1 - slope * env.sqrt (distSq env e x z) / range)

/-- The speed slack of the ranges against air, land and water. -/
def speedSlack : ℤ :=
  e.cdef.elim 0 fun _ => min (toInt (env.sqrt (e.velX ^ 2 + e.velZ ^ 2) * env.speedMod)) env.speedModMax

/-! ## Layers -/

def airHeat (x z : ℤ) : K :=
  let range := e.range .air + speedSlack env e
  if Within env e range x z then falloff env e e.threat threatSlope range x z else 0

def amphRange : ℤ := max (e.range .land + speedSlack env e) (e.range .water + speedSlack env e)

/-- Where the enemy hits the surface, and where it hits below it. -/
def InWater (x z : ℤ) : Prop :=
  distSq env e x z ≤ (e.range .water + speedSlack env e) ^ 2 ∧ (sector (z * env.width + x)).isWater = true

def OnSurf (x z : ℤ) : Prop :=
  InWater env sector e x z ∨ distSq env e x z ≤ (e.range .land + speedSlack env e) ^ 2

def OnAmph (x z : ℤ) : Prop :=
  InWater env sector e x z ∨ distSq env e x z ≤ (e.range .land + speedSlack env e) ^ 2 ∧
    ((-mapSquareSize * 5 : ℤ) : K) ≤ (sector (z * env.width + x)).posY

instance (x z : ℤ) : Decidable (InWater env sector e x z) := inferInstanceAs (Decidable (_ ∧ _))
instance (x z : ℤ) : Decidable (OnSurf env sector e x z) := inferInstanceAs (Decidable (_ ∨ _))
instance (x z : ℤ) : Decidable (OnAmph env sector e x z) := inferInstanceAs (Decidable (_ ∨ _ ∧ _))

def amphHeat (x z : ℤ) : K :=
  if e.cdef.any (·.isAlwaysHit) then e.threat else falloff env e e.threat threatSlope (amphRange env e) x z

def cloakHeat (x z : ℤ) : K :=
  if Within env e (e.range .cloak) x z then falloff env e threatCloak cloakSlope (e.range .cloak) x z else 0

def shieldHeat (x z : ℤ) : K := if Within env e (e.range .shield) x z then e.shieldPower else 0

/-- The contribution of a hostile enemy. -/
def contribution (layer : Layer) (x z : ℤ) : K :=
  match layer with
  | .air => if e.cdef.elim true (·.hasAntiAir) then airHeat env e x z else 0
  | .surf =>
    if e.cdef.elim true (fun cdef => cdef.hasAntiLand || cdef.hasAntiWater) ∧ InBox env e (amphRange env e) x z ∧
      OnSurf env sector e x z then amphHeat env e x z else 0
  | .amph =>
    if e.cdef.elim true (fun cdef => cdef.hasAntiLand || cdef.hasAntiWater) ∧ InBox env e (amphRange env e) x z ∧
      OnAmph env sector e x z then amphHeat env e x z else 0
  | .cloak => cloakHeat env e x z
  | .shield => if e.cdef.any (·.hasShieldMount) then shieldHeat env e x z else 0

def peaceContribution (layer : Layer) (x z : ℤ) : K := if layer = .cloak then cloakHeat env e x z else 0

/-- The squared range of the enemy for a layer, with the slack; the larger one of land and water. -/
def reachSq : Layer → ℤ
  | .air => (e.range .air + speedSlack env e) ^ 2
  | .surf | .amph => max ((e.range .land + speedSlack env e) ^ 2) ((e.range .water + speedSlack env e) ^ 2)
  | .cloak => e.range .cloak ^ 2
  | .shield => e.range .shield ^ 2

def OnMap (x z : ℤ) : Prop := (0 ≤ x ∧ x < env.width) ∧ 0 ≤ z ∧ z < env.height

def InMap (index : ℤ) : Prop := 0 ≤ index ∧ index < env.width * env.height

structure Regular (e : EnemyData K) : Prop where
  threat : 0 ≤ e.threat
  shieldPower : 0 ≤ e.shieldPower
  range : ∀ r, 0 ≤ e.range r

def layers (hostileDatas peaceDatas : List (EnemyData K)) (d : ThreatData K) : ThreatData K :=
  (env.update sector hostileDatas peaceDatas).foldl Write.run d

end Circuit.Spec.ThreatLayers
