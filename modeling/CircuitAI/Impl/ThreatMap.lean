import CircuitAI.Framework.Deposits
import CircuitAI.Framework.DoubleBuffer
import Mathlib.Data.Int.Range
import Mathlib.Data.Rat.Floor

/-!
# The threat map

`CThreatMap`: five layers of threat in two buffers, of which `Update` fills and draws the one that is not current. What
`Update` writes does not depend on what it has written, so that `update` is the list of its writes in their order; the
worker does them one by one (`Write.run`). Layers are functions of the index `z * width + x`.

Numbers are of any ordered field with a floor, and `sqrt` is a parameter.
-/

namespace Circuit.Impl.ThreatMap

open Framework

/-! ## Enemies and layers -/

inductive ThreatType
  | air
  | land
  | water
  | cloak
  | shield
  deriving DecidableEq

/-- What is read of a `CCircuitDef`. -/
structure CircuitDef where
  hasAntiAir : Bool
  hasAntiLand : Bool
  hasAntiWater : Bool
  isAlwaysHit : Bool
  hasShieldMount : Bool

/-- What is read of an `SEnemyData`; `y` of the position and of the velocity is not. -/
structure EnemyData (K : Type*) where
  cdef : Option CircuitDef
  posX : K
  posZ : K
  velX : K
  velZ : K
  threat : K
  shieldPower : K
  range : ThreatType → ℤ

/-- What is read of an `STerrainMapSector`. -/
structure Sector (K : Type*) where
  isWater : Bool
  posY : K

inductive Layer
  | air
  | surf
  | amph
  | cloak
  | shield
  deriving DecidableEq

def Layer.all : List Layer := [.air, .surf, .amph, .cloak, .shield]

/-- `SThreatData`. -/
abbrev ThreatData (K : Type*) := Layer → ℤ → K

/-- What does not change after the constructor, and the square root. -/
structure Env (K : Type*) where
  squareSize : ℤ
  width : ℤ
  height : ℤ
  speedMod : K
  speedModMax : ℤ
  sqrt : K → K

section

variable {K : Type*} [Field K] [LinearOrder K] [FloorRing K]

/-- `THREAT_BASE`, and 0 in the shield layer. -/
def base : Layer → K
  | .air | .surf | .amph | .cloak => 0
  | .shield => 0

def threatCloak : K := 16

/-- The share that the heat of weapons and that of a decloaker lose from the center to the range. -/
def threatSlope : K := 0.5

def cloakSlope : K := 0.75

def mapSquareSize : ℤ := 8

/-- The conversion of a float to an int. -/
def toInt (x : K) : ℤ := if 0 ≤ x then ⌊x⌋ else ⌈x⌉

/-! ## Writes -/

/-- An assignment of the base value to a cell, or an addition to it. -/
inductive Write (K : Type*)
  | fill (layer : Layer) (index : ℤ)
  | add (layer : Layer) (index : ℤ) (heat : K)

def Write.run (d : ThreatData K) : Write K → ThreatData K
  | .fill layer index => setCell d layer index (base layer)
  | .add layer index heat => setCell d layer index (d layer index + heat)

/-! ## Drawing -/

namespace Env

variable (env : Env K)

def posToXZ (e : EnemyData K) : ℤ × ℤ :=
  ((toInt e.posX).tdiv env.squareSize, (toInt e.posZ).tdiv env.squareSize)

/-- The loops over the cells around a cell; `draw` gets the index and the squared distance. -/
def around (e : EnemyData K) (range : ℤ) (draw : ℤ → ℤ → List (Write K)) : List (Write K) :=
  let p := env.posToXZ e
  (Int.range (max (p.2 - range + 1) 0) (min (p.2 + range) env.height)).flatMap fun z =>
    (Int.range (max (p.1 - range + 1) 0) (min (p.1 + range) env.width)).flatMap fun x =>
      draw (z * env.width + x) ((p.1 - x) ^ 2 + (p.2 - z) ^ 2)

def addEnemyAir (e : EnemyData K) (slack : ℤ) : List (Write K) :=
  let range := e.range .air + slack
  env.around e range fun index sum =>
    if range ^ 2 < sum then [] else [.add .air index (e.threat * (1 - threatSlope * env.sqrt sum / range))]

/-- What `AddEnemyAmphConst` and `AddEnemyAmphGradient` share; `heat` gets the range and the squared distance. -/
def addEnemyAmph (sector : ℤ → Sector K) (heat : ℤ → ℤ → K) (e : EnemyData K) (slack : ℤ) : List (Write K) :=
  let rangeLand := e.range .land + slack
  let rangeWater := e.range .water + slack
  let range := max rangeLand rangeWater
  env.around e range fun index sum =>
    let isWaterThreat := sum ≤ rangeWater ^ 2 ∧ (sector index).isWater = true
    (if isWaterThreat ∨ sum ≤ rangeLand ^ 2 ∧ ((-mapSquareSize * 5 : ℤ) : K) ≤ (sector index).posY then
      [.add .amph index (heat range sum)] else []) ++
    (if isWaterThreat ∨ sum ≤ rangeLand ^ 2 then [.add .surf index (heat range sum)] else [])

def addEnemyAmphConst (sector : ℤ → Sector K) (e : EnemyData K) (slack : ℤ) : List (Write K) :=
  env.addEnemyAmph sector (fun _ _ => e.threat) e slack

def addEnemyAmphGradient (sector : ℤ → Sector K) (e : EnemyData K) (slack : ℤ) : List (Write K) :=
  env.addEnemyAmph sector (fun range sum => e.threat * (1 - threatSlope * env.sqrt sum / range)) e slack

def addDecloaker (e : EnemyData K) : List (Write K) :=
  let rangeCloak := e.range .cloak
  env.around e rangeCloak fun index sum =>
    if rangeCloak ^ 2 < sum then []
    else [.add .cloak index (threatCloak * (1 - cloakSlope * env.sqrt sum / rangeCloak))]

def addShield (e : EnemyData K) : List (Write K) :=
  let rangeShield := e.range .shield
  env.around e rangeShield fun index sum =>
    if rangeShield ^ 2 < sum then [] else [.add .shield index e.shieldPower]

def addEnemyUnitAll (sector : ℤ → Sector K) (e : EnemyData K) : List (Write K) :=
  env.addEnemyAir e 0 ++ env.addEnemyAmphGradient sector e 0 ++ env.addDecloaker e

def addEnemyUnit (sector : ℤ → Sector K) (e : EnemyData K) : List (Write K) :=
  match e.cdef with
  | none => env.addEnemyUnitAll sector e
  | some cdef =>
    let vsl := min (toInt (env.sqrt (e.velX ^ 2 + e.velZ ^ 2) * env.speedMod)) env.speedModMax
    (if cdef.hasAntiAir then env.addEnemyAir e vsl else []) ++
    (if cdef.hasAntiLand || cdef.hasAntiWater then
      if cdef.isAlwaysHit then env.addEnemyAmphConst sector e vsl else env.addEnemyAmphGradient sector e vsl
    else []) ++
    env.addDecloaker e ++
    (if cdef.hasShieldMount then env.addShield e else [])

def prepare : List (Write K) :=
  Layer.all.flatMap fun layer => (Int.range 0 (env.width * env.height)).map fun index => .fill layer index

def update (sector : ℤ → Sector K) (hostileDatas peaceDatas : List (EnemyData K)) : List (Write K) :=
  env.prepare ++ hostileDatas.flatMap (env.addEnemyUnit sector) ++ peaceDatas.flatMap env.addDecloaker

end Env

/-! ## Path queries -/

/-- What `FillMapData` reads of a unit. -/
structure PathUnit (K : Type*) where
  posY : K
  isSonarStealth : Bool
  isCloaked : Bool
  isAbleToFly : Bool
  isAmphibious : Bool

/-- A query with the array it got: a layer of a buffer, and the factor of `threatFun`. -/
structure Query where
  id : ℕ
  layer : Layer
  slot : Slot
  factor : ℕ
  deriving DecidableEq

/-- The layer and the factor that `FillMapData` chooses. -/
def PathUnit.threatArray (u : PathUnit K) : Layer × ℕ :=
  if u.posY < 0 ∧ u.isSonarStealth = false then (.amph, 2)
  else if u.isCloaked then (.cloak, 1)
  else if u.isAbleToFly then (.air, 2)
  else if u.isAmphibious then (.amph, 2)
  else (.surf, 2)

/-! ## State -/

inductive Worker (K : Type*)
  | idle
  | queued (sector : ℤ → Sector K) (hostileDatas peaceDatas : List (EnemyData K))
  | writing (rest : List (Write K))
  | finished

structure State (K : Type*) where
  threatData : Buffers (ThreatData K)
  arrays : Slot
  drawArrays : Slot
  isUpdating : Bool
  worker : Worker K
  queryId : ℕ
  created : List Query
  pathTasks : List Query
  running : List Query

namespace State

def new : State K where
  threatData := ⟨fun layer _ => base layer, fun layer _ => base layer, .first⟩
  arrays := .first
  drawArrays := .second
  isUpdating := false
  worker := .idle
  queryId := 0
  created := []
  pathTasks := []
  running := []

def enqueueUpdate (s : State K) (sector : ℤ → Sector K) (hostileDatas peaceDatas : List (EnemyData K)) : State K :=
  { s with isUpdating := true, worker := .queued sector hostileDatas peaceDatas }

/-- `Update` is entered, with these writes before it. -/
def startUpdate (s : State K) (writes : List (Write K)) : State K :=
  { s with drawArrays := s.threatData.next, worker := .writing writes }

def write (s : State K) (w : Write K) (rest : List (Write K)) : State K :=
  { s with
    threatData := s.threatData.set s.drawArrays (w.run (s.threatData.get s.drawArrays))
    worker := .writing rest }

def swapBuffers (s : State K) : State K :=
  { s with threatData := { s.threatData with cur := s.threatData.next }, arrays := s.threatData.next }

def apply (s : State K) : State K := { s.swapBuffers with isUpdating := false, worker := .idle }

def query (s : State K) (u : PathUnit K) : Query := ⟨s.queryId, u.threatArray.1, s.arrays, u.threatArray.2⟩

def createQuery (s : State K) (u : PathUnit K) : State K :=
  { s with queryId := s.queryId + 1, created := s.query u :: s.created }

def threatAt (s : State K) (q : Query) (index : ℤ) : K := s.threatData.get q.slot q.layer index

def threatFun (s : State K) (q : Query) (index : ℤ) : K := q.factor * s.threatAt q index

end State

end

end Circuit.Impl.ThreatMap
