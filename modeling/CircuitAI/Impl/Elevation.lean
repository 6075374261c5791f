import CircuitAI.Impl.MicroPather
import CircuitAI.Impl.TerrainData

/-!
# The elevations of the map and the costs of moves

`Init` and `UpdateAreas` keep the lowest and the highest elevation of the whole map next to those of the sectors
(`TerrainData` leaves them out). `FillMapData` of `terrain/path/PathFinder.cpp` reads them for the move costs of a path
search.
-/

namespace Circuit.Impl.Elevation

open MicroPather (MapData FLT_MAX)
open TerrainData

/-- `std::numeric_limits<float>::min()`, the smallest normal float. -/
def FLT_MIN : ℚ := 1 / 2 ^ 126

/-! ## Elevations -/

/-- The members `minElevation` and `maxElevation` of an `SAreaData`. -/
structure Extremes where
  minElevation : ℚ
  maxElevation : ℚ
  deriving DecidableEq

/-- One turn of the loop over the heights of a sector. -/
def scanElevation (heightMap : FloatVec) (st : STerrainMapSector × Extremes) (iH : ℕ) : STerrainMapSector × Extremes :=
  let (s, e) := st
  let s := if 0 ≤ heightMap iH then { s with percentLand := s.percentLand + 1 } else s
  if heightMap iH < s.minElevation then
    ({ s with minElevation := heightMap iH },
      if heightMap iH < e.minElevation then { e with minElevation := heightMap iH } else e)
  else if s.maxElevation < heightMap iH then
    ({ s with maxElevation := heightMap iH },
      if e.maxElevation < heightMap iH then { e with maxElevation := heightMap iH } else e)
  else
    (s, e)

/-- The loop over the heights of sector `i`. -/
def scanSector (t : Setup) (heightMap slopeMap : FloatVec) (e : Extremes) (i : ℕ) : STerrainMapSector × Extremes :=
  (t.cells t.convertStoHM i).foldl (scanElevation heightMap)
    ({ isWater := false
       percentLand := 0
       minElevation := heightMap (t.iMap t.convertStoHM i)
       maxElevation := heightMap (t.iMap t.convertStoHM i)
       maxSlope := scanSlope t slopeMap i }, e)

/-- The loop over the sectors, of which some are scanned. -/
def scanSectors (t : Setup) (heightMap slopeMap : FloatVec) (scanned : ℕ → Bool) (e : Extremes) : Extremes :=
  (List.range t.sectors).foldl
    (fun e i => if scanned i then (scanSector t heightMap slopeMap e i).2 else e) e

/-- What `Init` starts from. -/
def noExtremes : Extremes := ⟨FLT_MAX, FLT_MIN⟩

/-- The two buffers with their elevations. -/
structure ElevationData where
  data : CTerrainData
  pExtremes : Extremes
  nextExtremes : Extremes

namespace ElevationData

variable (t : Setup)

/-- After `Init`, which leaves the elevations of the second buffer as constructed. -/
def init (mobileType : List MoveLimits) (immobileType : List BuildLimits) (heightMap slopeMap : FloatVec) :
    ElevationData where
  data := .init t mobileType immobileType heightMap slopeMap
  pExtremes := scanSectors t heightMap slopeMap (fun _ => true) noExtremes
  nextExtremes := ⟨0, 0⟩

/-- The sectors that `UpdateAreas` scans again. -/
def changed (d : ElevationData) (heightMap : FloatVec) : ℕ → Bool :=
  isSectorHeightChanged t heightMap d.data.pAreaData.heightMap

/-- `UpdateAreas` on the next buffer, from the elevations of the one in use. -/
def update (d : ElevationData) (heightMap slopeMap : FloatVec) : ElevationData :=
  { d with
    data := d.data.update t heightMap slopeMap
    nextExtremes := scanSectors t heightMap slopeMap (d.changed t heightMap) d.pExtremes }

def swap (d : ElevationData) : ElevationData := ⟨d.data.swap, d.nextExtremes, d.pExtremes⟩

end ElevationData

/-! ## `FillMapData` -/

/-- What is read of the unit. -/
structure UnitView where
  /-- `GetMobileId`, if it is not negative. -/
  mobileTypeId : Option ℕ
  posY : ℚ
  isSonarStealth : Bool
  isCloaked : Bool
  isAbleToFly : Bool
  isAmphibious : Bool

structure ThreatArrays where
  amphThreat : ℤ → ℚ
  cloakThreat : ℤ → ℚ
  airThreat : ℤ → ℚ
  surfThreat : ℤ → ℚ

/-- The arrays of the path finder. -/
structure MoveArrays where
  moveArrays : ℕ → ℕ → Bool
  airMoveArray : ℕ → Bool

def SPIDER_SLOPE : ℚ := 99 / 100

def unitMaxSlope (d : SAreaData) (u : UnitView) : ℚ :=
  match u.mobileTypeId with
  | none => 1
  | some id => max ((d.mobileType[id]?.map (·.maxSlope)).getD 0) (1 / 1000)

def slopeCost (d : SAreaData) (maxSlope : ℚ) (index : ℤ) : ℚ :=
  (if (d.sector index.toNat).isWater then 2 else 0) + 2 * (d.sector index.toNat).maxSlope / maxSlope

/-- The cost for units that climb: high ground is cheap. -/
def spiderCost (d : SAreaData) (e : Extremes) (index : ℤ) : ℚ :=
  let elevLen := max (e.maxElevation - e.minElevation) (1 / 1000)
  2 * (1 - ((d.sector index.toNat).maxElevation - e.minElevation) / elevLen) +
    if (d.sector index.toNat).isWater then 2 else 0

def fillMapData (d : SAreaData) (e : Extremes) (m : MoveArrays) (threat : ThreatArrays) (u : UnitView) : MapData :=
  let canMoveArray := match u.mobileTypeId with
    | none => m.airMoveArray
    | some id => m.moveArrays id
  let maxSlope := unitMaxSlope d u
  if u.posY < 0 ∧ u.isSonarStealth = false then
    { canMoveArray
      threatArray := threat.amphThreat
      moveFun := slopeCost d maxSlope
      threatFun := fun index => 2 * threat.amphThreat index }
  else if u.isCloaked then
    { canMoveArray
      threatArray := threat.cloakThreat
      moveFun := fun index => (d.sector index.toNat).maxSlope / maxSlope
      threatFun := threat.cloakThreat }
  else if u.isAbleToFly then
    { canMoveArray
      threatArray := threat.airThreat
      moveFun := fun _ => 0
      threatFun := fun index => 2 * threat.airThreat index }
  else if u.isAmphibious then
    { canMoveArray
      threatArray := threat.amphThreat
      moveFun := if SPIDER_SLOPE < maxSlope then spiderCost d e else slopeCost d maxSlope
      threatFun := fun index => 2 * threat.amphThreat index }
  else
    { canMoveArray
      threatArray := threat.surfThreat
      moveFun := fun index =>
        if (d.sector index.toNat).isWater then 0 else 2 * (d.sector index.toNat).maxSlope / maxSlope
      threatFun := fun index => 2 * threat.surfThreat index }

end Circuit.Impl.Elevation
