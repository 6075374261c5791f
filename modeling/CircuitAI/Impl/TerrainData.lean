import Mathlib.Algebra.Order.Ring.Rat
import Mathlib.Data.Finset.Card

/-!
# The sector map and its areas

`terrain/TerrainData.h` and the area part of `terrain/TerrainData.cpp`: the map is cut into square sectors, each is
scanned for its heights and slopes (`scan`), and for each kind of movement the usable sectors are grouped into connected
areas (`groupSectors`). `init` computes this from the maps; `updateAreas` brings the data that is two versions old up to
date, scanning only the sectors whose heights have changed and grouping only the types that `shouldRebuild` names.

Floats are exact rationals. A pointer to a sector is its index, a pointer to an area its index in the type's list, and a
`std::map` whose values are determined by its keys is the set of its keys. The maps that are filled on demand are
functions to an optional entry, whose inner option is the pointer.
-/

namespace Circuit.Impl.TerrainData

open List

/-- `FloatVec`, a height or slope map. -/
abbrev FloatVec := ℕ → ℚ

/-- A map from keys to pointers that is filled on demand. -/
abbrev Cache := ℕ → Option (Option ℕ)

/-- A cleared map. -/
def Cache.empty : Cache := fun _ => none

/-- `std::round`, half away from zero. -/
def round (q : ℚ) : ℚ := if 0 ≤ q then ((q + 1 / 2).floor : ℚ) else -((-q + 1 / 2).floor : ℚ)

/-- The members of `CTerrainData` that are fixed before the maps are read. -/
structure Setup where
  sectorXSize : ℕ
  sectorZSize : ℕ
  convertStoP : ℕ
  waterIsHarmful : Bool
  waterIsAVoid : Bool
  /-- "should not be less than 16". -/
  convertStoP_ge : 16 ≤ convertStoP

namespace Setup

variable (t : Setup)

/-- The number of sectors. -/
def sectors : ℕ := t.sectorXSize * t.sectorZSize

def convertStoSM : ℕ := t.convertStoP / 16

def convertStoHM : ℕ := t.convertStoP / 8

def slopeMapXSize : ℕ := t.sectorXSize * t.convertStoSM

def heightMapXSize : ℕ := t.sectorXSize * t.convertStoHM

/-- The number of cells of the height map under all sectors. -/
def heightCount : ℕ := t.sectorXSize * t.convertStoHM * t.sectorZSize * t.convertStoHM

/-- The first cell of sector `i` in a map with `n` cells to a sector's side. -/
def iMap (n : ℕ) (i : ℕ) : ℕ :=
  (i / t.sectorXSize * n) * (t.sectorXSize * n) + i % t.sectorXSize * n

/-- The cells of sector `i` in a map with `n` cells to a sector's side, in the order of the two loops. -/
def cells (n : ℕ) (i : ℕ) : List ℕ :=
  (range n).flatMap fun z => (range n).map fun x => t.iMap n i + z * (t.sectorXSize * n) + x

def percentOfMap (n : ℕ) : ℚ := 100 * n / t.sectors

end Setup

/-! ## Scanning a sector -/

structure STerrainMapSector where
  isWater : Bool
  percentLand : ℚ
  minElevation : ℚ
  maxElevation : ℚ
  maxSlope : ℚ
  deriving DecidableEq, Repr

/-- The largest slope of a sector. -/
def scanSlope (t : Setup) (slopeMap : FloatVec) (i : ℕ) : ℚ :=
  (t.cells t.convertStoSM i).foldl (fun maxSlope iS => if maxSlope < slopeMap iS then slopeMap iS else maxSlope) 0

/-- One turn of the loop over the heights of a sector. -/
def scanHeight (heightMap : FloatVec) (s : STerrainMapSector) (iH : ℕ) : STerrainMapSector :=
  let s := if 0 ≤ heightMap iH then { s with percentLand := s.percentLand + 1 } else s
  if heightMap iH < s.minElevation then
    { s with minElevation := heightMap iH }
  else if s.maxElevation < heightMap iH then
    { s with maxElevation := heightMap iH }
  else
    s

/-- A sector after the loops over its slopes and heights, when `percentLand` is still a count. -/
def scan (t : Setup) (heightMap slopeMap : FloatVec) (i : ℕ) : STerrainMapSector :=
  (t.cells t.convertStoHM i).foldl (scanHeight heightMap)
    { isWater := false
      percentLand := 0
      minElevation := heightMap (t.iMap t.convertStoHM i)
      maxElevation := heightMap (t.iMap t.convertStoHM i)
      maxSlope := scanSlope t slopeMap i }

/-- The count turned into a share, and `isWater` set by it. -/
def settle (t : Setup) (s : STerrainMapSector) : STerrainMapSector :=
  let percentLand := s.percentLand * (100 / (t.convertStoHM * t.convertStoHM))
  { s with percentLand, isWater := percentLand ≤ 50 }

/-! ## Which sectors a type can use -/

/-- The members of `STerrainMapImmobileType` that `Init` takes from the unit definitions. -/
structure BuildLimits where
  minElevation : ℚ
  maxElevation : ℚ
  canHover : Bool
  canFloat : Bool
  deriving DecidableEq, Repr

/-- The condition under which a sector is put in `STerrainMapImmobileType::sector`. -/
def BuildLimits.usable (it : BuildLimits) (t : Setup) (s : STerrainMapSector) : Bool :=
  (it.canHover && it.maxElevation ≥ s.maxElevation && !t.waterIsAVoid) ||
  (it.canFloat && it.maxElevation ≥ s.maxElevation && !t.waterIsHarmful) ||
  (it.minElevation ≤ s.minElevation && it.maxElevation ≥ s.maxElevation &&
    (!t.waterIsHarmful || s.minElevation ≥ 0))

/-- The members of `STerrainMapMobileType` that `Init` takes from the unit definitions. -/
structure MoveLimits where
  maxSlope : ℚ
  maxElevation : ℚ
  minElevation : ℚ
  canHover : Bool
  canFloat : Bool
  deriving DecidableEq, Repr

/-- The condition under which a sector is put in `sectorsRemaining`. -/
def MoveLimits.usable (mt : MoveLimits) (t : Setup) (s : STerrainMapSector) : Bool :=
  (mt.canHover && mt.maxElevation ≥ s.maxElevation && !t.waterIsAVoid &&
    (s.maxElevation ≤ 0 || mt.maxSlope ≥ s.maxSlope)) ||
  (mt.canFloat && mt.maxElevation ≥ s.maxElevation && !t.waterIsHarmful &&
    (s.maxElevation ≤ 0 || mt.maxSlope ≥ s.maxSlope)) ||
  (mt.maxSlope ≥ s.maxSlope && mt.minElevation ≤ s.minElevation && mt.maxElevation ≥ s.maxElevation &&
    (!t.waterIsHarmful || s.minElevation ≥ 0))

/-! ## Grouping sectors into areas -/

def mapAreaListSize : ℕ := 50

/-- `MAMinimalSectors`. -/
def maMinimalSectors : ℕ := 8

/-- `MAMinimalSectorPercent`. -/
def maMinimalSectorPercent : ℚ := 1 / 2

/-- The test for an area that is too small to be kept. -/
def isMinor (t : Setup) (area : Finset ℕ) : Bool :=
  area.card ≤ maMinimalSectors || t.percentOfMap area.card ≤ maMinimalSectorPercent

/-- The variables of the loop that groups sectors; `area` has the sectors of `mt.area`. -/
structure Grouping where
  sectorSearch : List ℕ
  sectorsRemaining : Finset ℕ
  area : List (Finset ℕ)
  areaSize : ℕ

/-- The sectors left, right, up and down of a sector. -/
def Setup.neighbours (t : Setup) (i : ℕ) : List ℕ :=
  (if i % t.sectorXSize > 0 then [i - 1] else []) ++
  (if i % t.sectorXSize < t.sectorXSize - 1 then [i + 1] else []) ++
  (if i / t.sectorXSize > 0 then [i - t.sectorXSize] else []) ++
  (if i / t.sectorXSize < t.sectorZSize - 1 then [i + t.sectorXSize] else [])

namespace Grouping

variable (t : Setup) (g : Grouping)

/-- A neighbour is moved to the search if it remains. -/
def visit (g : Grouping) (j : ℕ) : Grouping :=
  if j ∈ g.sectorsRemaining then
    { g with sectorSearch := g.sectorSearch ++ [j], sectorsRemaining := g.sectorsRemaining.erase j }
  else
    g

/-- `mt.area.back().sector[i] = ..`. -/
def addToBack (i : ℕ) : List (Finset ℕ) → List (Finset ℕ)
  | [] => []
  | [area] => [insert i area]
  | area :: areas => area :: addToBack i areas

/-- The branch of the loop that takes sector `i` off the search. -/
def expand (i : ℕ) : Grouping :=
  let g := (t.neighbours i).foldl visit { g with area := addToBack i g.area }
  { g with sectorSearch := g.sectorSearch.tail }

/-- The index of the first smallest area. -/
def smallest (area : List (Finset ℕ)) : ℕ :=
  (range area.length).foldl
    (fun best k => if (area.getD k ∅).card < (area.getD best ∅).card then k else best) 0

def eraseSmallest : Grouping :=
  if g.areaSize > 0 && (g.areaSize == mapAreaListSize || isMinor t (g.area.getLastD ∅)) then
    { g with area := g.area.eraseIdx (smallest g.area), areaSize := g.areaSize - 1 }
  else
    g

def openArea : Grouping :=
  match (range t.sectors).find? (· ∈ g.sectorsRemaining) with
  | none => g
  | some i =>
    { g with
      sectorSearch := g.sectorSearch ++ [i]
      sectorsRemaining := g.sectorsRemaining.erase i
      area := g.area ++ [∅]
      areaSize := g.areaSize + 1 }

/-- One turn of the loop. -/
def step : Grouping :=
  match g.sectorSearch with
  | i :: _ => g.expand t i
  | [] => (g.eraseSmallest t).openArea t

/-- The loop, for at most `n` turns. -/
def run : ℕ → Grouping → Grouping
  | 0, g => g
  | n + 1, g => if g.sectorsRemaining = ∅ ∧ g.sectorSearch = [] then g else run n (g.step t)

end Grouping

/-- "Group sectors into areas". Each turn takes a sector off the search or one off what remains, so that
`2 * t.sectors` turns are enough. -/
def groupSectors (t : Setup) (usable : ℕ → Bool) : List (Finset ℕ) :=
  let g := Grouping.run t (2 * t.sectors) ⟨[], (Finset.range t.sectors).filter fun i => usable i, [], 0⟩
  if g.areaSize > 0 && isMinor t (g.area.getLastD ∅) then g.area.dropLast else g.area

/-! ## The data of all types -/

structure STerrainMapAreaSector where
  area : Option ℕ
  sectorAlternativeM : Cache
  sectorAlternativeI : Cache

/-- The state the constructor and the reset of `UpdateAreas` leave a sector in. -/
def STerrainMapAreaSector.new : STerrainMapAreaSector := ⟨none, Cache.empty, Cache.empty⟩

structure STerrainMapArea where
  areaUsable : Bool
  sector : Finset ℕ
  sectorClosest : Cache
  percentOfMap : ℚ

structure STerrainMapMobileType extends MoveLimits where
  typeUsable : Bool
  sector : ℕ → STerrainMapAreaSector
  area : List STerrainMapArea
  areaLargest : Option ℕ

structure STerrainMapImmobileType extends BuildLimits where
  typeUsable : Bool
  sector : Finset ℕ
  sectorClosest : Cache

structure SAreaData where
  mobileType : List STerrainMapMobileType
  immobileType : List STerrainMapImmobileType
  sectorAirType : ℕ → STerrainMapAreaSector
  sector : ℕ → STerrainMapSector
  percentLand : ℚ
  heightMap : FloatVec

/-- `typeUsable` of an immobile type with `n` sectors. -/
def immobileUsable (t : Setup) (n : ℕ) : Bool :=
  t.percentOfMap n ≥ 20 || (t.convertStoP * t.convertStoP * n : ℚ) ≥ 18000000

/-- The pointers `STerrainMapAreaSector::area` after "Calculations". -/
def assignArea (areas : List (Finset ℕ)) (area : ℕ → Option ℕ) : ℕ → Option ℕ :=
  (range areas.length).foldl (fun area k i => if i ∈ areas.getD k ∅ then some k else area i) area

/-- `areaLargest` after "Calculations". -/
def findLargest (t : Setup) (areas : List (Finset ℕ)) : Option ℕ :=
  (range areas.length).foldl
    (fun areaLargest k =>
      match areaLargest with
      | none => some k
      | some b =>
        if t.percentOfMap (areas.getD b ∅).card < t.percentOfMap (areas.getD k ∅).card then some k
        else areaLargest)
    none

/-- An area with the given sectors after "Calculations". -/
def newArea (t : Setup) (area : Finset ℕ) : STerrainMapArea :=
  { areaUsable := t.percentOfMap area.card ≥ 20
    sector := area
    sectorClosest := Cache.empty
    percentOfMap := t.percentOfMap area.card }

/-- "Calculations": what a type without areas knows once its areas are found. -/
def calculations (t : Setup) (mt : STerrainMapMobileType) (areas : List (Finset ℕ)) : STerrainMapMobileType :=
  { mt with
    area := areas.map (newArea t)
    sector := fun i => { mt.sector i with area := assignArea areas (fun i => (mt.sector i).area) i }
    areaLargest := findLargest t areas
    typeUsable := mt.typeUsable || areas.any fun area => t.percentOfMap area.card ≥ 20 }

/-! ## `Init` -/

/-- The sectors an immobile type can use. -/
def usableSectors (t : Setup) (it : BuildLimits) (sector : ℕ → STerrainMapSector) : Finset ℕ :=
  (Finset.range t.sectors).filter fun i => it.usable t (sector i)

def initImmobileType (t : Setup) (sector : ℕ → STerrainMapSector) (it : BuildLimits) : STerrainMapImmobileType :=
  { it with
    typeUsable := immobileUsable t (usableSectors t it sector).card
    sector := usableSectors t it sector
    sectorClosest := Cache.empty }

def initMobileType (t : Setup) (sector : ℕ → STerrainMapSector) (mt : MoveLimits) : STerrainMapMobileType :=
  calculations t
    { mt with typeUsable := false, sector := fun _ => .new, area := [], areaLargest := none }
    (groupSectors t fun i => mt.usable t (sector i))

def mapPercentLand (t : Setup) (heightMap slopeMap : FloatVec) : ℚ :=
  ((range t.sectors).map fun i => (scan t heightMap slopeMap i).percentLand).sum * (100 / t.heightCount)

/-- The area data `Init` computes for the types of the unit definitions. -/
def init (t : Setup) (mobileType : List MoveLimits) (immobileType : List BuildLimits)
    (heightMap slopeMap : FloatVec) : SAreaData :=
  let sector := fun i => settle t (scan t heightMap slopeMap i)
  { mobileType := mobileType.map (initMobileType t sector)
    immobileType := immobileType.map (initImmobileType t sector)
    sectorAirType := fun _ => .new
    sector
    percentLand := mapPercentLand t heightMap slopeMap
    heightMap }

/-- "Duplicate areaData": the second buffer, whose `percentLand` and height map stay as constructed. -/
def duplicate (t : Setup) (d : SAreaData) : SAreaData :=
  { d with
    immobileType := d.immobileType.map fun it =>
      { it with sector := it.sector ∪ usableSectors t it.toBuildLimits d.sector }
    percentLand := 0
    heightMap := fun _ => 0 }

/-! ## `UpdateAreas` -/

def isSectorHeightChanged (t : Setup) (heightMap prevHeightMap : FloatVec) (i : ℕ) : Bool :=
  (t.cells t.convertStoHM i).any fun iH => heightMap iH != prevHeightMap iH

/-- A sector after the loop of `UpdateAreas` over the sectors. -/
def updateSector (t : Setup) (heightMap slopeMap : FloatVec) (prev : SAreaData) (i : ℕ) : STerrainMapSector :=
  if isSectorHeightChanged t heightMap prev.heightMap i then settle t (scan t heightMap slopeMap i)
  else prev.sector i

/-- `tmpPercentLand` after the loop over the sectors. -/
def updatePercentLand (t : Setup) (heightMap slopeMap : FloatVec) (prev : SAreaData) : ℚ :=
  (range t.sectors).foldl
    (fun tmpPercentLand i =>
      if isSectorHeightChanged t heightMap prev.heightMap i then
        let prevPercentLand := round ((prev.sector i).percentLand * (t.convertStoHM * t.convertStoHM) / 100)
        let percentLand := (scan t heightMap slopeMap i).percentLand
        if percentLand ≠ prevPercentLand then tmpPercentLand + (percentLand - prevPercentLand)
        else tmpPercentLand
      else
        tmpPercentLand)
    (round (prev.percentLand * t.heightCount / 100))

/-- An immobile type after the loop over the sectors: it starts from its previous sectors, and each
changed sector is put in or taken out. -/
def updateImmobileType (t : Setup) (changed : ℕ → Bool) (sector : ℕ → STerrainMapSector)
    (it prev : STerrainMapImmobileType) : STerrainMapImmobileType :=
  let sectors := (range t.sectors).foldl
    (fun sectors i =>
      if changed i then if it.usable t (sector i) then insert i sectors else sectors.erase i
      else sectors)
    prev.sector
  { it with typeUsable := immobileUsable t sectors.card, sector := sectors, sectorClosest := Cache.empty }

/-- `shouldRebuild`: a changed sector can now be used but lay in no area, or lay in one and cannot. -/
def shouldRebuild (t : Setup) (changed : ℕ → Bool) (sector : ℕ → STerrainMapSector)
    (mt : STerrainMapMobileType) : Bool :=
  (range t.sectors).any fun i =>
    changed i && (if mt.usable t (sector i) then (mt.sector i).area.isNone else (mt.sector i).area.isSome)

/-- A mobile type is reset, gets new areas or those of the previous data, and its calculations. -/
def updateMobileType (t : Setup) (changed : ℕ → Bool) (sector : ℕ → STerrainMapSector)
    (mt prev : STerrainMapMobileType) : STerrainMapMobileType :=
  calculations t
    { mt with sector := fun _ => .new, area := [], areaLargest := none }
    (if shouldRebuild t changed sector prev then groupSectors t fun i => mt.usable t (sector i)
     else prev.area.map (·.sector))

/-- `UpdateAreas` on the buffer `next`, whose height map is loaded. `sectorAirType` is left as it is. -/
def updateAreas (t : Setup) (slopeMap : FloatVec) (next prev : SAreaData) : SAreaData :=
  let changed := isSectorHeightChanged t next.heightMap prev.heightMap
  let sector := updateSector t next.heightMap slopeMap prev
  { next with
    sector
    immobileType := zipWith (updateImmobileType t changed sector) next.immobileType prev.immobileType
    mobileType := zipWith (updateMobileType t changed sector) next.mobileType prev.mobileType
    percentLand := updatePercentLand t next.heightMap slopeMap prev * 100 / t.heightCount }

/-! ## The two buffers -/

/-- The area data in use (`pAreaData`) and the other buffer. -/
structure CTerrainData where
  pAreaData : SAreaData
  nextAreaData : SAreaData

namespace CTerrainData

variable (t : Setup)

/-- The buffers after `Init`. -/
def init (mobileType : List MoveLimits) (immobileType : List BuildLimits) (heightMap slopeMap : FloatVec) :
    CTerrainData :=
  let areaData := TerrainData.init t mobileType immobileType heightMap slopeMap
  ⟨areaData, duplicate t areaData⟩

/-- `EnqueueUpdate` loads the maps and `UpdateAreas` runs on the next buffer. -/
def update (d : CTerrainData) (heightMap slopeMap : FloatVec) : CTerrainData :=
  { d with nextAreaData := updateAreas t slopeMap { d.nextAreaData with heightMap } d.pAreaData }

/-- `OnAreaUsersUpdated` for the last user makes the next buffer the one in use. -/
def swap (d : CTerrainData) : CTerrainData := ⟨d.nextAreaData, d.pAreaData⟩

end CTerrainData

end Circuit.Impl.TerrainData
