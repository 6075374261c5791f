import CircuitAI.Framework.Components
import CircuitAI.Impl.TerrainData

/-!
# What the area data is for

The areas of a kind of movement are the connected components of the sectors it can use, as far as they are
not minor (`Grouped`). `Same` compares two `SAreaData` by what they say of the map: the sectors, the share
of land, the sectors of each immobile type and the areas of each mobile type, whatever the order in
which the areas are listed. `Updates` is a run of `Init` and any number of updates, each of which ends with the
swap of the buffers.
-/

namespace Circuit.Spec.Areas

open Impl.TerrainData Framework

/-! ## Areas -/

/-- Sectors side by side. -/
def Adj (t : Setup) (i j : ℕ) : Prop := i < t.sectors ∧ j < t.sectors ∧ j ∈ t.neighbours i

/-- A component that is kept as an area. -/
def Major (t : Setup) (U C : Finset ℕ) : Prop := IsComponent (Adj t) U C ∧ isMinor t C = false

def Few (t : Setup) (U : Finset ℕ) : Prop :=
  ∀ l : List (Finset ℕ), l.Nodup → (∀ C ∈ l, Major t U C) → l.length < mapAreaListSize

def Grouped (t : Setup) (U : Finset ℕ) (areas : List (Finset ℕ)) : Prop :=
  areas.Nodup ∧ ∀ C, C ∈ areas ↔ Major t U C

/-- The sectors a kind of movement can use on the given maps. -/
def usable (t : Setup) (mt : MoveLimits) (heightMap slopeMap : FloatVec) : Finset ℕ :=
  (Finset.range t.sectors).filter fun i => mt.usable t (settle t (scan t heightMap slopeMap i))

/-! ## Comparing area data -/

def HasArea (mt : STerrainMapMobileType) (C : Finset ℕ) (areaUsable : Bool) : Prop :=
  ∃ area ∈ mt.area, area.sector = C ∧ area.areaUsable = areaUsable

def areaOf (mt : STerrainMapMobileType) (i : ℕ) : Option (Finset ℕ) :=
  (mt.sector i).area.bind fun k => mt.area[k]?.map (·.sector)

/-- `areaLargest` is an area of maximal size if there is an area. -/
def Largest (mt : STerrainMapMobileType) : Prop :=
  match mt.areaLargest with
  | none => mt.area = []
  | some k => ∃ area, mt.area[k]? = some area ∧ ∀ other ∈ mt.area, other.sector.card ≤ area.sector.card

structure SameAreas (t : Setup) (mt mt' : STerrainMapMobileType) : Prop where
  limits : mt.toMoveLimits = mt'.toMoveLimits
  area : ∀ C areaUsable, HasArea mt C areaUsable ↔ HasArea mt' C areaUsable
  assigned : ∀ i < t.sectors, areaOf mt i = areaOf mt' i
  largest : Largest mt ∧ Largest mt'

structure SameSectors (it it' : STerrainMapImmobileType) : Prop where
  limits : it.toBuildLimits = it'.toBuildLimits
  sector : it.sector = it'.sector
  typeUsable : it.typeUsable = it'.typeUsable

structure Same (t : Setup) (d d' : SAreaData) : Prop where
  sector : ∀ i < t.sectors, d.sector i = d'.sector i
  percentLand : d.percentLand = d'.percentLand
  immobileType : List.Forall₂ SameSectors d.immobileType d'.immobileType
  mobileType : List.Forall₂ (SameAreas t) d.mobileType d'.mobileType

/-! ## Runs -/

def SlopesKept (t : Setup) (heightMap slopeMap heightMap' slopeMap' : FloatVec) : Prop :=
  ∀ i < t.sectors, (∀ iH ∈ t.cells t.convertStoHM i, heightMap' iH = heightMap iH) →
    ∀ iS ∈ t.cells t.convertStoSM i, slopeMap' iS = slopeMap iS

/-- The buffers after `Init` and any number of updates, the last with the given maps. -/
inductive Updates (t : Setup) (mobileType : List MoveLimits) (immobileType : List BuildLimits) :
    CTerrainData → FloatVec → FloatVec → Prop
  | init (heightMap slopeMap : FloatVec) :
    (∀ mt ∈ mobileType, Few t (usable t mt heightMap slopeMap)) →
    Updates t mobileType immobileType (.init t mobileType immobileType heightMap slopeMap) heightMap slopeMap
  | update {d : CTerrainData} {heightMap slopeMap : FloatVec} (heightMap' slopeMap' : FloatVec) :
    Updates t mobileType immobileType d heightMap slopeMap →
    SlopesKept t heightMap slopeMap heightMap' slopeMap' →
    (∀ mt ∈ mobileType, Few t (usable t mt heightMap' slopeMap')) →
    Updates t mobileType immobileType (d.update t heightMap' slopeMap').swap heightMap' slopeMap'

end Circuit.Spec.Areas
