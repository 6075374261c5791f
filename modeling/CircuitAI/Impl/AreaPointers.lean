import CircuitAI.Impl.TerrainData

/-!
# The pointers of the area data

The two `SAreaData` of a `CTerrainData` refer to themselves: a sector to its area, an area to its type and its sectors, a
type to its largest area, the sectors of all types to the global ones. `TerrainData` leaves out which of the two a pointer
leads into. Here it is kept, since `Init` makes the second buffer by copying the first one, pointers and all, and
then going through what has been copied ("Duplicate areaData").

The maps that are filled on demand are empty during `Init`, and are left out.
-/

namespace Circuit.Impl.AreaPointers

open Function List

open TerrainData (Setup MoveLimits BuildLimits STerrainMapSector)

inductive Buffer
  | areaData0
  | areaData1
  deriving DecidableEq

structure SectorPtr where
  buffer : Buffer
  index : ℕ
  deriving DecidableEq

structure MobileTypePtr where
  buffer : Buffer
  type : ℕ
  deriving DecidableEq

/-- `&mobileType[type].sector[index]`. -/
structure AreaSectorPtr where
  buffer : Buffer
  type : ℕ
  index : ℕ
  deriving DecidableEq

/-- `&mobileType[type].area[index]`. -/
structure AreaPtr where
  buffer : Buffer
  type : ℕ
  index : ℕ
  deriving DecidableEq

/-- A `std::map` from sector indices to pointers. -/
structure PtrMap (P : Type) where
  keys : Finset ℕ
  ptr : ℕ → Option P
  isSome_ptr : ∀ i, (ptr i).isSome ↔ i ∈ keys

namespace PtrMap

variable {P : Type}

/-- The map with the given keys and values. -/
def ofKeys (keys : Finset ℕ) (f : ℕ → P) : PtrMap P where
  keys
  ptr i := if i ∈ keys then some (f i) else none
  isSome_ptr i := by split <;> simp_all

/-- Every value is replaced by one that depends on its key. -/
def relink (m : PtrMap P) (f : ℕ → P) : PtrMap P := ofKeys m.keys f

def insert (m : PtrMap P) (i : ℕ) (p : P) : PtrMap P where
  keys := Insert.insert i m.keys
  ptr := update m.ptr i (some p)
  isSome_ptr j := by
    by_cases h : j = i
    · subst h
      simp
    · rw [update_of_ne h, m.isSome_ptr j, Finset.mem_insert, or_iff_right h]

theorem insert_ptr_self (m : PtrMap P) (i : ℕ) (p : P) : (m.insert i p).ptr i = some p := update_self _ _ _

theorem insert_ptr_of_ne {m : PtrMap P} {i j : ℕ} {p : P} (h : i ≠ j) : (m.insert j p).ptr i = m.ptr i :=
  update_of_ne h _ _

end PtrMap

structure STerrainMapAreaSector where
  S : Option SectorPtr
  area : Option AreaPtr

structure STerrainMapArea where
  areaUsable : Bool
  mobileType : MobileTypePtr
  sector : PtrMap AreaSectorPtr
  percentOfMap : ℚ

structure STerrainMapMobileType extends MoveLimits where
  typeUsable : Bool
  sector : ℕ → STerrainMapAreaSector
  area : List STerrainMapArea
  areaLargest : Option AreaPtr

structure STerrainMapImmobileType extends BuildLimits where
  typeUsable : Bool
  sector : PtrMap SectorPtr

structure SAreaData where
  mobileType : List STerrainMapMobileType
  immobileType : List STerrainMapImmobileType
  sectorAirType : ℕ → STerrainMapAreaSector
  sector : ℕ → STerrainMapSector

/-! ## The first buffer -/

/-- An area of type `j`, whose pointers are taken in the buffer `b`. -/
def placeArea (b : Buffer) (j : ℕ) (area : TerrainData.STerrainMapArea) : STerrainMapArea where
  areaUsable := area.areaUsable
  mobileType := ⟨b, j⟩
  sector := .ofKeys area.sector fun i => ⟨b, j, i⟩
  percentOfMap := area.percentOfMap

/-- The type `j`, whose pointers are taken in the buffer `b`. -/
def placeMobileType (b : Buffer) (j : ℕ) (mt : TerrainData.STerrainMapMobileType) : STerrainMapMobileType :=
  { mt.toMoveLimits with
    typeUsable := mt.typeUsable
    sector := fun i => ⟨some ⟨b, i⟩, (mt.sector i).area.map fun k => ⟨b, j, k⟩⟩
    area := mt.area.map (placeArea b j)
    areaLargest := mt.areaLargest.map fun k => ⟨b, j, k⟩ }

def placeImmobileType (b : Buffer) (it : TerrainData.STerrainMapImmobileType) : STerrainMapImmobileType :=
  { it.toBuildLimits with
    typeUsable := it.typeUsable
    sector := .ofKeys it.sector fun i => ⟨b, i⟩ }

/-- What `Init` leaves in the buffer it computes, on the sectors given. -/
def init (t : Setup) (b : Buffer) (sector : ℕ → STerrainMapSector) (mobileType : List MoveLimits)
    (immobileType : List BuildLimits) : SAreaData where
  mobileType := mobileType.mapIdx fun j mt => placeMobileType b j (TerrainData.initMobileType t sector mt)
  immobileType := immobileType.map fun it => placeImmobileType b (TerrainData.initImmobileType t sector it)
  sectorAirType i := ⟨some ⟨b, i⟩, none⟩
  sector

/-! ## "Duplicate areaData" -/

/-- `area.mobileType = &mt`, and `kv.second = &mt.sector[kv.first]` for the sectors of the area. -/
def relinkArea (b : Buffer) (j : ℕ) (area : STerrainMapArea) : STerrainMapArea :=
  { area with mobileType := ⟨b, j⟩, sector := area.sector.relink fun i => ⟨b, j, i⟩ }

/-- `kv.second->area = &area`, for the areas in turn. -/
def relinkSectors (b : Buffer) (j : ℕ) (areas : List STerrainMapArea) (area : ℕ → Option AreaPtr) :
    ℕ → Option AreaPtr :=
  (range areas.length).foldl
    (fun area k i => if areas[k]?.any (i ∈ ·.sector.keys) then some ⟨b, j, k⟩ else area i) area

/-- `mt.areaLargest`, after it has been set to null and the areas have been compared in turn. -/
def relinkLargest (b : Buffer) (j : ℕ) (areas : List STerrainMapArea) : Option AreaPtr :=
  (range areas.length).foldl
    (fun areaLargest k =>
      match areaLargest with
      | none => some ⟨b, j, k⟩
      | some p =>
        if (areas[p.index]?.map (·.percentOfMap)).getD 0 < (areas[k]?.map (·.percentOfMap)).getD 0 then
          some ⟨b, j, k⟩
        else areaLargest)
    none

/-- The loop over the mobile types, and `mt.sector[i].S` of the loop over the sectors. -/
def relinkMobileType (t : Setup) (b : Buffer) (j : ℕ) (mt : STerrainMapMobileType) : STerrainMapMobileType :=
  let area := relinkSectors b j mt.area fun i => (mt.sector i).area
  { mt with
    area := mt.area.map (relinkArea b j)
    sector := fun i => { S := if i < t.sectors then some ⟨b, i⟩ else (mt.sector i).S, area := area i }
    areaLargest := relinkLargest b j mt.area }

/-- The loop over the sectors writes the entries of those that the type can use. -/
def relinkImmobileType (t : Setup) (b : Buffer) (sector : ℕ → STerrainMapSector) (it : STerrainMapImmobileType) :
    STerrainMapImmobileType :=
  { it with
    sector := (range t.sectors).foldl
      (fun m i => if it.usable t (sector i) then m.insert i ⟨b, i⟩ else m) it.sector }

/-- The buffer `b` after it has been made from a copy of `d`. -/
def duplicate (t : Setup) (b : Buffer) (d : SAreaData) : SAreaData :=
  { d with
    mobileType := d.mobileType.mapIdx (relinkMobileType t b)
    immobileType := d.immobileType.map (relinkImmobileType t b d.sector)
    sectorAirType := fun i => { d.sectorAirType i with S := if i < t.sectors then some ⟨b, i⟩ else (d.sectorAirType i).S } }

end Circuit.Impl.AreaPointers
