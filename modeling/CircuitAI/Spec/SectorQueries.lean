import CircuitAI.Impl.SectorQuery

/-!
# Queries between updates

`emptied` is area data with all maps that are filled on demand cleared. A `Buffer` is one of the two `SAreaData` with
which entries for flying units are older than its last rebuild, and for which area an entry of `sectorAlternativeI` was
computed. `Run` is any interleaving of queries on either buffer, updates of the buffer that is not in use, and swaps.
`Clean`: a query does not read an entry that was made for something else; `Own`: a query for an immobile type does not.
`Fits` is what `GetAlternativeSector` should answer for an immobile type.
-/

namespace Circuit.Spec.SectorQueries

open Impl.TerrainData Impl.SectorQuery

def emptiedArea (area : STerrainMapArea) : STerrainMapArea := { area with sectorClosest := Cache.empty }

def emptiedSector (s : STerrainMapAreaSector) : STerrainMapAreaSector := ⟨s.area, Cache.empty, Cache.empty⟩

def emptiedType (mt : STerrainMapMobileType) : STerrainMapMobileType :=
  { mt with area := mt.area.map emptiedArea, sector := fun i => emptiedSector (mt.sector i) }

def emptiedImmobile (it : STerrainMapImmobileType) : STerrainMapImmobileType :=
  { it with sectorClosest := Cache.empty }

def emptied (d : SAreaData) : SAreaData :=
  { d with
    mobileType := d.mobileType.map emptiedType
    immobileType := d.immobileType.map emptiedImmobile
    sectorAirType := fun i => emptiedSector (d.sectorAirType i) }

structure Buffer where
  data : SAreaData
  /-- The entry of `sectorAlternativeM` for a sector of flying units and a mobile type was there when the buffer
  was last rebuilt. -/
  stale : ℕ → ℕ → Bool
  /-- The area for which the entry of `sectorAlternativeI` for a mobile type, a sector and an immobile type was
  computed. -/
  filler : ℕ → ℕ → ℕ → Option ℕ

namespace Buffer

variable (g : Metric) (t : Setup)

/-- The area a query for an immobile type is about. -/
def fills : Query → Option ℕ
  | .alternativeI (some a) _ _ => some a.2
  | _ => none

def ask (b : Buffer) (q : Query) : Buffer :=
  let d := (q.ask g t b.data).2
  { b with
    data := d
    filler := fun m i it =>
      if (alternativeI (some m) i it b.data).isNone && (alternativeI (some m) i it d).isSome then fills q
      else b.filler m i it }

def rebuild (b : Buffer) (prev : SAreaData) (heightMap slopeMap : FloatVec) : Buffer :=
  { b with
    data := updateAreas t slopeMap { b.data with heightMap } prev
    stale := fun i m => (alternativeM none i m b.data).isSome }

/-- A buffer as `Init` leaves it. -/
def new (d : SAreaData) : Buffer := ⟨d, fun _ _ => false, fun _ _ _ => none⟩

/-- An entry of `sectorAlternativeI`, if there is one, was computed for area `k` of type `m`. -/
def FilledFor (b : Buffer) (m k i it : ℕ) : Prop :=
  (alternativeI (some m) i it b.data).isSome → b.filler m i it = some k

/-- The query reads no entry that was made before the last rebuild or for another area. -/
def Clean (b : Buffer) : Query → Prop
  | .closest _ _ => True
  | .closestI _ _ => True
  | .alternative _ _ none => True
  | .alternative none i (some m) => b.stale i m = false
  | .alternative (some a) i (some m) =>
    (alternativeM (some a.1) i m b.data).isSome → (sectorList b.data (some a.1) i).area = some a.2
  | .alternativeI none _ _ => True
  | .alternativeI (some a) i it =>
    b.FilledFor a.1 a.2 i it ∧
      -- a sector outside the area without an entry is looked up at the closest sector inside
      ((alternativeI (some a.1) i it b.data).isNone → isOutside (some a) i b.data →
        ∀ c, findClosest g t a i b.data = some c → b.FilledFor a.1 a.2 c it)

/-- The query reads no entry for an immobile type that was made for another area. -/
def Own (b : Buffer) : Query → Prop
  | .alternativeI (some a) i it => b.Clean g t (.alternativeI (some a) i it)
  | _ => True

end Buffer

/-- The buffer in use and the other one, in any run whose queries meet the condition `ok`. -/
inductive Run (g : Metric) (t : Setup) (mobileType : List MoveLimits) (immobileType : List BuildLimits)
    (ok : Buffer → Query → Prop) : Buffer → Buffer → Prop
  | init (heightMap slopeMap : FloatVec) :
    Run g t mobileType immobileType ok
      (.new (CTerrainData.init t mobileType immobileType heightMap slopeMap).pAreaData)
      (.new (CTerrainData.init t mobileType immobileType heightMap slopeMap).nextAreaData)
  | ask {cur next : Buffer} (q : Query) :
    Run g t mobileType immobileType ok cur next → ok cur q →
    Run g t mobileType immobileType ok (cur.ask g t q) next
  | askNext {cur next : Buffer} (q : Query) :
    Run g t mobileType immobileType ok cur next → ok next q →
    Run g t mobileType immobileType ok cur (next.ask g t q)
  | update {cur next : Buffer} (heightMap slopeMap : FloatVec) :
    Run g t mobileType immobileType ok cur next →
    Run g t mobileType immobileType ok cur (next.rebuild t cur.data heightMap slopeMap)
  | swap {cur next : Buffer} :
    Run g t mobileType immobileType ok cur next → Run g t mobileType immobileType ok next cur

/-! ## What fits an area and a building -/

/-- What the distances have in common with those of a plane. -/
structure Planar (g : Metric) (t : Setup) : Prop where
  self : ∀ i, g.sqDistance2D (position t i) (position t i) = 0
  nonneg : ∀ p q, 0 ≤ g.sqDistance2D p q
  apart : ∀ i < t.sectors, ∀ j < t.sectors, i ≠ j → 0 < g.sqDistance2D (position t i) (position t j)
  fltMax_pos : 0 < g.fltMax

def buildable (d : SAreaData) (a : AreaRef) (it : ℕ) : Finset ℕ :=
  ((area d a).map (·.sector)).getD ∅ ∩ (d.immobileType[it]?.map (·.sector)).getD ∅

/-- The answer is a sector of the area on which the type can be built, as close as possible to the sector of the area
that is closest to sector `i`, and null only if there is no such sector. -/
def Fits (g : Metric) (t : Setup) (d : SAreaData) (a : AreaRef) (i it : ℕ) : Option ℕ → Prop
  | none => buildable d a it = ∅
  | some r =>
    r ∈ buildable d a it ∧
    ∀ c, (getClosestSector g t a i d).1 = some c → ∀ r' ∈ buildable d a it,
      g.sqDistance2D (position t r) (position t c) ≤ g.sqDistance2D (position t r') (position t c)

end Circuit.Spec.SectorQueries
