import CircuitAI.Framework.Memo
import CircuitAI.Impl.TerrainData

/-!
# Queries for sectors

The part of `terrain/TerrainManager.cpp` that finds sectors on the area data: the sector of an area or of an immobile type
closest to a given one (`getClosestSector`), and the one that stands in for it for another kind of movement or building
(`getAlternativeSector`). Results are kept in the maps of `TerrainData.h` that are filled on demand.

A pointer to an area is the index of its mobile type and its place in the type's list, a pointer to a type its index. The
distances of `AIFloat3` and the largest float are a parameter. Where the source follows a null pointer to a sector, the
model answers with null.
-/

namespace Circuit.Impl.SectorQuery

open TerrainData Framework Prod Function

/-- What the queries use of `AIFloat3` and of the range of floats. -/
structure Metric where
  sqDistance2D : ℕ × ℕ → ℕ × ℕ → ℚ
  distance2D : ℕ × ℕ → ℕ × ℕ → ℚ
  fltMax : ℚ

/-- The centre of a sector. -/
def position (t : Setup) (i : ℕ) : ℕ × ℕ :=
  (i % t.sectorXSize * t.convertStoP + t.convertStoP / 2, i / t.sectorXSize * t.convertStoP + t.convertStoP / 2)

/-- `CTerrainData::GetSectorIndex`. -/
def getSectorIndex (t : Setup) (position : ℕ × ℕ) : ℕ :=
  t.sectorXSize * (position.2 / t.convertStoP) + position.1 / t.convertStoP

/-- `STerrainMapArea*`. -/
abbrev AreaRef := ℕ × ℕ

/-! ## Reading and writing area data -/

/-- The area a pointer leads to. -/
def area (d : SAreaData) (a : AreaRef) : Option STerrainMapArea := d.mobileType[a.1]?.bind (·.area[a.2]?)

/-- The sectors of a mobile type, or those of flying units. -/
def sectorList (d : SAreaData) : Option ℕ → ℕ → STerrainMapAreaSector
  | none => d.sectorAirType
  | some m => (d.mobileType[m]?.map (·.sector)).getD fun _ => .new

def getSectorList (d : SAreaData) (sourceArea : Option AreaRef) : ℕ → STerrainMapAreaSector :=
  sectorList d (sourceArea.map fst)

/-- `sourceArea->sectorClosest[destinationSIndex] = ..`. -/
def setClosest (a : AreaRef) (destinationSIndex : ℕ) (r : Option ℕ) (d : SAreaData) : SAreaData :=
  { d with
    mobileType := d.mobileType.modify a.1 fun mt =>
      { mt with
        area := mt.area.modify a.2 fun area =>
          { area with sectorClosest := update area.sectorClosest destinationSIndex (some r) } } }

/-- `sourceIT->sectorClosest[destinationSIndex] = ..`. -/
def setClosestI (it : ℕ) (destinationSIndex : ℕ) (r : Option ℕ) (d : SAreaData) : SAreaData :=
  { d with
    immobileType := d.immobileType.modify it fun type =>
      { type with sectorClosest := update type.sectorClosest destinationSIndex (some r) } }

def modifySector (list : Option ℕ) (i : ℕ) (f : STerrainMapAreaSector → STerrainMapAreaSector) (d : SAreaData) :
    SAreaData :=
  match list with
  | none => { d with sectorAirType := update d.sectorAirType i (f (d.sectorAirType i)) }
  | some m =>
    { d with
      mobileType := d.mobileType.modify m fun mt =>
        { mt with sector := update mt.sector i (f (mt.sector i)) } }

/-- `TMSectors[i].sectorAlternativeM[destinationMT] = ..`. -/
def setAlternativeM (list : Option ℕ) (i m : ℕ) (r : Option ℕ) : SAreaData → SAreaData :=
  modifySector list i fun s => { s with sectorAlternativeM := update s.sectorAlternativeM m (some r) }

/-- `TMSectors[i].sectorAlternativeI[destinationIT] = ..`. -/
def setAlternativeI (list : Option ℕ) (i it : ℕ) (r : Option ℕ) : SAreaData → SAreaData :=
  modifySector list i fun s => { s with sectorAlternativeI := update s.sectorAlternativeI it (some r) }

/-! ## `GetClosestSector` -/

variable (g : Metric) (t : Setup)

/-- The loop over a map of sectors for the first one at the least distance. -/
def nearest (sector : Finset ℕ) (destinationSIndex : ℕ) : Option ℕ :=
  (((List.range t.sectors).filter (· ∈ sector)).foldl
    (fun (closest : Option ℕ × ℚ) i =>
      let sqDist := g.sqDistance2D (position t i) (position t destinationSIndex)
      if sqDist < closest.2 then (some i, sqDist) else closest)
    (none, g.fltMax)).1

/-- `GetClosestSector` for an area, apart from its map. -/
def findClosest (a : AreaRef) (destinationSIndex : ℕ) (d : SAreaData) : Option ℕ :=
  (area d a).bind fun sourceArea =>
    if (sectorList d (some a.1) destinationSIndex).area = some a.2 then some destinationSIndex
    else nearest g t sourceArea.sector destinationSIndex

def getClosestSector (a : AreaRef) (destinationSIndex : ℕ) : StateM SAreaData (Option ℕ) :=
  memo (fun d => (area d a).bind (·.sectorClosest destinationSIndex)) (setClosest a destinationSIndex)
    (reads (findClosest g t a destinationSIndex))

/-- `GetClosestSector` for an immobile type, apart from its map. -/
def findClosestI (it : ℕ) (destinationSIndex : ℕ) (d : SAreaData) : Option ℕ :=
  d.immobileType[it]?.bind fun sourceIT =>
    if destinationSIndex ∈ sourceIT.sector then some destinationSIndex
    else nearest g t sourceIT.sector destinationSIndex

def getClosestSectorI (it : ℕ) (destinationSIndex : ℕ) : StateM SAreaData (Option ℕ) :=
  memo (fun d => d.immobileType[it]?.bind (·.sectorClosest destinationSIndex)) (setClosestI it destinationSIndex)
    (reads (findClosestI g t it destinationSIndex))

/-! ## `GetAlternativeSector` for a mobile type -/

structure Best where
  bestAS : Option ℕ
  bestDistance : ℚ
  bestMidDistance : ℚ

def isConsidered (m k : ℕ) (d : SAreaData) : Bool :=
  ((area d (m, k)).map (·.areaUsable)).getD false ||
  !(((d.mobileType[m]?.bind (·.areaLargest)).bind fun b => (area d (m, b)).map (·.areaUsable)).getD false)

def areaPercent (a : AreaRef) (d : SAreaData) : ℚ := ((area d a).map (·.percentOfMap)).getD 0

/-- `percentOfMap` of the area a sector of a mobile type belongs to. -/
def sectorPercent (m i : ℕ) (d : SAreaData) : ℚ :=
  ((sectorList d (some m) i).area.map fun k => areaPercent (m, k) d).getD 0

/-- "how much of a gap exists between the two areas": from sector `c` to the source area. -/
def findMidDistance (sourceArea : Option AreaRef) (c : ℕ) : StateM SAreaData ℚ :=
  match sourceArea with
  | none => pure 0
  | some a => do
    let i := getSectorIndex t (position t c)
    let inside ← reads fun d => decide ((sectorList d (some a.1) i).area = some a.2)
    if inside then
      pure 0
    else do
      let r ← getClosestSector g t a i
      pure ((r.map fun r => g.distance2D (position t c) (position t r)).getD 0)

/-- One turn of the loop over the areas of the destination type. -/
def considerArea (sourceArea : Option AreaRef) (sourceSIndex m : ℕ) (b : Best) (k : ℕ) : StateM SAreaData Best := do
  let considered ← reads (isConsidered m k)
  if considered then
    match ← getClosestSector g t (m, k) sourceSIndex with
    | none => pure b
    | some c => do
      let midDistance ← findMidDistance g t sourceArea c
      let b := if b.bestMidDistance < 0 || midDistance < b.bestMidDistance then ⟨none, -1, midDistance⟩ else b
      let distance := g.distance2D (position t sourceSIndex) (position t c)
      let better ← reads fun d => midDistance == b.bestMidDistance && match b.bestAS with
        | none => true
        | some bestAS => decide (distance * areaPercent (m, k) d < b.bestDistance * sectorPercent m bestAS d)
      pure (if better then { b with bestAS := some c, bestDistance := distance } else b)
  else
    pure b

/-- The loop over the areas of the destination type. -/
def searchAlternative (sourceArea : Option AreaRef) (sourceSIndex m : ℕ) : StateM SAreaData (Option ℕ) := do
  let n ← reads fun d => (d.mobileType[m]?.map (·.area.length)).getD 0
  let b ← (List.range n).foldlM (considerArea g t sourceArea sourceSIndex m) ⟨none, -1, -1⟩
  pure b.bestAS

/-- `TMSectors[sourceSIndex].sectorAlternativeM.find(destinationMT)`. -/
def alternativeM (list : Option ℕ) (sourceSIndex m : ℕ) (d : SAreaData) : Option (Option ℕ) :=
  (sectorList d list sourceSIndex).sectorAlternativeM m

def isOutside (sourceArea : Option AreaRef) (sourceSIndex : ℕ) (d : SAreaData) : Bool :=
  sourceArea.any fun a => (getSectorList d sourceArea sourceSIndex).area != some a.2

/-- `GetAlternativeSector` for a mobile type, with at most `n` calls. Null stands for flying units, and the maps have no
entry for it. -/
def getAlternativeSector (sourceArea : Option AreaRef) : ℕ → ℕ → Option ℕ → StateM SAreaData (Option ℕ)
  | _, sourceSIndex, none => pure (some sourceSIndex)
  | 0, _, some _ => pure none
  | n + 1, sourceSIndex, some m => do
    let list := sourceArea.map fst
    let elsewhere ← reads fun d => (alternativeM list sourceSIndex m d).isNone && isOutside sourceArea sourceSIndex d
    if elsewhere then
      match ← sourceArea.elim (pure none) (getClosestSector g t · sourceSIndex) with
      | none => pure none
      | some c => getAlternativeSector sourceArea n (getSectorIndex t (position t c)) (some m)
    else
      memo (alternativeM list sourceSIndex m) (setAlternativeM list sourceSIndex m)
        (searchAlternative g t sourceArea sourceSIndex m)

/-! ## `GetAlternativeSector` for an immobile type -/

/-- `TMSectors[sourceSIndex].sectorAlternativeI.find(destinationIT)`. -/
def alternativeI (list : Option ℕ) (sourceSIndex it : ℕ) (d : SAreaData) : Option (Option ℕ) :=
  (sectorList d list sourceSIndex).sectorAlternativeI it

/-- `GetAlternativeSector` for an immobile type, with at most `n` calls. -/
def getAlternativeSectorI (destinationArea : Option AreaRef) (it : ℕ) : ℕ → ℕ → StateM SAreaData (Option ℕ)
  | 0, _ => pure none
  | n + 1, sourceSIndex =>
    let list := destinationArea.map fst
    memo (alternativeI list sourceSIndex it) (setAlternativeI list sourceSIndex it) <|
      match destinationArea with
      | none => pure none
      | some a => do
        let elsewhere ← reads (isOutside (some a) sourceSIndex)
        if elsewhere then
          match ← getClosestSector g t a sourceSIndex with
          | none => pure none
          | some c => getAlternativeSectorI destinationArea it n (getSectorIndex t (position t c))
        else
          reads fun d => (area d a).bind fun area => nearest g t area.sector sourceSIndex

/-! ## All queries -/

/-- A query with its arguments. -/
inductive Query where
  | closest (sourceArea : AreaRef) (destinationSIndex : ℕ)
  | closestI (sourceIT destinationSIndex : ℕ)
  | alternative (sourceArea : Option AreaRef) (sourceSIndex : ℕ) (destinationMT : Option ℕ)
  | alternativeI (destinationArea : Option AreaRef) (sourceSIndex destinationIT : ℕ)

/-- The query on the area data. A call leads to at most one more, for a sector inside the area. -/
def Query.ask : Query → StateM SAreaData (Option ℕ)
  | closest a i => getClosestSector g t a i
  | closestI it i => getClosestSectorI g t it i
  | alternative a i m => getAlternativeSector g t a 2 i m
  | alternativeI a i it => getAlternativeSectorI g t a it 2 i

end Circuit.Impl.SectorQuery
