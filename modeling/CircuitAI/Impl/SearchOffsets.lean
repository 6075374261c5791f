import CircuitAI.Impl.TerrainManager

/-!
# The tables of search offsets

`GetSearchOffsetTable` of `terrain/TerrainManager.cpp` keeps one table for all searches: the offsets of a square around
the start, sorted by distance. It is filled again when a search needs a larger one, and searches with a smaller radius
use its first entries. `GetSearchOffsetTableLow` does the same over coarse squares, with the offsets of the cells of each;
when that table grows its entries are used again for other squares, and the cells are appended to those an entry has.

`std::sort` is a parameter. The searches read the offsets only (`SiteChecks.withTable`).
-/

namespace Circuit.Impl.TerrainManager

open List

open BlockingMap (gridRatioLow)

structure SSearchOffset where
  dx : Int
  dy : Int
  qdist : Int
  deriving DecidableEq, Repr

/-- The entry for an offset. -/
def SSearchOffset.new (dx dy : Int) : SSearchOffset := ⟨dx, dy, dx * dx + dy * dy⟩

/-- The two loops that fill the table. -/
def fillOffsets (radius : Int) (searchOffsets : List SSearchOffset) : List SSearchOffset :=
  let n := (radius * 2).toNat
  (range n).foldl
    (fun searchOffsets y =>
      (range n).foldl
        (fun searchOffsets x => searchOffsets.set (y * n + x) (.new (x - radius) (y - radius)))
        searchOffsets)
    searchOffsets

/-- `GetSearchOffsetTable` on the table that earlier calls left. -/
def getSearchOffsetTable (sort : List SSearchOffset → List SSearchOffset) (radius : Int)
    (searchOffsets : List SSearchOffset) : List SSearchOffset :=
  let size := (radius * radius * 4).toNat
  if size > searchOffsets.length then
    -- `resize` keeps the old entries and adds zeroes
    sort (fillOffsets radius (searchOffsets ++ replicate (size - searchOffsets.length) ⟨0, 0, 0⟩))
  else
    searchOffsets

/-! ## Coarse squares -/

structure SSearchOffsetLow where
  dx : Int
  dy : Int
  qdist : Int
  ofs : List SSearchOffset
  deriving DecidableEq, Repr

/-- The two loops that fill the local table of cells, with distances from the corner of a coarse square. -/
def fillCells (radius : Int) (searchOffsets : List SSearchOffset) : List SSearchOffset :=
  let n := (radius * 2).toNat
  (range n).foldl
    (fun searchOffsets y =>
      (range n).foldl
        (fun searchOffsets x => searchOffsets.set (y * n + x)
          (.new (x - radius + (gridRatioLow / 2 : Nat)) (y - radius + (gridRatioLow / 2 : Nat))))
        searchOffsets)
    searchOffsets

/-- The cells of the coarse square in column `xl` and row `yl`, as they are appended. -/
def squareCells (radius : Int) (searchOffsets : List SSearchOffset) (xl yl : Nat) : List SSearchOffset :=
  (range' (yl * gridRatioLow) gridRatioLow).flatMap fun y =>
    (range' (xl * gridRatioLow) gridRatioLow).map fun x =>
      searchOffsets.getD (y * (radius * 2).toNat + x) ⟨0, 0, 0⟩

/-- One turn of the loops over the coarse squares. -/
def SSearchOffsetLow.place (sort : List SSearchOffset → List SSearchOffset) (radius : Int)
    (searchOffsets : List SSearchOffset) (xl yl : Nat) (il : SSearchOffsetLow) : SSearchOffsetLow :=
  let radiusLow := radius.tdiv gridRatioLow
  let dx := xl - radiusLow
  let dy := yl - radiusLow
  { dx, dy, qdist := dx * dx + dy * dy, ofs := sort (il.ofs ++ squareCells radius searchOffsets xl yl) }

/-- The two loops over the coarse squares. -/
def fillOffsetsLow (sort : List SSearchOffset → List SSearchOffset) (radius : Int)
    (searchOffsets : List SSearchOffset) (searchOffsetsLow : List SSearchOffsetLow) : List SSearchOffsetLow :=
  let n := (radius.tdiv gridRatioLow * 2).toNat
  (range n).foldl
    (fun searchOffsetsLow yl =>
      (range n).foldl
        (fun searchOffsetsLow xl => searchOffsetsLow.modify (yl * n + xl) (.place sort radius searchOffsets xl yl))
        searchOffsetsLow)
    searchOffsetsLow

def sizeLow (radius : Int) : Nat := (radius.tdiv gridRatioLow * radius.tdiv gridRatioLow * 4).toNat

/-- `GetSearchOffsetTableLow` on the table that earlier calls left. -/
def getSearchOffsetTableLow (sort : List SSearchOffset → List SSearchOffset)
    (sortLow : List SSearchOffsetLow → List SSearchOffsetLow) (radius : Int)
    (searchOffsetsLow : List SSearchOffsetLow) : List SSearchOffsetLow :=
  if sizeLow radius > searchOffsetsLow.length then
    let searchOffsets := fillCells radius (replicate (radius * radius * 4).toNat ⟨0, 0, 0⟩)
    sortLow (fillOffsetsLow sort radius searchOffsets
      (searchOffsetsLow ++ replicate (sizeLow radius - searchOffsetsLow.length) ⟨0, 0, 0, []⟩))
  else
    searchOffsetsLow

/-! ## The tables of a search -/

/-- The surroundings of a search that finds the given table. -/
def SiteChecks.withTable (env : SiteChecks) (sort : List SSearchOffset → List SSearchOffset)
    (searchOffsets : List SSearchOffset) : SiteChecks :=
  { env with
    searchOffsets := fun radius => (getSearchOffsetTable sort radius searchOffsets).map fun o => (o.dx, o.dy) }

end Circuit.Impl.TerrainManager
