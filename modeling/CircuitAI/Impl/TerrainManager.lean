import CircuitAI.Impl.BlockingMap
import Mathlib.Algebra.Group.Int.Defs
import Mathlib.Algebra.Group.Prod
import Mathlib.Data.Rat.Defs

/-!
# Marking buildings and searching for sites

`terrain/BlockMask.h`, `BlockRectangle.cpp`, `BlockCircle.cpp` and the building part of `terrain/TerrainManager.cpp`: the
masks that say which cells around a building it takes (`struct`) and which it only reserves (`block`), the marking of a
building on the blocking map, and the four searches for a free site. World coordinates are exact rationals. The engine's
checks, the terrain and threat checks, the caller's predicate and the tables of search offsets are parameters.
-/

namespace Circuit.Impl.TerrainManager

open BlockingMap

structure AIFloat3 where
  x : ℚ
  y : ℚ
  z : ℚ
  deriving DecidableEq, Repr

namespace AIFloat3

def zeroVector : AIFloat3 := ⟨0, 0, 0⟩

def add (p q : AIFloat3) : AIFloat3 := ⟨p.x + q.x, p.y + q.y, p.z + q.z⟩

def div (p : AIFloat3) (c : ℚ) : AIFloat3 := ⟨p.x / c, p.y / c, p.z / c⟩

def sqDistance2D (p q : AIFloat3) : ℚ := (p.x - q.x) ^ 2 + (p.z - q.z) ^ 2

end AIFloat3

/-- `-RgtVector`, the position that stands for none. -/
def noPos : AIFloat3 := ⟨-1, 0, 0⟩

/-- `utils::is_valid`. -/
def isValid (pos : AIFloat3) : Bool := pos.x != -1

/-- The conversion `int(q)`, which drops the fraction. -/
def toInt (q : ℚ) : Int := q.num.tdiv q.den

def squareSize : Nat := 8

/-! ## Block masks -/

/-- `IBlockMask::BlockType`. -/
inductive BlockType where
  | opn | block | struct
  deriving DecidableEq, Repr

structure IBlockMask where
  mask : Nat → BlockType
  xsize : Nat
  zsize : Nat
  offsetSouth : Int × Int
  offsetEast : Int × Int
  offsetNorth : Int × Int
  offsetWest : Int × Int
  structType : StructType
  ignoreMask : SM

namespace IBlockMask

variable (k : IBlockMask)

def getTypeSouth (x z : Int) : BlockType := k.mask (z * k.xsize + x).toNat

def getTypeEast (x z : Int) : BlockType := k.mask ((x + 1) * k.xsize - 1 - z).toNat

def getTypeNorth (x z : Int) : BlockType := k.mask ((k.zsize - z) * k.xsize - 1 - x).toNat

def getTypeWest (x z : Int) : BlockType := k.mask ((k.zsize - 1 - x) * k.xsize + z).toNat

/-- The `switch (facing)` over the four readings of the mask. -/
def getType (facing : Int) : Int → Int → BlockType :=
  match facing with
  | 1 => k.getTypeEast
  | 2 => k.getTypeNorth
  | 3 => k.getTypeWest
  | _ => k.getTypeSouth

def getStructOffset (facing : Int) : Int × Int :=
  match facing with
  | 1 => k.offsetEast
  | 2 => k.offsetNorth
  | 3 => k.offsetWest
  | _ => k.offsetSouth

/-- `xmsize` and `zmsize` of the mask turned to `facing`. -/
def size (facing : Int) : Nat × Nat :=
  match facing with
  | 1 => (k.zsize, k.xsize)
  | 3 => (k.zsize, k.xsize)
  | _ => (k.xsize, k.zsize)

structure BlockRects where
  b1 : Int × Int
  b2 : Int × Int
  s1 : Int × Int
  s2 : Int × Int

/-- The rectangles `Init` computes from the offset and the two sizes. -/
def rects (offset bsize ssize : Int × Int) : BlockRects :=
  let b1 := (offset.1 - bsize.1.tdiv 2, offset.2 - bsize.2.tdiv 2)
  let s1 := (-ssize.1.tdiv 2, -ssize.2.tdiv 2)
  let addon := (min b1.1 s1.1, min b1.2 s1.2)
  { b1 := b1 - addon, b2 := b1 + bsize - addon, s1 := s1 - addon, s2 := s1 + ssize - addon }

/-- `IBlockMask::Init` around the mask's contents, given as a function of the coordinates. -/
def init (r : BlockRects) (structType : StructType) (ignoreMask : SM) (contents : Int → Int → BlockType) : IBlockMask :=
  let xsize := (max r.b2.1 r.s2.1 - min r.b1.1 r.s1.1).toNat
  let zsize := (max r.b2.2 r.s2.2 - min r.b1.2 r.s1.2).toNat
  let south := (if r.b1.1 < r.s1.1 then r.s1.1 - r.b1.1 else 0, if r.b1.2 < r.s1.2 then r.s1.2 - r.b1.2 else 0)
  let north := (south.1, if r.b2.2 > r.s2.2 then r.b2.2 - r.s2.2 else 0)
  { mask := fun i => contents ((i % xsize : Nat)) ((i / xsize : Nat))
    xsize, zsize
    offsetSouth := south
    offsetEast := (south.2, if r.b2.1 > r.s2.1 then r.b2.1 - r.s2.1 else 0)
    offsetNorth := north
    offsetWest := (north.2, south.1)
    structType, ignoreMask }

/-- Inside the half-open rectangle from `r1` to `r2`. -/
def inRect (r1 r2 : Int × Int) (x z : Int) : Bool := r1.1 ≤ x && x < r2.1 && r1.2 ≤ z && z < r2.2

/-- `CBlockRectangle`. -/
def blockRectangle (offset bsize ssize : Int × Int) (structType : StructType) (ignoreMask : SM) : IBlockMask :=
  let r := rects offset bsize ssize
  init r structType ignoreMask fun x z =>
    if inRect r.s1 r.s2 x z then .struct else if inRect r.b1 r.b2 x z then .block else .opn

/-- `CBlockCircle`. -/
def blockCircle (offset : Int × Int) (radius : Int) (ssize : Int × Int) (structType : StructType)
    (ignoreMask : SM) : IBlockMask :=
  let r := rects offset (radius * 2, radius * 2) ssize
  let c := ((r.b1.1 + r.b2.1).tdiv 2, (r.b1.2 + r.b2.2).tdiv 2)
  init r structType ignoreMask fun x z =>
    if inRect r.s1 r.s2 x z then .struct
    else if (x - c.1) * (x - c.1) + (z - c.2) * (z - c.2) ≤ radius * radius then .block else .opn

end IBlockMask

/-! ## Marking buildings -/

/-- What the marking reads of a `CCircuitDef`: its id and the size of its unit definition. -/
structure CCircuitDef where
  id : Nat
  xSize : Nat
  zSize : Nat
  deriving DecidableEq, Repr

/-- `SStructure`, without the unit id the marking never reads. -/
structure SStructure where
  cdef : CCircuitDef
  pos : AIFloat3
  facing : Int
  deriving DecidableEq, Repr

/-- `blockInfos`: the mask of a definition, by its id. -/
abbrev BlockInfos := Nat → Option IBlockMask

/-- `xsize` and `zsize` of an unmasked building, from the parity of its facing. -/
def CCircuitDef.size (cdef : CCircuitDef) (facing : Int) : Nat × Nat :=
  ((if facing % 2 = 0 then cdef.xSize else cdef.zSize) / 2, (if facing % 2 = 1 then cdef.xSize else cdef.zSize) / 2)

/-- `xssize` and `zssize` of a masked building, from the `switch` on its facing. -/
def CCircuitDef.sizeByMask (cdef : CCircuitDef) (facing : Int) : Nat × Nat :=
  match facing with
  | 1 => (cdef.zSize / 2, cdef.xSize / 2)
  | 3 => (cdef.zSize / 2, cdef.xSize / 2)
  | _ => (cdef.xSize / 2, cdef.zSize / 2)

/-- The top left cell of a structure of the given size around `pos`. -/
def corner (pos : AIFloat3) (size : Nat × Nat) : Int × Int :=
  (toInt (pos.x / (squareSize * 2 : Nat)) - (size.1 / 2 : Nat), toInt (pos.z / (squareSize * 2 : Nat)) - (size.2 / 2 : Nat))

/-- The bottom right cell of a rectangle: one past its last cell in either direction. -/
def opposite (r1 : Int × Int) (size : Nat × Nat) : Int × Int := (r1.1 + size.1, r1.2 + size.2)

/-- The coordinates a loop from `a` up to `b` visits; `a` is not negative. -/
def span (a b : Int) : List Nat := List.range' a.toNat (b - a).toNat

def rowCells (r1 r2 : Int × Int) : List (Nat × Nat) :=
  (span r1.2 r2.2).flatMap fun z => (span r1.1 r2.1).map fun x => (x, z)

def columnCells (r1 r2 : Int × Int) : List (Nat × Nat) :=
  (span r1.1 r2.1).flatMap fun x => (span r1.2 r2.2).map fun z => (x, z)

def markCell (k : IBlockMask) (block : Bool) (m : SBlockingMap) (x z : Nat) (type : BlockType) : SBlockingMap :=
  match type with
  | .block => if block then m.addBlocker x z k.structType else m.delBlocker x z k.structType
  | .struct => if block then m.addStruct x z k.structType (~~~k.ignoreMask) else m.delStruct x z k.structType
  | .opn => m

def markBlockerByMask (m : SBlockingMap) (b : SStructure) (block : Bool) (k : IBlockMask) : SBlockingMap :=
  -- the top left corner of the mask, before and after it is bounded by the map
  let om := corner b.pos (b.cdef.sizeByMask b.facing) - k.getStructOffset b.facing
  let r := m.bound om (opposite om (k.size b.facing))
  (rowCells r.1 r.2).foldl (fun m c => markCell k block m c.1 c.2 (k.getType b.facing (c.1 - om.1) (c.2 - om.2))) m

def markBlocker (blockInfos : BlockInfos) (m : SBlockingMap) (b : SStructure) (block : Bool) : SBlockingMap :=
  match blockInfos b.cdef.id with
  | some k => markBlockerByMask m b block k
  | none =>
    let size := b.cdef.size b.facing
    let r1 := corner b.pos size
    let r := m.bound r1 (opposite r1 size)
    (columnCells r.1 r.2).foldl (fun m c =>
      if block then m.addStruct c.1 c.2 .unknown structMaskAll else m.delStruct c.1 c.2 .unknown) m

def addBlocker (blockInfos : BlockInfos) (m : SBlockingMap) (b : SStructure) : SBlockingMap :=
  markBlocker blockInfos m b true

def delBlocker (blockInfos : BlockInfos) (m : SBlockingMap) (b : SStructure) : SBlockingMap :=
  markBlocker blockInfos m b false

/-! ## Start of the game -/

/-- The constructor's blocking map of a map of the given size in squares. -/
def newMap (mapWidth mapHeight : Nat) : SBlockingMap :=
  .empty (mapWidth / 2) (mapHeight / 2) (mapWidth / (gridRatioLow * 2)) (mapHeight / (gridRatioLow * 2))

/-- The marks around one metal spot. -/
def markSpot (size : Nat × Nat) (m : SBlockingMap) (spot : AIFloat3) : SBlockingMap :=
  let r1 := corner spot size
  let r := m.bound r1 (opposite r1 size)
  (rowCells r.1 r.2).foldl (fun m c => m.markBlocker c.1 c.2 .terra (~~~getStructMask .mex)) m

/-- The marks along the top and bottom edges. -/
def markRows (m : SBlockingMap) : SBlockingMap :=
  (rowCells (8, 0) ((m.columns : Int) - 8, 7)).foldl (fun m' c =>
    let mask := ~~~(getStructMask .mex ||| getStructMask .factory)
    (m'.markBlocker c.1 c.2 .terra mask).markBlocker c.1 (m.rows - c.2 - 1) .terra mask) m

/-- The marks along the left and right edges. -/
def markColumns (m : SBlockingMap) : SBlockingMap :=
  (rowCells (0, 8) (7, (m.rows : Int) - 8)).foldl (fun m' c =>
    let mask := ~~~(getStructMask .mex ||| getStructMask .factory)
    (m'.markBlocker c.1 c.2 .terra mask).markBlocker (m.columns - c.1 - 1) c.2 .terra mask) m

/-- `Init` on the constructor's map: the metal spots, sized by the mex definition, and the map's edges. -/
def init (blockInfos : BlockInfos) (mexDef : CCircuitDef) (spots : List AIFloat3) (m : SBlockingMap) : SBlockingMap :=
  let size := match blockInfos mexDef.id with
    | some k => (k.xsize, k.zsize)
    | none => (mexDef.xSize / 2, mexDef.zSize / 2)
  markColumns (markRows (spots.foldl (markSpot size) m))

/-! ## Site search -/

/-- What the searches ask of their surroundings. -/
structure SiteChecks where
  canBeBuiltAtSafe : CCircuitDef → AIFloat3 → Bool
  isPossibleToBuildAt : CCircuitDef → AIFloat3 → Int → Bool
  getElevationAt : ℚ → ℚ → ℚ
  searchOffsets : Int → List (Int × Int)
  searchOffsetsLow : Int → List ((Int × Int) × List (Int × Int))

/-- A search as the caller states it. -/
structure SiteQuery where
  cdef : CCircuitDef
  pos : AIFloat3
  searchRadius : ℚ
  facing : Int
  predicate : AIFloat3 → Bool

section Search

variable (env : SiteChecks) (m : SBlockingMap) (q : SiteQuery)

/-- `(s1 + s2) * SQUARE_SIZE`: the centre of a structure, at the height `probePos` was left with. -/
def centre (s1 s2 : Int × Int) (y : ℚ) : AIFloat3 :=
  ⟨((s1.1 + s2.1) * squareSize : Int), y, ((s1.2 + s2.2) * squareSize : Int)⟩

def endr : Int := toInt (q.searchRadius / (squareSize * 2 : Nat))

/-- The last test of every search: the engine's check, then the caller's predicate on the ground. A
search throws the position it returns, and otherwise goes on with the height of `probePos`. -/
def accept (pos : AIFloat3) : Except AIFloat3 ℚ :=
  if env.isPossibleToBuildAt q.cdef pos q.facing then
    let ground := { pos with y := env.getElevationAt pos.x pos.z }
    if q.predicate ground then throw ground else pure ground.y
  else pure pos.y

/-- `isOpenSite` of the searches without a mask. -/
def isOpenSite (s1 s2 : Int × Int) : Bool := (rowCells s1 s2).all fun c => !m.isBlocked c.1 c.2 structMaskAll

/-- One step of the searches without a mask. -/
def probe (y : ℚ) (ofs : Int × Int) : Except AIFloat3 ℚ :=
  let size := q.cdef.size q.facing
  let s1 := corner q.pos size + ofs
  let s2 := opposite s1 size
  if !m.isInBounds s1 s2 || !isOpenSite m s1 s2 then pure y
  else if env.canBeBuiltAtSafe q.cdef (centre s1 s2 y) then accept env q (centre s1 s2 y)
  else pure y

/-- One cell of `DECLARE_TEST`. -/
def isOpenCell (k : IBlockMask) (x z : Nat) (type : BlockType) : Bool :=
  match type with
  | .block => !m.isStructed x z (getStructMask k.structType)
  | .struct => !m.isBlocked x z (~~~k.ignoreMask)
  | .opn => true

/-- `DECLARE_TEST`: every cell of the mask placed at `om` suits the ground. -/
def isOpenMask (k : IBlockMask) (om : Int × Int) : Bool :=
  let r := m.bound om (opposite om (k.size q.facing))
  (rowCells r.1 r.2).all fun c => isOpenCell m k c.1 c.2 (k.getType q.facing (c.1 - om.1) (c.2 - om.2))

/-- One step of the searches by mask. -/
def probeByMask (k : IBlockMask) (y : ℚ) (ofs : Int × Int) : Except AIFloat3 ℚ :=
  let size := q.cdef.sizeByMask q.facing
  let structCorner := corner q.pos size
  let s1 := structCorner + ofs
  let s2 := opposite s1 size
  if !m.isInBounds s1 s2 then pure y
  else if !env.canBeBuiltAtSafe q.cdef (centre s1 s2 y) then pure y
  else if !isOpenMask m q k (structCorner - k.getStructOffset q.facing + ofs) then pure y
  else accept env q (centre s1 s2 y)

/-- What a search returns: the position it threw, or none. -/
def returned : Except AIFloat3 ℚ → AIFloat3
  | .error pos => pos
  | .ok _ => noPos

/-- The search over the table of offsets. -/
def searchFine (probe : ℚ → Int × Int → Except AIFloat3 ℚ) : AIFloat3 :=
  returned (((env.searchOffsets (endr q)).take (endr q * endr q * 4).toNat).foldlM probe 0)

/-- One coarse square: its own tests, then the cells inside it. -/
def probeLow (notIgnore : SM) (probe : ℚ → Int × Int → Except AIFloat3 ℚ) (y : ℚ)
    (e : (Int × Int) × List (Int × Int)) : Except AIFloat3 ℚ :=
  let side : ℚ := (squareSize * 2 * gridRatioLow : Nat)
  let x := toInt (q.pos.x / side) + e.1.1
  let z := toInt (q.pos.z / side) + e.1.2
  let pos : AIFloat3 := ⟨((x * 2 + 1) * squareSize * gridRatioLow : Int), y,
    ((z * 2 + 1) * squareSize * gridRatioLow : Int)⟩
  if !m.isInBoundsLow x z || m.isBlockedLow x.toNat z.toNat notIgnore then pure y
  else if !env.canBeBuiltAtSafe q.cdef pos then pure y
  else (e.2.take (gridRatioLow * gridRatioLow)).foldlM probe y

/-- The search over the coarse squares. -/
def searchLow (notIgnore : SM) (probe : ℚ → Int × Int → Except AIFloat3 ℚ) : AIFloat3 :=
  let endrLow := (endr q).tdiv gridRatioLow
  returned (((env.searchOffsetsLow (endr q)).take (endrLow * endrLow * 4).toNat).foldlM
    (probeLow env m q notIgnore probe) 0)

def findBuildSiteLow : AIFloat3 := searchLow env m q structMaskAll (probe env m q)

def findBuildSiteByMaskLow (k : IBlockMask) : AIFloat3 :=
  searchLow env m q (~~~k.ignoreMask) (probeByMask env m q k)

def findBuildSiteByMask (k : IBlockMask) : AIFloat3 :=
  if q.searchRadius > (squareSize * 2 * 100 : Nat) ∨ k.xsize * k.zsize > gridRatioLow * gridRatioLow * 9 then
    findBuildSiteByMaskLow env m q k
  else searchFine env q (probeByMask env m q k)

/-- `FindBuildSite`, with the marking of allied buildings off. -/
def findBuildSite (blockInfos : BlockInfos) : AIFloat3 :=
  match blockInfos q.cdef.id with
  | some k => findBuildSiteByMask env m q k
  | none =>
    if q.searchRadius > (squareSize * 2 * 100 : Nat) then findBuildSiteLow env m q
    else searchFine env q (probe env m q)

end Search

end Circuit.Impl.TerrainManager
