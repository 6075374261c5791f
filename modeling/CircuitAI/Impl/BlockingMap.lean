import Mathlib.Data.Int.Basic

/-!
# The blocking map

`terrain/BlockingMap.h` and `BlockingMap.hpp`: the grid of cells on which the terrain manager records which structures
block which ground, and the coarser grid that summarises it. A cell counts the blockers of each structure type and carries
at most one structure mark; a coarse square counts, for each type, how many of its cells are taken, and raises the type's
mask bit at `blockThreshold`. The grids are memories indexed as the source's vectors are (`z * columns + x`). Counters are
the source's `unsigned short`, so they wrap at `2 ^ 16`.
-/

namespace Circuit.Impl.BlockingMap

open Function

/-- `SBlockingMap::StructType`. -/
inductive StructType where
  | factory | mex | engyLow | engyMid | engyHigh | pylon | defLow | defMid | defHigh | special | nano | terra
  | unknown
  deriving DecidableEq, Repr

/-- The value of the enumerator. -/
def StructType.toNat : StructType → Nat
  | factory => 0
  | mex => 1
  | engyLow => 2
  | engyMid => 3
  | engyHigh => 4
  | pylon => 5
  | defLow => 6
  | defMid => 7
  | defHigh => 8
  | special => 9
  | nano => 10
  | terra => 11
  | unknown => 12

/-- `SBlockingMap::SM`, the width of a mask. -/
abbrev SM := BitVec 16

def getStructMask (type : StructType) : SM := 1#16 <<< type.toNat

def structMaskAll : SM := 0xFFFF#16

/-- `GRID_RATIO_LOW`: the side of a coarse square in cells. -/
def gridRatioLow : Nat := 8

/-- `MAX_BLOCK_VAL`: the count of a cell marked for good. -/
def maxBlockVal : BitVec 16 := 0x1000#16

def blockThreshold : BitVec 16 := 48#16

@[ext]
structure SBlockCell where
  blockerMask : SM
  notIgnoreMask : SM
  structMask : SM
  blockerCounts : StructType → BitVec 16

@[ext]
structure SBlockCellLow where
  blockerMask : SM
  blockerCounts : StructType → BitVec 16

/-- A zeroed cell, as `resize(…, {0})` makes it. -/
def SBlockCell.zero : SBlockCell := ⟨0, 0, 0, fun _ => 0⟩

/-- A zeroed coarse square. -/
def SBlockCellLow.zero : SBlockCellLow := ⟨0, fun _ => 0⟩

@[ext]
structure SBlockingMap where
  grid : Nat → SBlockCell
  columns : Nat
  rows : Nat
  gridLow : Nat → SBlockCellLow
  columnsLow : Nat
  rowsLow : Nat

namespace SBlockingMap

/-- The map of the given size with nothing on it. -/
def empty (columns rows columnsLow rowsLow : Nat) : SBlockingMap :=
  { grid := fun _ => .zero, columns, rows, gridLow := fun _ => .zero, columnsLow, rowsLow }

variable (m : SBlockingMap)

/-- The index of a cell. -/
def index (x z : Nat) : Nat := z * m.columns + x

/-- The index of the coarse square that covers a cell. -/
def indexLow (x z : Nat) : Nat := z / gridRatioLow * m.columnsLow + x / gridRatioLow

def cell (x z : Nat) : SBlockCell := m.grid (m.index x z)

/-- Writes a cell. -/
def setCell (x z : Nat) (c : SBlockCell) : SBlockingMap :=
  { m with grid := update m.grid (m.index x z) c }

/-- Changes the coarse square that covers a cell. -/
def modifyLow (x z : Nat) (f : SBlockCellLow → SBlockCellLow) : SBlockingMap :=
  { m with gridLow := update m.gridLow (m.indexLow x z) (f (m.gridLow (m.indexLow x z))) }

end SBlockingMap

/-- `++cellLow.blockerCounts[type] == BLOCK_THRESHOLD`, and the mask bit that follows. -/
def SBlockCellLow.raise (type : StructType) (c : SBlockCellLow) : SBlockCellLow where
  blockerMask := if c.blockerCounts type + 1 = blockThreshold then c.blockerMask ||| getStructMask type
    else c.blockerMask
  blockerCounts := update c.blockerCounts type (c.blockerCounts type + 1)

/-- `cellLow.blockerCounts[type]-- == BLOCK_THRESHOLD`, and the mask bit that follows. -/
def SBlockCellLow.lower (type : StructType) (c : SBlockCellLow) : SBlockCellLow where
  blockerMask := if c.blockerCounts type = blockThreshold then c.blockerMask &&& ~~~getStructMask type
    else c.blockerMask
  blockerCounts := update c.blockerCounts type (c.blockerCounts type - 1)

/-- `cellLow.blockerCounts[type]++ == BLOCK_THRESHOLD`, as `MarkBlocker` has it: the old count is compared. -/
def SBlockCellLow.mark (type : StructType) (c : SBlockCellLow) : SBlockCellLow where
  blockerMask := if c.blockerCounts type = blockThreshold then c.blockerMask ||| getStructMask type
    else c.blockerMask
  blockerCounts := update c.blockerCounts type (c.blockerCounts type + 1)

namespace SBlockingMap

variable (m : SBlockingMap)

/-! ## Queries -/

def isStructed (x z : Nat) (structMask : SM) : Bool := (m.cell x z).notIgnoreMask &&& structMask != 0

def isBlocked (x z : Nat) (notIgnoreMask : SM) : Bool :=
  (m.cell x z).blockerMask &&& notIgnoreMask != 0 || (m.cell x z).structMask != 0

def isBlockedLow (xLow zLow : Nat) (notIgnoreMask : SM) : Bool :=
  (m.gridLow (zLow * m.columnsLow + xLow)).blockerMask &&& notIgnoreMask != 0

def isInBounds (r1 r2 : Int × Int) : Bool :=
  0 ≤ r1.1 && 0 ≤ r1.2 && r2.1 < m.columns && r2.2 < m.rows

/-- `IsInBoundsLow`: the coordinates are compared as unsigned. -/
def isInBoundsLow (x z : Int) : Bool := 0 ≤ x && x < m.columnsLow && 0 ≤ z && z < m.rowsLow

def bound (r1 r2 : Int × Int) : (Int × Int) × (Int × Int) :=
  ((max r1.1 0, max r1.2 0), (min r2.1 (m.columns - 1), min r2.2 (m.rows - 1)))

/-! ## Marks -/

def markBlocker (x z : Nat) (type : StructType) (notIgnoreMask : SM) : SBlockingMap :=
  let c := m.cell x z
  (m.setCell x z { c with
    blockerMask := c.blockerMask ||| getStructMask type
    notIgnoreMask := notIgnoreMask
    blockerCounts := update c.blockerCounts type maxBlockVal }).modifyLow x z (.mark type)

def addBlocker (x z : Nat) (type : StructType) : SBlockingMap :=
  let c := m.cell x z
  let blockerCounts := update c.blockerCounts type (c.blockerCounts type + 1)
  if c.blockerCounts type = 0 then
    (m.setCell x z { c with blockerMask := c.blockerMask ||| getStructMask type, blockerCounts }).modifyLow
      x z (.raise type)
  else
    m.setCell x z { c with blockerCounts }

def delBlocker (x z : Nat) (type : StructType) : SBlockingMap :=
  let c := m.cell x z
  let blockerCounts := update c.blockerCounts type (c.blockerCounts type - 1)
  if c.blockerCounts type - 1 = 0 then
    (m.setCell x z { c with blockerMask := c.blockerMask &&& ~~~getStructMask type, blockerCounts }).modifyLow
      x z (.lower type)
  else
    m.setCell x z { c with blockerCounts }

def addStruct (x z : Nat) (type : StructType) (notIgnoreMask : SM) : SBlockingMap :=
  let c := m.cell x z
  let m' := m.setCell x z { c with notIgnoreMask, structMask := getStructMask type }
  if c.blockerCounts type = 0 then m'.modifyLow x z (.raise type) else m'

def delStruct (x z : Nat) (type : StructType) : SBlockingMap :=
  let c := m.cell x z
  let m' := m.setCell x z { c with notIgnoreMask := 0, structMask := 0 }
  if c.blockerCounts type = 0 then m'.modifyLow x z (.lower type) else m'

end SBlockingMap

end Circuit.Impl.BlockingMap
