import CircuitAI.Spec.Buildings
import Mathlib.Data.Finset.Prod

/-!
# What the coarse grid stands for

The mask bit of a coarse square is meant to be set when `blockThreshold` of its cells are taken by the type. A `CellRun` is
any sequence of operations on single cells, with the map that each of them found. An operation may count its cell for the
type when the cell is not newly taken, or the other way round; `Counted` says when it does not. `late` says whether the
count of the square was last brought to the threshold by `MarkBlocker`, which does not raise the bit then.
-/

namespace Circuit.Spec.Buildings

open Impl.BlockingMap Impl.TerrainManager

def Occupied (m : SBlockingMap) (type : StructType) (x z : Nat) : Prop :=
  (m.cell x z).blockerCounts type ≠ 0 ∨ (m.cell x z).structMask = getStructMask type

instance (m : SBlockingMap) (type : StructType) (x z : Nat) : Decidable (Occupied m type x z) :=
  inferInstanceAs (Decidable (_ ∨ _))

/-- How many of the cells the square at `xLow`, `zLow` covers are taken by the type. -/
def occupiedCount (m : SBlockingMap) (type : StructType) (xLow zLow : Nat) : ℕ :=
  ((Finset.range gridRatioLow ×ˢ Finset.range gridRatioLow).filter fun d =>
    Occupied m type (xLow * gridRatioLow + d.1) (zLow * gridRatioLow + d.2)).card

inductive CellOp
  | mark (x z : Nat) (type : StructType) (notIgnoreMask : SM)
  | add (t : Take)
  | del (t : Take)

namespace CellOp

def run (m : SBlockingMap) : CellOp → SBlockingMap
  | mark x z type notIgnoreMask => m.markBlocker x z type notIgnoreMask
  | add t => t.add m
  | del t => t.del m

def cell : CellOp → Nat × Nat
  | mark x z _ _ => (x, z)
  | add t | del t => (t.x, t.z)

def isMark : CellOp → Bool
  | mark .. => true
  | _ => false

/-- The operation is on a cell of the square at `xLow`, `zLow`. -/
def On (xLow zLow : Nat) (op : CellOp) : Prop := op.cell.1 / gridRatioLow = xLow ∧ op.cell.2 / gridRatioLow = zLow

instance (xLow zLow : Nat) (op : CellOp) : Decidable (op.On xLow zLow) := inferInstanceAs (Decidable (_ ∧ _))

/-- In this map the operation changes the count of the square for the type as the taking of its cell changes. -/
def Counted (m : SBlockingMap) (type : StructType) : CellOp → Prop
  | mark x z other _ => other = type → ¬Occupied m type x z
  | add t =>
    let c := m.cell t.x t.z
    if t.struct then c.blockerCounts type = 0 → c.structMask ≠ getStructMask type
    else t.type = type → c.blockerCounts type ≠ 0xFFFF#16 ∧
      (c.blockerCounts type = 0 → c.structMask ≠ getStructMask type)
  | del t =>
    let c := m.cell t.x t.z
    if t.struct then c.blockerCounts type = 0 → (c.structMask = getStructMask type ↔ t.type = type)
    else t.type = type → c.blockerCounts type ≠ 0 ∧
      (c.blockerCounts type = 1 → c.structMask ≠ getStructMask type)

instance (m : SBlockingMap) (type : StructType) (op : CellOp) : Decidable (op.Counted m type) :=
  match op with
  | mark .. => inferInstanceAs (Decidable (_ → _))
  | add _ | del _ => inferInstanceAs (Decidable (ite ..))

end CellOp

/-- The operations so far, the last one first, each with the map before it, and the map after them, from the empty map of
`16 * a` by `16 * b` squares. -/
inductive CellRun (a b : Nat) : List (SBlockingMap × CellOp) → SBlockingMap → Prop
  | start : CellRun a b [] (newMap (16 * a) (16 * b))
  | step {l : List (SBlockingMap × CellOp)} {m : SBlockingMap} (op : CellOp) (h : CellRun a b l m)
    (hin : op.cell.1 < m.columns ∧ op.cell.2 < m.rows) : CellRun a b ((m, op) :: l) (op.run m)

/-- `MarkBlocker` was the last to bring the taken cells of the square to the threshold, and none has brought them above it
since. -/
def late (type : StructType) (xLow zLow : Nat) : List (SBlockingMap × CellOp) → Bool
  | [] => false
  | (m, op) :: l =>
    let k := occupiedCount m type xLow zLow
    if occupiedCount (op.run m) type xLow zLow = k + 1 then
      if k + 1 = blockThreshold.toNat then op.isMark
      else late type xLow zLow l && !(op.isMark && k = blockThreshold.toNat)
    else late type xLow zLow l

end Circuit.Spec.Buildings
