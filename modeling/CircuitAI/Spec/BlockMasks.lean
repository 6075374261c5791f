import CircuitAI.Impl.TerrainManager

/-!
# Turned block masks

A mask is kept for buildings that face south and read in another order for the other facings. The structure should then
lie where `GetStructOffset` says (`StructPlaced`), since that is what a building is aligned by. It does if the mask stands
out as far on either side of the structure (`Balanced`), or for facings other than north.
-/

namespace Circuit.Spec.BlockMasks

open Impl.BlockingMap Impl.TerrainManager

/-- `UNIT_FACING_NORTH`. -/
def north : ℤ := 2

/-- The place that the lookup of a facing reads in the mask array. -/
def maskIndex (k : IBlockMask) (facing x z : ℤ) : ℤ :=
  match facing with
  | 1 => (x + 1) * k.xsize - 1 - z
  | 2 => (k.zsize - z) * k.xsize - 1 - x
  | 3 => (k.zsize - 1 - x) * k.xsize + z
  | _ => z * k.xsize + x

/-- The size of the structure as it lies in the mask of a facing. -/
def turned (ssize : ℕ × ℕ) (facing : ℤ) : ℕ × ℕ :=
  match facing with
  | 1 => (ssize.2, ssize.1)
  | 3 => (ssize.2, ssize.1)
  | _ => ssize

def InRectangle (corner : ℤ × ℤ) (size : ℕ × ℕ) (x z : ℤ) : Prop :=
  (corner.1 ≤ x ∧ x < corner.1 + size.1) ∧ corner.2 ≤ z ∧ z < corner.2 + size.2

def InExtents (k : IBlockMask) (facing x z : ℤ) : Prop := InRectangle (0, 0) (k.size facing) x z

/-- The structure lies in the mask of a facing where the offset says, and nowhere else. -/
structure StructPlaced (k : IBlockMask) (ssize : ℕ × ℕ) (facing : ℤ) : Prop where
  struct_iff : ∀ x z, InExtents k facing x z →
    (k.getType facing x z = .struct ↔ InRectangle (k.getStructOffset facing) (turned ssize facing) x z)
  inside : ∀ x z, InRectangle (k.getStructOffset facing) (turned ssize facing) x z → InExtents k facing x z
  /-- The mask array has `xsize * zsize` cells. -/
  read : ∀ x z, InExtents k facing x z → 0 ≤ maskIndex k facing x z ∧ maskIndex k facing x z < k.xsize * k.zsize

/-- The mask of a rectangle with sizes that are not negative. -/
def rectangle (offset : ℤ × ℤ) (bsize ssize : ℕ × ℕ) (structType : StructType) (ignoreMask : SM) : IBlockMask :=
  .blockRectangle offset (bsize.1, bsize.2) (ssize.1, ssize.2) structType ignoreMask

/-- The blocker stands out as far to the left of the structure as to the right. -/
def Balanced (offset : ℤ × ℤ) (bsize ssize : ℕ × ℕ) : Prop :=
  let b1 := offset.1 - (bsize.1 / 2 : ℕ)
  let s1 := -((ssize.1 / 2 : ℕ) : ℤ)
  max 0 (s1 - b1) = max 0 (b1 + bsize.1 - (s1 + ssize.1))

instance (offset : ℤ × ℤ) (bsize ssize : ℕ × ℕ) : Decidable (Balanced offset bsize ssize) :=
  inferInstanceAs (Decidable (_ = _))

end Circuit.Spec.BlockMasks
