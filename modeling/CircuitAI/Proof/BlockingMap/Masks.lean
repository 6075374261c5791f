import CircuitAI.Spec.BlockMasks
import Mathlib.Algebra.Order.Group.MinMax
import Mathlib.Tactic.Linarith
import Mathlib.Tactic.Positivity
import Mathlib.Tactic.Ring

/-!
# Turned block masks

Each lookup reads the cell of the mask facing south that its cell is turned from (`getType_init`), and that is a cell of the
structure if and only if it lies in the rectangle that `Init` has put the structure at (`struct_iff_inRect`). The corner of
the turned rectangle is the offset of the facing (`Laid.inRectangle_iff`), for north only in a balanced mask
(`balanced_iff`).
-/

namespace Circuit.Spec.BlockMasks

open Impl.BlockingMap Impl.TerrainManager Prod

variable {k : IBlockMask} {facing x z : ℤ} {offset : ℤ × ℤ} {bsize ssize : ℕ × ℕ} {structType : StructType}
  {ignoreMask : SM}

/-! ## The order in which a mask is read -/

variable {r : IBlockMask.BlockRects}

theorem eq_south_or (facing : ℤ) (k : IBlockMask) (ssize : ℕ × ℕ) : (facing = 1 ∨ facing = 2 ∨ facing = 3) ∨
    k.getType facing = k.getType 0 ∧ k.getStructOffset facing = k.getStructOffset 0 ∧ k.size facing = k.size 0 ∧
      turned ssize facing = turned ssize 0 ∧ maskIndex k facing = maskIndex k 0 := by
  by_cases h : facing = 1 ∨ facing = 2 ∨ facing = 3
  · exact .inl h
  · rw [not_or, not_or] at h
    obtain ⟨h1, h2, h3⟩ := h
    refine .inr ⟨?_, ?_, ?_, ?_, ?_⟩
    · unfold IBlockMask.getType
      split <;> first | contradiction | rfl
    · unfold IBlockMask.getStructOffset
      split <;> first | contradiction | rfl
    · unfold IBlockMask.size
      split <;> first | contradiction | rfl
    · unfold turned
      split <;> first | contradiction | rfl
    · funext x z
      unfold maskIndex
      split <;> first | contradiction | rfl

def south (k : IBlockMask) (facing x z : ℤ) : ℤ × ℤ :=
  match facing with
  | 1 => (k.xsize - 1 - z, x)
  | 2 => (k.xsize - 1 - x, k.zsize - 1 - z)
  | 3 => (z, k.zsize - 1 - x)
  | _ => (x, z)

section Facing

variable (hf : facing = 0 ∨ facing = 1 ∨ facing = 2 ∨ facing = 3)
include hf

theorem maskIndex_eq (k : IBlockMask) (x z : ℤ) :
    maskIndex k facing x z = (south k facing x z).2 * k.xsize + (south k facing x z).1 := by
  rcases hf with rfl | rfl | rfl | rfl <;> simp only [maskIndex, south] <;> ring

theorem inExtents_iff : InExtents k facing x z ↔ (0 ≤ (south k facing x z).1 ∧ (south k facing x z).1 < k.xsize) ∧
      0 ≤ (south k facing x z).2 ∧ (south k facing x z).2 < k.zsize := by
  rcases hf with rfl | rfl | rfl | rfl <;> simp only [InExtents, InRectangle, IBlockMask.size, south] <;> omega

theorem maskIndex_lt (h : InExtents k facing x z) :
    0 ≤ maskIndex k facing x z ∧ maskIndex k facing x z < k.xsize * k.zsize := by
  obtain ⟨⟨hx, hx'⟩, hz, hz'⟩ := (inExtents_iff hf).1 h
  rw [maskIndex_eq hf]
  refine ⟨by positivity, ?_⟩
  calc (south k facing x z).2 * (k.xsize : ℤ) + (south k facing x z).1
      < ((south k facing x z).2 + 1) * k.xsize := by linarith
    _ ≤ k.zsize * k.xsize := Int.mul_le_mul_of_nonneg_right (by omega) (by omega)
    _ = k.xsize * k.zsize := mul_comm _ _

theorem getType_maskIndex : k.getType facing x z = k.mask (maskIndex k facing x z).toNat := by
  rcases hf with rfl | rfl | rfl | rfl <;> rfl

theorem getType_init {contents : ℤ → ℤ → BlockType}
    (h : InExtents (.init r structType ignoreMask contents) facing x z) :
    (IBlockMask.init r structType ignoreMask contents).getType facing x z =
      contents (south (.init r structType ignoreMask contents) facing x z).1
        (south (.init r structType ignoreMask contents) facing x z).2 := by
  obtain ⟨⟨hx, hx'⟩, hz, -⟩ := (inExtents_iff hf).1 h
  rw [getType_maskIndex hf, maskIndex_eq hf]
  generalize south (.init r structType ignoreMask contents) facing x z = c at hx hx' hz
  obtain ⟨a, ha⟩ := Int.eq_ofNat_of_zero_le hx
  obtain ⟨b, hb⟩ := Int.eq_ofNat_of_zero_le hz
  rw [ha] at hx'
  rw [ha, hb]
  generalize hk : IBlockMask.init r structType ignoreMask contents = k at hx'
  have hmask : k.mask = fun i => contents ((i % k.xsize : ℕ)) ((i / k.xsize : ℕ)) := by rw [← hk]; rfl
  have ha' : a < k.xsize := by exact_mod_cast hx'
  have hpos : 0 < k.xsize := Nat.zero_lt_of_lt ha'
  rw [show (b : ℤ) * k.xsize + a = ((k.xsize * b + a : ℕ) : ℤ) by push_cast; ring, Int.toNat_natCast, hmask]
  dsimp only
  rw [Nat.mul_add_mod, Nat.mod_eq_of_lt ha', Nat.mul_add_div hpos, Nat.div_eq_of_lt ha', Nat.add_zero]

end Facing

/-! ## Where the structure lies -/

def rectsOf (offset : ℤ × ℤ) (bsize ssize : ℕ × ℕ) : IBlockMask.BlockRects :=
  IBlockMask.rects offset (bsize.1, bsize.2) (ssize.1, ssize.2)

theorem rectangle_eq : rectangle offset bsize ssize structType ignoreMask =
    .init (rectsOf offset bsize ssize) structType ignoreMask fun x z =>
      if IBlockMask.inRect (rectsOf offset bsize ssize).s1 (rectsOf offset bsize ssize).s2 x z then .struct
      else if IBlockMask.inRect (rectsOf offset bsize ssize).b1 (rectsOf offset bsize ssize).b2 x z then .block
      else .opn := rfl

structure Laid (k : IBlockMask) (r : IBlockMask.BlockRects) (ssize : ℕ × ℕ) : Prop where
  left : min r.b1.1 r.s1.1 = 0
  top : min r.b1.2 r.s1.2 = 0
  width : r.s2.1 = r.s1.1 + ssize.1
  height : r.s2.2 = r.s1.2 + ssize.2
  xsize : (k.xsize : ℤ) = max r.b2.1 r.s2.1
  zsize : (k.zsize : ℤ) = max r.b2.2 r.s2.2
  offsetSouth : k.getStructOffset 0 = (r.s1.1, r.s1.2)
  offsetEast : k.getStructOffset 1 = (r.s1.2, k.xsize - r.s2.1)
  offsetNorth : k.getStructOffset 2 = (r.s1.1, k.zsize - r.s2.2)
  offsetWest : k.getStructOffset 3 = (k.zsize - r.s2.2, r.s1.1)

theorem laid_rectangle (offset : ℤ × ℤ) (bsize ssize : ℕ × ℕ) (structType : StructType) (ignoreMask : SM) :
    Laid (rectangle offset bsize ssize structType ignoreMask) (rectsOf offset bsize ssize) ssize := by
  have hfacts : (min (rectsOf offset bsize ssize).b1.1 (rectsOf offset bsize ssize).s1.1 = 0 ∧
      (rectsOf offset bsize ssize).s2.1 = (rectsOf offset bsize ssize).s1.1 + ssize.1) ∧
      min (rectsOf offset bsize ssize).b1.2 (rectsOf offset bsize ssize).s1.2 = 0 ∧
      (rectsOf offset bsize ssize).s2.2 = (rectsOf offset bsize ssize).s1.2 + ssize.2 := by
    simp only [rectsOf, IBlockMask.rects, fst_sub, snd_sub, fst_add, snd_add, min_sub_sub_right,
      sub_self, add_sub_right_comm, and_self]
  rw [rectangle_eq]
  generalize rectsOf offset bsize ssize = r at hfacts ⊢
  obtain ⟨⟨hx, hsx⟩, hz, hsz⟩ := hfacts
  have hleft : (if r.b1.1 < r.s1.1 then r.s1.1 - r.b1.1 else 0) = r.s1.1 := by omega
  have htop : (if r.b1.2 < r.s1.2 then r.s1.2 - r.b1.2 else 0) = r.s1.2 := by omega
  have hright : (if r.b2.1 > r.s2.1 then r.b2.1 - r.s2.1 else 0) =
      (max r.b2.1 r.s2.1 - min r.b1.1 r.s1.1).toNat - r.s2.1 := by omega
  have hbottom : (if r.b2.2 > r.s2.2 then r.b2.2 - r.s2.2 else 0) =
      (max r.b2.2 r.s2.2 - min r.b1.2 r.s1.2).toNat - r.s2.2 := by omega
  exact {
    left := hx
    top := hz
    width := hsx
    height := hsz
    xsize := by dsimp only [IBlockMask.init]; omega
    zsize := by dsimp only [IBlockMask.init]; omega
    offsetSouth := Prod.ext hleft htop
    offsetEast := Prod.ext htop hright
    offsetNorth := Prod.ext hleft hbottom
    offsetWest := Prod.ext hbottom hleft }

theorem balanced_iff (offset : ℤ × ℤ) (bsize ssize : ℕ × ℕ) (structType : StructType) (ignoreMask : SM) :
    Balanced offset bsize ssize ↔ (rectsOf offset bsize ssize).s1.1 =
      (rectangle offset bsize ssize structType ignoreMask).xsize - (rectsOf offset bsize ssize).s2.1 := by
  have htdiv (n : ℕ) : (n : ℤ).tdiv 2 = (n / 2 : ℕ) := rfl
  have hmargins : Balanced offset bsize ssize ↔
      max 0 ((rectsOf offset bsize ssize).s1.1 - (rectsOf offset bsize ssize).b1.1) =
        max 0 ((rectsOf offset bsize ssize).b2.1 - (rectsOf offset bsize ssize).s2.1) := by
    simp only [Balanced, rectsOf, IBlockMask.rects, fst_sub, fst_add, htdiv, sub_sub_sub_cancel_right]
  obtain ⟨hx, -, -, -, hxsize, -⟩ := laid_rectangle offset bsize ssize structType ignoreMask
  rw [hmargins]
  omega

theorem struct_iff_inRect (hf : facing = 0 ∨ facing = 1 ∨ facing = 2 ∨ facing = 3)
    (h : InExtents (rectangle offset bsize ssize structType ignoreMask) facing x z) :
    (rectangle offset bsize ssize structType ignoreMask).getType facing x z = .struct ↔
      IBlockMask.inRect (rectsOf offset bsize ssize).s1 (rectsOf offset bsize ssize).s2
        (south (rectangle offset bsize ssize structType ignoreMask) facing x z).1
        (south (rectangle offset bsize ssize structType ignoreMask) facing x z).2 = true := by
  rw [rectangle_eq] at h ⊢
  rw [getType_init hf h]
  split_ifs with hs hb
  · exact iff_of_true rfl hs
  · exact iff_of_false (by decide) hs
  · exact iff_of_false (by decide) hs

theorem Laid.inside (hl : Laid k r ssize) : 0 ≤ r.s1.1 ∧ r.s2.1 ≤ k.xsize ∧ 0 ≤ r.s1.2 ∧ r.s2.2 ≤ k.zsize := by
  obtain ⟨hx, hz, -, -, hxsize, hzsize, -⟩ := hl
  exact ⟨hx ▸ min_le_right _ _, hxsize ▸ le_max_right _ _, hz ▸ min_le_right _ _, hzsize ▸ le_max_right _ _⟩

theorem Laid.inRectangle_iff (hl : Laid k r ssize) (hf : facing = 0 ∨ facing = 1 ∨ facing = 2 ∨ facing = 3)
    (hnorth : facing = north → 0 < ssize.1 → 0 < ssize.2 → r.s1.1 = k.xsize - r.s2.1) :
    InRectangle (k.getStructOffset facing) (turned ssize facing) x z ↔
      (r.s1.1 ≤ (south k facing x z).1 ∧ (south k facing x z).1 < r.s2.1) ∧
        r.s1.2 ≤ (south k facing x z).2 ∧ (south k facing x z).2 < r.s2.2 := by
  obtain ⟨-, -, hsx, hsz, -, -, h0, h1, h2, h3⟩ := hl
  rcases hf with rfl | rfl | rfl | rfl
  · rw [h0]
    simp only [InRectangle, turned, south]
    omega
  · rw [h1]
    simp only [InRectangle, turned, south]
    omega
  · rw [h2]
    simp only [InRectangle, turned, south]
    have hcorner := hnorth rfl
    omega
  · rw [h3]
    simp only [InRectangle, turned, south]
    omega

theorem structPlaced_facing (hf : facing = 0 ∨ facing = 1 ∨ facing = 2 ∨ facing = 3) :
    StructPlaced (rectangle offset bsize ssize structType ignoreMask) ssize facing ↔
      (facing = north → 0 < ssize.1 → 0 < ssize.2 → Balanced offset bsize ssize) := by
  have hlaid := laid_rectangle offset bsize ssize structType ignoreMask
  have hstruct : ∀ x z, InExtents (rectangle offset bsize ssize structType ignoreMask) facing x z → _ :=
    fun x z => struct_iff_inRect hf
  rw [balanced_iff offset bsize ssize structType ignoreMask]
  generalize rectangle offset bsize ssize structType ignoreMask = k at hlaid hstruct
  generalize rectsOf offset bsize ssize = r at hlaid hstruct
  simp only [IBlockMask.inRect, Bool.and_eq_true, decide_eq_true_eq] at hstruct
  constructor
  · rintro ⟨hiff, hinside, -⟩ rfl hpos hpos'
    obtain ⟨-, -, hsx, hsz, -, -, -, -, h2, -⟩ := hlaid
    have hcolumn : ∀ x, r.s1.1 ≤ x → x < r.s2.1 → r.s1.1 ≤ k.xsize - 1 - x ∧ k.xsize - 1 - x < r.s2.1 := by
      intro x hx1 hx2
      have hrect : InRectangle (k.getStructOffset 2) (turned ssize 2) x (k.zsize - r.s2.2) := by
        rw [h2]
        simp only [InRectangle, turned]
        omega
      have hs := (hstruct _ _ (hinside _ _ hrect)).1 ((hiff _ _ (hinside _ _ hrect)).2 hrect)
      exact hs.1.1
    have hleft := hcolumn r.s1.1 le_rfl (by omega)
    have hright := hcolumn (r.s2.1 - 1) (by omega) (by omega)
    omega
  · intro hcond
    refine ⟨fun x z h => (hstruct x z h).trans ?_, fun x z h => ?_, fun x z => maskIndex_lt hf⟩
    · rw [hlaid.inRectangle_iff hf hcond]
      exact and_assoc
    · obtain ⟨hin, hin'⟩ := (hlaid.inRectangle_iff hf hcond).1 h
      obtain ⟨hleft, hright, htop, hbottom⟩ := hlaid.inside
      exact (inExtents_iff hf).2 ⟨⟨hleft.trans hin.1, hin.2.trans_le hright⟩, htop.trans hin'.1, hin'.2.trans_le hbottom⟩

/-- The structure lies where the offset says for all facings but north, and for north if and only if the mask stands out
as far on either side of it or the structure is empty. -/
theorem structPlaced_iff (offset : ℤ × ℤ) (bsize ssize : ℕ × ℕ) (structType : StructType) (ignoreMask : SM) (facing : ℤ) :
    StructPlaced (rectangle offset bsize ssize structType ignoreMask) ssize facing ↔
      (facing = north → 0 < ssize.1 → 0 < ssize.2 → Balanced offset bsize ssize) := by
  rcases eq_south_or facing (rectangle offset bsize ssize structType ignoreMask) ssize with
    hf | ⟨htype, hoffset, hsize, hturned, hindex⟩
  · exact structPlaced_facing (.inr hf)
  · by_cases hnorth : facing = north
    · exact structPlaced_facing (.inr (.inr (.inl hnorth)))
    · obtain ⟨hiff, hinside, hread⟩ : StructPlaced (rectangle offset bsize ssize structType ignoreMask) ssize 0 :=
        (structPlaced_facing (.inl rfl)).2 fun h0 => absurd h0 (by decide)
      have hext (x z : ℤ) : InExtents (rectangle offset bsize ssize structType ignoreMask) facing x z ↔
          InExtents (rectangle offset bsize ssize structType ignoreMask) 0 x z := by rw [InExtents, InExtents, hsize]
      rw [← htype, ← hoffset, ← hturned] at hiff
      rw [← hoffset, ← hturned] at hinside
      rw [← hindex] at hread
      exact iff_of_true ⟨fun x z hx => hiff x z ((hext x z).1 hx), fun x z hx => (hext x z).2 (hinside x z hx),
        fun x z hx => hread x z ((hext x z).1 hx)⟩ fun h => absurd h hnorth

/-- A mask that stands out to the right of the structure only, turned north: the structure takes the columns 2 and 3, while the offset says 0 and 1. -/
theorem not_structPlaced_north : (rectangle (1, 0) (4, 2) (2, 3) .unknown 0).getStructOffset north = (0, 0) ∧
      (rectangle (1, 0) (4, 2) (2, 3) .unknown 0).getType north 0 0 ≠ .struct ∧
      (rectangle (1, 0) (4, 2) (2, 3) .unknown 0).getType north 3 0 = .struct ∧
      ¬ StructPlaced (rectangle (1, 0) (4, 2) (2, 3) .unknown 0) (2, 3) north := by
  refine ⟨by decide, by decide, by decide, fun h => ?_⟩
  have hbal := (structPlaced_facing (.inr (.inr (.inl rfl)))).1 h rfl (by decide) (by decide)
  exact absurd hbal (by decide)

end Circuit.Spec.BlockMasks
