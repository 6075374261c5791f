import CircuitAI.Framework.Loop
import CircuitAI.Spec.CoarseOffsets
import Mathlib.Algebra.Order.Ring.Int
import Mathlib.Tactic.Ring

/-!
# The table of coarse squares

* `fillCells_eq`, `fillOffsetsLow_eq`: what the two pairs of nested loops leave;
* `mem_squareCells`: the cells that a turn appends are those of its square;
* `wellFormed_fill`: so a table filled from nothing is well formed;
* `rebuild_iff`: and no other is, since the entries that were there keep their cells.
-/

namespace Circuit.Spec.CoarseOffsets

open Framework List
open Impl.BlockingMap (gridRatioLow)
open Impl.TerrainManager NearestSites

variable {sort : List SSearchOffset → List SSearchOffset} {sortLow : List SSearchOffsetLow → List SSearchOffsetLow}
  {table : List SSearchOffsetLow} {r : ℕ}

/-! ## The cells of a coarse square -/

variable {xl yl i : ℕ} {c : ℤ × ℤ} {radius last : ℤ}

def low (r : ℕ) : ℕ := r / gridRatioLow

theorem tdiv_low (r : ℕ) : (r : ℤ).tdiv gridRatioLow = low r := rfl

theorem low_mul_le (r : ℕ) : low r * gridRatioLow ≤ r := Nat.div_mul_le_self r gridRatioLow

def cellAt (r x y : ℕ) : SSearchOffset :=
  .new (x - r + (gridRatioLow / 2 : ℕ)) (y - r + (gridRatioLow / 2 : ℕ))

def cells (r : ℕ) : List SSearchOffset :=
  (List.range (r * 2 * (r * 2))).map fun i => cellAt r (i % (r * 2)) (i / (r * 2))

theorem fillCells_eq (r : ℕ) : fillCells r (replicate ((r : ℤ) * r * 4).toNat ⟨0, 0, 0⟩) = cells r := by
  have hn : ((r : ℤ) * 2).toNat = r * 2 := by omega
  have hlen : (replicate ((r : ℤ) * r * 4).toNat (⟨0, 0, 0⟩ : SSearchOffset)).length = r * 2 * (r * 2) := by
    rw [length_replicate, show (r : ℤ) * r * 4 = ((r * 2 * (r * 2) : ℕ) : ℤ) by push_cast; ring, Int.toNat_natCast]
  unfold fillCells
  dsimp only
  rw [hn]
  exact foldl_set_grid (cellAt r) hlen

theorem getD_cells {x y : ℕ} (hx : x < r * 2) (hy : y < r * 2) (d : SSearchOffset) :
    (cells r).getD (y * (r * 2) + x) d = cellAt r x y := by
  have hin : y * (r * 2) + x < r * 2 * (r * 2) := by
    calc y * (r * 2) + x < (y + 1) * (r * 2) := by rw [Nat.succ_mul]; omega
      _ ≤ r * 2 * (r * 2) := Nat.mul_le_mul_right _ hy
  have hpos : 0 < r * 2 := Nat.zero_lt_of_lt hx
  rw [cells, getD_eq_getElem?_getD, getElem?_map, getElem?_range hin, Option.map_some, Option.getD_some,
    Nat.mul_comm y, Nat.mul_add_mod, Nat.mod_eq_of_lt hx, Nat.mul_add_div hpos, Nat.div_eq_of_lt hx, Nat.add_zero]

theorem squareCells_eq (hx : xl < low r * 2) (hy : yl < low r * 2) : squareCells r (cells r) xl yl =
      (range' (yl * gridRatioLow) gridRatioLow).flatMap fun y =>
        (range' (xl * gridRatioLow) gridRatioLow).map fun x => cellAt r x y := by
  have hn : ((r : ℤ) * 2).toNat = r * 2 := by omega
  have hr := low_mul_le r
  unfold squareCells
  rw [hn]
  refine flatMap_congr fun y hyr => map_congr_left fun x hxr => getD_cells ?_ ?_ _
  · rw [mem_range'_1] at hxr
    unfold gridRatioLow at *
    omega
  · rw [mem_range'_1] at hyr
    unfold gridRatioLow at *
    omega

theorem length_squareCells : (squareCells r (cells r) xl yl).length = gridRatioLow * gridRatioLow := by
  unfold squareCells
  rw [length_flatMap]
  simp [gridRatioLow]

theorem cell_cellAt (x y : ℕ) :
    cell (cellAt r x y) = ((x : ℤ) - r + (gridRatioLow / 2 : ℕ), (y : ℤ) - r + (gridRatioLow / 2 : ℕ)) := rfl

section

variable {xl yl : ℕ} (hx : xl < low r * 2) (hy : yl < low r * 2)
include hx hy

theorem mem_squareCells : c ∈ (squareCells r (cells r) xl yl).map cell ↔ InBlock r (xl - low r, yl - low r) c := by
  rw [squareCells_eq hx hy, map_flatMap, mem_flatMap]
  unfold InBlock InColumn column
  rw [tdiv_low]
  constructor
  · rintro ⟨y, hyr, hc⟩
    rw [map_map, mem_map] at hc
    obtain ⟨x, hxr, rfl⟩ := hc
    rw [mem_range'_1] at hxr hyr
    rw [Function.comp_apply, cell_cellAt]
    unfold gridRatioLow at *
    dsimp only
    omega
  · rintro ⟨⟨hx1, hx2⟩, hy1, hy2⟩
    unfold gridRatioLow at *
    refine ⟨(c.2 + r - 4).toNat, mem_range'_1.2 (by omega), ?_⟩
    rw [map_map, mem_map]
    refine ⟨(c.1 + r - 4).toNat, mem_range'_1.2 (by omega), ?_⟩
    rw [Function.comp_apply, cell_cellAt]
    unfold gridRatioLow
    exact Prod.ext (by dsimp only; omega) (by dsimp only; omega)

theorem nodup_squareCells : ((squareCells r (cells r) xl yl).map cell).Nodup := by
  rw [squareCells_eq hx hy, map_flatMap, nodup_flatMap]
  refine ⟨fun y _ => ?_, ?_⟩
  · rw [map_map]
    refine (nodup_range' ..).map fun x x' h => ?_
    have h1 := congrArg Prod.fst h
    simp only [Function.comp_apply, cell_cellAt] at h1
    omega
  · refine (nodup_range' ..).imp fun {y y'} hne => ?_
    simp only [Function.onFun, map_map]
    intro c hc hc'
    obtain ⟨x, -, rfl⟩ := mem_map.1 hc
    obtain ⟨x', -, h⟩ := mem_map.1 hc'
    have h2 := congrArg Prod.snd h
    simp only [Function.comp_apply, cell_cellAt] at h2
    omega

theorem qdist_squareCells {o : SSearchOffset} (ho : o ∈ squareCells r (cells r) xl yl) : o.qdist = sqDist (cell o) := by
  rw [squareCells_eq hx hy, mem_flatMap] at ho
  obtain ⟨y, -, ho⟩ := ho
  obtain ⟨x, -, rfl⟩ := mem_map.1 ho
  rfl

end

theorem InBlock.unique {d d' : ℤ × ℤ} (h : InBlock radius d c) (h' : InBlock radius d' c) : d = d' := by
  unfold InBlock InColumn gridRatioLow at h h'
  exact Prod.ext (by omega) (by omega)

theorem covered_iff : Covered r c ↔ ∃ xl < low r * 2, ∃ yl < low r * 2, InBlock r (xl - low r, yl - low r) c := by
  unfold Covered InBlock InColumn
  rw [tdiv_low]
  unfold gridRatioLow
  constructor
  · rintro ⟨hx, hy⟩
    refine ⟨(column r c.1 / 8).toNat, by omega, (column r c.2 / 8).toNat, by omega, ?_⟩
    dsimp only
    omega
  · rintro ⟨xl, hxl, yl, hyl, hx, hy⟩
    dsimp only at hx hy
    omega

/-! ## Filling the table -/

theorem sizeLow_eq (r : ℕ) : sizeLow r = low r * 2 * (low r * 2) := by
  unfold sizeLow
  rw [tdiv_low, show (low r : ℤ) * low r * 4 = ((low r * 2 * (low r * 2) : ℕ) : ℤ) by push_cast; ring, Int.toNat_natCast]

theorem fillOffsetsLow_eq (hl : table.length = low r * 2 * (low r * 2)) : fillOffsetsLow sort r (cells r) table =
      table.mapIdx fun i => .place sort r (cells r) (i % (low r * 2)) (i / (low r * 2)) := by
  have hn : ((low r : ℤ) * 2).toNat = low r * 2 := by omega
  unfold fillOffsetsLow
  dsimp only
  rw [tdiv_low, hn]
  exact foldl_modify_grid (.place sort r (cells r)) hl

theorem place_lt (hi : i < low r * 2 * (low r * 2)) : i % (low r * 2) < low r * 2 ∧ i / (low r * 2) < low r * 2 := by
  have hpos : 0 < low r * 2 := by
    by_contra hz
    rw [show low r * 2 = 0 by omega] at hi
    omega
  exact ⟨Nat.mod_lt i hpos, Nat.div_lt_of_lt_mul hi⟩

def resized (radius : ℤ) (table : List SSearchOffsetLow) : List SSearchOffsetLow :=
  table ++ List.replicate (sizeLow radius - table.length) ⟨0, 0, 0, []⟩

theorem length_resized (h : Rebuilds radius table) : (resized radius table).length = sizeLow radius := by
  unfold Rebuilds at h
  rw [resized, length_append, length_replicate]
  omega

theorem getSearchOffsetTableLow_of_rebuilds (h : Rebuilds r table) : getSearchOffsetTableLow sort sortLow r table =
      sortLow ((resized r table).mapIdx fun i => .place sort r (cells r) (i % (low r * 2)) (i / (low r * 2))) := by
  unfold getSearchOffsetTableLow
  rw [if_pos (show sizeLow r > table.length from h)]
  dsimp only
  rw [fillCells_eq, ← resized, fillOffsetsLow_eq ((length_resized h).trans (sizeLow_eq r))]

/-! ## A table filled from nothing -/

def squareAt (sort : List SSearchOffset → List SSearchOffset) (r i : ℕ) : SSearchOffsetLow :=
  .place sort r (cells r) (i % (low r * 2)) (i / (low r * 2)) ⟨0, 0, 0, []⟩

theorem square_squareAt (r i : ℕ) :
    square (squareAt sort r i) = (((i % (low r * 2) : ℕ) : ℤ) - low r, ((i / (low r * 2) : ℕ) : ℤ) - low r) := rfl

theorem square_squareAt_injective {j : ℕ} (h : square (squareAt sort r i) = square (squareAt sort r j)) : i = j := by
  rw [square_squareAt, square_squareAt, Prod.mk.injEq] at h
  rw [← Nat.div_add_mod i (low r * 2), ← Nat.div_add_mod j (low r * 2),
    show i / (low r * 2) = j / (low r * 2) by omega, show i % (low r * 2) = j % (low r * 2) by omega]

theorem perm_ofs_squareAt (hsort : Sorts SSearchOffset.qdist sort) (i : ℕ) :
    (squareAt sort r i).ofs.Perm (squareCells r (cells r) (i % (low r * 2)) (i / (low r * 2))) :=
  hsort.perm _

theorem mem_ofs_squareAt (hsort : Sorts SSearchOffset.qdist sort) (hi : i < low r * 2 * (low r * 2)) :
    c ∈ (squareAt sort r i).ofs.map cell ↔ InBlock r (square (squareAt sort r i)) c :=
  ((perm_ofs_squareAt hsort i).map cell).mem_iff.trans (mem_squareCells (place_lt hi).1 (place_lt hi).2)

theorem exists_squareAt (hx : xl < low r * 2) (hy : yl < low r * 2) :
    ∃ i < low r * 2 * (low r * 2), square (squareAt sort r i) = ((xl : ℤ) - low r, (yl : ℤ) - low r) := by
  have hpos : 0 < low r * 2 := Nat.zero_lt_of_lt hx
  refine ⟨low r * 2 * yl + xl, ?_, ?_⟩
  · calc low r * 2 * yl + xl < low r * 2 * (yl + 1) := Nat.add_lt_add_left hx _
      _ ≤ low r * 2 * (low r * 2) := Nat.mul_le_mul_left _ hy
  · rw [square_squareAt, Nat.mul_add_mod, Nat.mod_eq_of_lt hx, Nat.mul_add_div hpos, Nat.div_eq_of_lt hx, Nat.add_zero]

theorem wellFormed_fill (hsort : Sorts SSearchOffset.qdist sort) (hperm : table.Perm ((range (low r * 2 * (low r * 2))).map (squareAt sort r)))
    (hsorted : table.Pairwise fun a b => a.qdist ≤ b.qdist) : WellFormed r table := by
  have hmem : ∀ e ∈ table, ∃ i < low r * 2 * (low r * 2), e = squareAt sort r i := fun e he => by
    obtain ⟨i, hi, rfl⟩ := mem_map.1 (hperm.mem_iff.1 he)
    exact ⟨i, mem_range.1 hi, rfl⟩
  have hcells : ((table.flatMap (·.ofs)).map cell).Perm
      ((range (low r * 2 * (low r * 2))).flatMap fun i => (squareAt sort r i).ofs.map cell) := by
    refine ((hperm.flatMap_right _).map cell).trans (.of_eq ?_)
    rw [flatMap_map, map_flatMap]
  constructor
  case qdist =>
    intro e he
    obtain ⟨i, -, rfl⟩ := hmem e he
    rfl
  case sorted => exact hsorted
  case ofs_length =>
    intro e he
    obtain ⟨i, -, rfl⟩ := hmem e he
    rw [(perm_ofs_squareAt hsort i).length_eq, length_squareCells]
  case ofs_qdist =>
    intro e he o ho
    obtain ⟨i, hi, rfl⟩ := hmem e he
    exact qdist_squareCells (place_lt hi).1 (place_lt hi).2 ((perm_ofs_squareAt hsort i).mem_iff.1 ho)
  case ofs_sorted =>
    intro e he
    obtain ⟨i, -, rfl⟩ := hmem e he
    exact hsort.sorted _
  case inBlock =>
    intro e he o ho
    obtain ⟨i, hi, rfl⟩ := hmem e he
    exact (mem_ofs_squareAt hsort hi).1 (mem_map_of_mem ho)
  case nodup =>
    rw [hcells.nodup_iff, nodup_flatMap]
    refine ⟨fun i hi => ?_, ?_⟩
    · have hi := place_lt (mem_range.1 hi)
      exact ((perm_ofs_squareAt hsort i).map cell).nodup_iff.2 (nodup_squareCells hi.1 hi.2)
    · -- two squares have no cell in common
      refine List.Pairwise.imp_of_mem (fun {i j} hi hj hne c hc hc' => hne ?_) nodup_range
      exact square_squareAt_injective (((mem_ofs_squareAt hsort (mem_range.1 hi)).1 hc).unique
        ((mem_ofs_squareAt hsort (mem_range.1 hj)).1 hc'))
  case covers =>
    intro c
    rw [hcells.mem_iff, mem_flatMap, covered_iff]
    constructor
    · rintro ⟨i, hi, hc⟩
      have hi := mem_range.1 hi
      exact ⟨_, (place_lt hi).1, _, (place_lt hi).2, (mem_ofs_squareAt hsort hi).1 hc⟩
    · rintro ⟨xl, hxl, yl, hyl, hc⟩
      obtain ⟨i, hi, heq⟩ := exists_squareAt hxl hyl
      exact ⟨i, mem_range.2 hi, (mem_ofs_squareAt hsort hi).2 (heq ▸ hc)⟩

/-! ## The table grows -/

theorem wellFormed_of_fresh (hsort : Sorts SSearchOffset.qdist sort) (hsortLow : Sorts SSearchOffsetLow.qdist sortLow) (h : Rebuilds r []) :
    WellFormed r (getSearchOffsetTableLow sort sortLow r []) := by
  rw [getSearchOffsetTableLow_of_rebuilds h]
  refine wellFormed_fill hsort ((hsortLow.perm _).trans (.of_eq ?_)) (hsortLow.sorted _)
  refine ext_getElem? fun i => ?_
  rw [getElem?_mapIdx, getElem?_map, resized, nil_append, length_nil, Nat.sub_zero, sizeLow_eq,
    getElem?_replicate]
  by_cases hi : i < low r * 2 * (low r * 2)
  · rw [if_pos hi, getElem?_range hi]
    rfl
  · rw [if_neg hi, getElem?_eq_none (by rw [length_range]; omega)]
    rfl

theorem length_ofs_place (hsort : Sorts SSearchOffset.qdist sort) (xl yl : ℕ) (e : SSearchOffsetLow) :
    (e.place sort r (cells r) xl yl).ofs.length = e.ofs.length + gridRatioLow * gridRatioLow := by
  unfold SSearchOffsetLow.place
  dsimp only
  rw [(hsort.perm _).length_eq, length_append, length_squareCells]

theorem not_wellFormed_of_neg (hsortLow : Sorts SSearchOffsetLow.qdist sortLow) (h : Rebuilds radius table)
    (hneg : radius < 0) : ¬ WellFormed last (getSearchOffsetTableLow sort sortLow radius table) := by
  intro hw
  have hn : (radius.tdiv gridRatioLow * 2).toNat = 0 := by
    have hle := Int.tdiv_nonneg (neg_nonneg.2 hneg.le) (Int.natCast_nonneg gridRatioLow)
    rw [Int.neg_tdiv] at hle
    omega
  have hempty : (⟨0, 0, 0, []⟩ : SSearchOffsetLow) ∈ getSearchOffsetTableLow sort sortLow radius table := by
    unfold getSearchOffsetTableLow fillOffsetsLow
    rw [if_pos (show sizeLow radius > table.length from h)]
    dsimp only
    rw [(hsortLow.perm _).mem_iff, hn]
    refine mem_append_right _ (mem_replicate.2 ⟨?_, rfl⟩)
    have : sizeLow radius > table.length := h
    omega
  exact absurd (hw.ofs_length _ hempty) (by decide)

theorem rebuild_iff (hsort : Sorts SSearchOffset.qdist sort) (hsortLow : Sorts SSearchOffsetLow.qdist sortLow) (hw : WellFormed last table)
    (h : Rebuilds radius table) :
    WellFormed radius (getSearchOffsetTableLow sort sortLow radius table) ↔ table = [] ∧ 0 ≤ radius := by
  constructor
  · intro hnew
    have hnonneg : 0 ≤ radius := not_lt.1 fun hneg => not_wellFormed_of_neg hsortLow h hneg hnew
    refine ⟨?_, hnonneg⟩
    obtain ⟨r, rfl⟩ := Int.eq_ofNat_of_zero_le hnonneg
    -- the first entry is used again
    match table, hw, h, hnew with
    | [], _, _, _ => rfl
    | e :: table, hw, h, hnew =>
      rw [getSearchOffsetTableLow_of_rebuilds h] at hnew
      have hlen := hnew.ofs_length (e.place sort r (cells r) (0 % (low r * 2)) (0 / (low r * 2)))
        ((hsortLow.perm _).mem_iff.2 (mem_mapIdx.2 ⟨0, by rw [length_resized h]; exact Nat.zero_lt_of_lt h, rfl⟩))
      rw [length_ofs_place hsort, hw.ofs_length e mem_cons_self] at hlen
      exact absurd hlen (by decide)
  · rintro ⟨rfl, hnonneg⟩
    obtain ⟨r, rfl⟩ := Int.eq_ofNat_of_zero_le hnonneg
    exact wellFormed_of_fresh hsort hsortLow h

theorem wellFormed_nil : WellFormed 0 [] where
  qdist _ he := absurd he not_mem_nil
  sorted := .nil
  ofs_length _ he := absurd he not_mem_nil
  ofs_qdist _ he := absurd he not_mem_nil
  ofs_sorted _ he := absurd he not_mem_nil
  inBlock _ he := absurd he not_mem_nil
  nodup := .nil
  covers c := by
    refine iff_of_false not_mem_nil ?_
    unfold Covered
    rw [Int.zero_tdiv]
    omega

theorem WellFormed.call (hsort : Sorts SSearchOffset.qdist sort) (hsortLow : Sorts SSearchOffsetLow.qdist sortLow) (hw : WellFormed last table)
    (h : Safe radius table) : WellFormed (if Rebuilds radius table then radius else last)
      (getSearchOffsetTableLow sort sortLow radius table) := by
  by_cases hre : Rebuilds radius table
  · rw [if_pos hre]
    exact (rebuild_iff hsort hsortLow hw hre).2 (h hre)
  · rw [if_neg hre, getSearchOffsetTableLow, if_neg (show ¬ sizeLow radius > table.length from hre)]
    exact hw

/-- The table is well formed after any calls of which only the first to fill it finds it too small. -/
theorem Calls.wellFormed (hsort : Sorts SSearchOffset.qdist sort) (hsortLow : Sorts SSearchOffsetLow.qdist sortLow) {last : ℤ}
    (h : Calls sort sortLow Safe last table) : WellFormed last table := by
  induction h with
  | start => exact wellFormed_nil
  | call radius hsafe _ ih => exact ih.call hsort hsortLow hsafe

/-! ## Insertion sort as the sort -/

def sortOffsets : List SSearchOffset → List SSearchOffset := sortBy SSearchOffset.qdist

def sortOffsetsLow : List SSearchOffsetLow → List SSearchOffsetLow := sortBy SSearchOffsetLow.qdist

def tableOf (radius : ℤ) : List SSearchOffsetLow := getSearchOffsetTableLow sortOffsets sortOffsetsLow radius []

theorem calls_tableOf {meets : ℤ → List SSearchOffsetLow → Prop} (h : meets radius [])
    (hre : Rebuilds radius []) : Calls sortOffsets sortOffsetsLow meets radius (tableOf radius) := by
  have hcall : Calls sortOffsets sortOffsetsLow meets _ (tableOf radius) := .call radius h .start
  rwa [if_pos hre] at hcall

/-- Calls with the radii 20 and 9: the second one finds the table of the first large enough. -/
theorem wellFormed_shrinking :
    Calls sortOffsets sortOffsetsLow Safe 20 (getSearchOffsetTableLow sortOffsets sortOffsetsLow 9 (tableOf 20)) ∧
      WellFormed 20 (getSearchOffsetTableLow sortOffsets sortOffsetsLow 9 (tableOf 20)) := by
  have hbig : ¬ Rebuilds 9 (tableOf 20) := by decide +kernel
  have hfirst : Calls sortOffsets sortOffsetsLow Safe 20 (tableOf 20) :=
    calls_tableOf (fun _ => ⟨rfl, by decide⟩) (by decide)
  have hcalls := hfirst.call 9 fun h => absurd h hbig
  rw [if_neg hbig] at hcalls
  exact ⟨hcalls, hcalls.wellFormed (sorts_sortBy _) (sorts_sortBy _)⟩

/-- Calls with the radii 8 and 16: the four entries of the first call are used again by the second one and have 128
cells then. -/
theorem not_wellFormed_growing : Calls sortOffsets sortOffsetsLow (fun _ _ => True) 16
        (getSearchOffsetTableLow sortOffsets sortOffsetsLow 16 (tableOf 8)) ∧
      ¬ WellFormed 16 (getSearchOffsetTableLow sortOffsets sortOffsetsLow 16 (tableOf 8)) := by
  have hfirst : Rebuilds 8 [] := by decide
  have hgrow : Rebuilds 16 (tableOf 8) := by decide +kernel
  have hcalls : Calls sortOffsets sortOffsetsLow (fun _ _ => True) _ _ :=
    .call 16 trivial (calls_tableOf trivial hfirst)
  have hfilled : WellFormed 8 (tableOf 8) := wellFormed_of_fresh (r := 8) (sorts_sortBy _) (sorts_sortBy _) hfirst
  rw [if_pos hgrow] at hcalls
  refine ⟨hcalls, fun hw => ?_⟩
  have hempty := ((rebuild_iff (sorts_sortBy _) (sorts_sortBy _) hfilled hgrow).1 hw).1
  exact absurd (congrArg length hempty) (by decide +kernel)

end Circuit.Spec.CoarseOffsets
