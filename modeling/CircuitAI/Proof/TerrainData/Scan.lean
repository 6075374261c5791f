import CircuitAI.Spec.Areas
import Mathlib.Algebra.BigOperators.Ring.Finset
import Mathlib.Data.Rat.Floor

/-!
# The scan of a sector

A sector's scan reads only its own cells (`scan_congr`), and what it counts as land is a natural number
(`scan_percentLand`), so that `std::round` gives back the counts from the shares. With that
`updatePercentLand_eq` shows that adding the differences of the changed sectors to the old total is counting all
cells again.
-/

namespace Circuit.Impl.TerrainData

open Spec.Areas List

variable {t : Setup} {heightMap slopeMap heightMap' slopeMap' : FloatVec} {i : ℕ}

theorem Setup.convertStoHM_pos (t : Setup) : 0 < t.convertStoHM :=
  Nat.div_pos (le_trans (by decide) t.convertStoP_ge) (by decide)

theorem Setup.iMap_mem_cells {n : ℕ} (hn : 0 < n) (i : ℕ) : t.iMap n i ∈ t.cells n i := by
  rw [Setup.cells, mem_flatMap]
  refine ⟨0, mem_range.2 hn, mem_map.2 ⟨0, mem_range.2 hn, ?_⟩⟩
  rw [Nat.zero_mul, Nat.add_zero]

/-! ## What a scan reads -/

theorem scanSlope_congr (h : ∀ iS ∈ t.cells t.convertStoSM i, slopeMap' iS = slopeMap iS) :
    scanSlope t slopeMap' i = scanSlope t slopeMap i := by
  unfold scanSlope
  refine foldl_ext _ _ _ fun m iS hiS => ?_
  rw [h iS hiS]

theorem scan_congr (hh : ∀ iH ∈ t.cells t.convertStoHM i, heightMap' iH = heightMap iH)
    (hs : ∀ iS ∈ t.cells t.convertStoSM i, slopeMap' iS = slopeMap iS) :
    scan t heightMap' slopeMap' i = scan t heightMap slopeMap i := by
  unfold scan
  rw [hh _ (t.iMap_mem_cells t.convertStoHM_pos i), scanSlope_congr hs]
  refine foldl_ext _ _ _ fun s iH hiH => ?_
  rw [scanHeight, hh iH hiH, scanHeight]

theorem isSectorHeightChanged_eq_false : isSectorHeightChanged t heightMap' heightMap i = false ↔
      ∀ iH ∈ t.cells t.convertStoHM i, heightMap' iH = heightMap iH := by
  simp [isSectorHeightChanged]

theorem scan_of_not_changed (hkept : SlopesKept t heightMap slopeMap heightMap' slopeMap') (hi : i < t.sectors)
    (hc : isSectorHeightChanged t heightMap' heightMap i = false) :
    scan t heightMap' slopeMap' i = scan t heightMap slopeMap i :=
  have hh := isSectorHeightChanged_eq_false.1 hc
  scan_congr hh (hkept i hi hh)

/-! ## Counting land -/

def landCells (t : Setup) (heightMap : FloatVec) (i : ℕ) : ℕ :=
  (t.cells t.convertStoHM i).countP fun iH => 0 ≤ heightMap iH

theorem scanHeight_percentLand (s : STerrainMapSector) (iH : ℕ) :
    (scanHeight heightMap s iH).percentLand = s.percentLand + if 0 ≤ heightMap iH then 1 else 0 := by
  unfold scanHeight
  by_cases h : 0 ≤ heightMap iH
  · rw [if_pos h, if_pos h]
    dsimp only
    split_ifs <;> rfl
  · rw [if_neg h, if_neg h, add_zero]
    dsimp only
    split_ifs <;> rfl

theorem foldl_scanHeight_percentLand (l : List ℕ) (s : STerrainMapSector) :
    (l.foldl (scanHeight heightMap) s).percentLand = s.percentLand + (l.countP fun iH => 0 ≤ heightMap iH : ℕ) := by
  induction l generalizing s with
  | nil => simp
  | cons iH l ih =>
    rw [foldl_cons, ih, scanHeight_percentLand, countP_cons]
    by_cases h : 0 ≤ heightMap iH
    · simp only [h, if_true, decide_true, Nat.cast_add, Nat.cast_one]
      ring
    · simp [h]

theorem scan_percentLand : (scan t heightMap slopeMap i).percentLand = landCells t heightMap i := by
  rw [scan, foldl_scanHeight_percentLand, zero_add, landCells]

theorem round_natCast (n : ℕ) : round n = n := by
  rw [round, if_pos (Nat.cast_nonneg n)]
  have hfloor : ((n : ℚ) + 1 / 2).floor = n := by
    show ⌊(n : ℚ) + 1 / 2⌋ = n
    rw [Int.floor_natCast_add]
    norm_num
  rw [hfloor, Int.cast_natCast]

theorem round_percentLand : round ((settle t (scan t heightMap slopeMap i)).percentLand *
    (t.convertStoHM * t.convertStoHM) / 100) = landCells t heightMap i := by
  have hne : (t.convertStoHM : ℚ) ≠ 0 := Nat.cast_ne_zero.2 t.convertStoHM_pos.ne'
  have hback : (settle t (scan t heightMap slopeMap i)).percentLand * (t.convertStoHM * t.convertStoHM) / 100 =
      landCells t heightMap i := by
    show (scan t heightMap slopeMap i).percentLand * (100 / (t.convertStoHM * t.convertStoHM)) *
      (t.convertStoHM * t.convertStoHM) / 100 = _
    rw [scan_percentLand]
    field_simp
  rw [hback, round_natCast]

def mapLandCells (t : Setup) (heightMap : FloatVec) : ℕ :=
  ((range t.sectors).map (landCells t heightMap)).sum

theorem mapPercentLand_eq : mapPercentLand t heightMap slopeMap = mapLandCells t heightMap * (100 / t.heightCount) := by
  rw [mapPercentLand, mapLandCells, Nat.cast_list_sum, map_map]
  congr 3
  funext i
  exact scan_percentLand

theorem round_mapPercentLand :
    round (mapPercentLand t heightMap slopeMap * t.heightCount / 100) = mapLandCells t heightMap := by
  rw [mapPercentLand_eq]
  by_cases hzero : t.heightCount = 0
  · -- a map without cells has no sectors
    have hsectors : t.sectors = 0 := by
      have hHM := t.convertStoHM_pos.ne'
      simp only [Setup.heightCount, Nat.mul_eq_zero, hHM, or_false] at hzero
      exact Nat.mul_eq_zero.2 hzero
    have hland : mapLandCells t heightMap = 0 := by rw [mapLandCells, hsectors]; rfl
    rw [hland, Nat.cast_zero, zero_mul, zero_mul, zero_div]
    exact round_natCast 0
  · have hne : (t.heightCount : ℚ) ≠ 0 := Nat.cast_ne_zero.2 hzero
    have hback : (mapLandCells t heightMap : ℚ) * (100 / t.heightCount) * t.heightCount / 100 =
        mapLandCells t heightMap := by field_simp
    rw [hback, round_natCast]

theorem landCells_of_not_changed (hc : isSectorHeightChanged t heightMap' heightMap i = false) :
    landCells t heightMap' i = landCells t heightMap i :=
  countP_congr fun iH hiH => by rw [isSectorHeightChanged_eq_false.1 hc iH hiH]

theorem foldl_percentLand (heightMap heightMap' : FloatVec) {f : ℚ → ℕ → ℚ} {n : ℕ} (a : ℚ)
    (hf : ∀ a, ∀ i < n, f a i = a + (landCells t heightMap' i - landCells t heightMap i)) : (range n).foldl f a = a +
      (((range n).map (landCells t heightMap')).sum : ℕ) - (((range n).map (landCells t heightMap)).sum : ℕ) := by
  induction n with
  | zero => simp
  | succ n ih =>
    rw [range_succ, foldl_append, ih fun a i hi => hf a i (hi.trans (Nat.lt_succ_self n)),
      foldl_cons, foldl_nil, hf _ n (Nat.lt_succ_self n)]
    simp only [map_append, map_cons, map_nil, sum_append, sum_cons, sum_nil,
      add_zero, Nat.cast_add]
    ring

theorem updatePercentLand_eq {prev : SAreaData} (hheight : prev.heightMap = heightMap)
    (hsector : ∀ i < t.sectors, prev.sector i = settle t (scan t heightMap slopeMap i))
    (hland : prev.percentLand = mapPercentLand t heightMap slopeMap) :
    updatePercentLand t heightMap' slopeMap' prev = mapLandCells t heightMap' := by
  unfold updatePercentLand
  rw [hheight, hland, round_mapPercentLand, foldl_percentLand heightMap heightMap']
  · rw [mapLandCells, mapLandCells]
    ring
  · intro a i hi
    by_cases hc : isSectorHeightChanged t heightMap' heightMap i
    · simp only [hc, if_true, hsector i hi, round_percentLand, scan_percentLand]
      split_ifs with heq
      · rfl
      · rw [not_not.1 heq, sub_self, add_zero]
    · rw [if_neg hc, landCells_of_not_changed (Bool.eq_false_iff.2 hc), sub_self, add_zero]

end Circuit.Impl.TerrainData
