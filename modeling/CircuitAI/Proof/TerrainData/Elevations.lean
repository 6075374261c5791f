import CircuitAI.Proof.TerrainData.Update
import CircuitAI.Spec.Elevations

/-!
# Where the published elevations are bounds

* `scanElevation_eq`, `foldl_scanElevation`: the cells of one sector; the elevations of the map follow the sector's only
  where these leave the first cell;
* `scanSectors_iff`: the loop over the sectors;
* `bounded_update_iff`: a scan keeps the bounds exactly where it covers what it scans;
* `fillMapData_nonneg`: within the bounds no move cost is negative.
-/

namespace Circuit.Spec.Elevations

open Impl.Elevation Impl.TerrainData Framework List

variable {t : Setup} {heightMap slopeMap : FloatVec} {scanned : ℕ → Bool} {e : Extremes} {i : ℕ}

/-! ## The cells of a sector -/

structure Scanned (s s' : STerrainMapSector) (e e' : Extremes) : Prop where
  min_le : s'.minElevation ≤ s.minElevation
  le_max : s.maxElevation ≤ s'.maxElevation
  maxSlope : s'.maxSlope = s.maxSlope
  lowest : ∀ x, e'.minElevation ≤ x ↔
    e.minElevation ≤ x ∨ (s'.minElevation < s.minElevation ∧ s'.minElevation ≤ x)
  highest : ∀ x, x ≤ e'.maxElevation ↔
    x ≤ e.maxElevation ∨ (s.maxElevation < s'.maxElevation ∧ x ≤ s'.maxElevation)

theorem Scanned.refl (s : STerrainMapSector) (e : Extremes) : Scanned s s e e :=
  ⟨le_rfl, le_rfl, rfl, fun x => by simp, fun x => by simp⟩

theorem Scanned.trans {s₁ s₂ s₃ : STerrainMapSector} {e₁ e₂ e₃ : Extremes} (h : Scanned s₁ s₂ e₁ e₂)
    (h' : Scanned s₂ s₃ e₂ e₃) : Scanned s₁ s₃ e₁ e₃ where
  min_le := h'.min_le.trans h.min_le
  le_max := h.le_max.trans h'.le_max
  maxSlope := h'.maxSlope.trans h.maxSlope
  lowest x := by
    have h₁ := h.min_le
    have h₂ := h'.min_le
    rw [h'.lowest, h.lowest]
    constructor
    · rintro ((hx | ⟨hlt, hx⟩) | ⟨hlt, hx⟩)
      · exact .inl hx
      · exact .inr ⟨h₂.trans_lt hlt, h₂.trans hx⟩
      · exact .inr ⟨hlt.trans_le h₁, hx⟩
    · rintro (hx | ⟨hlt, hx⟩)
      · exact .inl (.inl hx)
      · rcases h₂.lt_or_eq with hlt' | heq
        · exact .inr ⟨hlt', hx⟩
        · exact .inl (.inr ⟨heq ▸ hlt, heq ▸ hx⟩)
  highest x := by
    have h₁ := h.le_max
    have h₂ := h'.le_max
    rw [h'.highest, h.highest]
    constructor
    · rintro ((hx | ⟨hlt, hx⟩) | ⟨hlt, hx⟩)
      · exact .inl hx
      · exact .inr ⟨hlt.trans_le h₂, hx.trans h₂⟩
      · exact .inr ⟨h₁.trans_lt hlt, hx⟩
    · rintro (hx | ⟨hlt, hx⟩)
      · exact .inl (.inl hx)
      · rcases h₂.lt_or_eq with hlt' | heq
        · exact .inr ⟨hlt', hx⟩
        · exact .inl (.inr ⟨heq ▸ hlt, heq ▸ hx⟩)

theorem lowered_iff (e : Extremes) (h x : ℚ) :
    (if h < e.minElevation then { e with minElevation := h } else e).minElevation ≤ x ↔ e.minElevation ≤ x ∨ h ≤ x := by
  split_ifs with hlt
  · exact ⟨.inr, fun hx => hx.elim hlt.le.trans id⟩
  · exact ⟨.inl, fun hx => hx.elim id (not_lt.mp hlt).trans⟩

theorem raised_iff (e : Extremes) (h x : ℚ) :
    x ≤ (if e.maxElevation < h then { e with maxElevation := h } else e).maxElevation ↔ x ≤ e.maxElevation ∨ x ≤ h := by
  split_ifs with hlt
  · exact ⟨.inr, fun hx => hx.elim (·.trans hlt.le) id⟩
  · exact ⟨.inl, fun hx => hx.elim id (·.trans (not_lt.mp hlt))⟩

theorem scanElevation_scanned (heightMap : FloatVec) (s : STerrainMapSector) (e : Extremes) (iH : ℕ) :
    (scanElevation heightMap (s, e) iH).1 = scanHeight heightMap s iH ∧
      Scanned s (scanElevation heightMap (s, e) iH).1 e (scanElevation heightMap (s, e) iH).2 := by
  -- counting land leaves the elevations as they are
  obtain ⟨s₁, hs₁, hmin, hmax, hslope⟩ : ∃ s₁ : STerrainMapSector,
      s₁ = (if 0 ≤ heightMap iH then { s with percentLand := s.percentLand + 1 } else s) ∧
      s₁.minElevation = s.minElevation ∧ s₁.maxElevation = s.maxElevation ∧ s₁.maxSlope = s.maxSlope := by
    refine ⟨_, rfl, ?_, ?_, ?_⟩ <;> split <;> rfl
  simp only [scanElevation, scanHeight, ← hs₁]
  by_cases hlow : heightMap iH < s₁.minElevation
  · simp only [if_pos hlow]
    refine ⟨trivial, (hmin ▸ hlow).le, hmax.ge, hslope, fun x => ?_, fun x => ?_⟩
    · rw [lowered_iff]
      exact or_congr_right (iff_and_self.2 fun _ => hmin ▸ hlow)
    · have hsame : (if heightMap iH < e.minElevation then { e with minElevation := heightMap iH } else e).maxElevation =
          e.maxElevation := by split <;> rfl
      rw [hsame, hmax]
      simp
  · simp only [if_neg hlow]
    by_cases hhigh : s₁.maxElevation < heightMap iH
    · simp only [if_pos hhigh]
      refine ⟨trivial, hmin.le, (hmax ▸ hhigh).le, hslope, fun x => ?_, fun x => ?_⟩
      · have hsame : (if e.maxElevation < heightMap iH then { e with maxElevation := heightMap iH } else e).minElevation =
            e.minElevation := by split <;> rfl
        rw [hsame, hmin]
        simp
      · rw [raised_iff]
        exact or_congr_right (iff_and_self.2 fun _ => hmax ▸ hhigh)
    · simp only [if_neg hhigh]
      exact ⟨trivial, hmin.le, hmax.ge, hslope, fun x => by simp [hmin], fun x => by simp [hmax]⟩

theorem foldl_scanElevation (heightMap : FloatVec) (l : List ℕ) (s : STerrainMapSector) (e : Extremes) :
    (l.foldl (scanElevation heightMap) (s, e)).1 = l.foldl (scanHeight heightMap) s ∧
      Scanned s (l.foldl (scanElevation heightMap) (s, e)).1 e (l.foldl (scanElevation heightMap) (s, e)).2 := by
  induction l generalizing s e with
  | nil => exact ⟨rfl, .refl s e⟩
  | cons iH l ih =>
    obtain ⟨hs, hscan⟩ := scanElevation_scanned heightMap s e iH
    obtain ⟨hs', hscan'⟩ := ih (scanElevation heightMap (s, e) iH).1 (scanElevation heightMap (s, e) iH).2
    rw [foldl_cons, foldl_cons, ← hs]
    exact ⟨hs', hscan.trans hscan'⟩

/-! ## The sectors -/

theorem scanSector_iff (t : Setup) (heightMap slopeMap : FloatVec) (e : Extremes) (i : ℕ) :
    (∀ x, (scanSector t heightMap slopeMap e i).2.minElevation ≤ x ↔ e.minElevation ≤ x ∨
      (Dips t heightMap slopeMap i ∧ (scan t heightMap slopeMap i).minElevation ≤ x)) ∧
    ∀ x, x ≤ (scanSector t heightMap slopeMap e i).2.maxElevation ↔ x ≤ e.maxElevation ∨
      (Rises t heightMap slopeMap i ∧ x ≤ (scan t heightMap slopeMap i).maxElevation) := by
  obtain ⟨hs, hscan⟩ := foldl_scanElevation heightMap (t.cells t.convertStoHM i)
    ⟨false, 0, heightMap (t.iMap t.convertStoHM i), heightMap (t.iMap t.convertStoHM i), scanSlope t slopeMap i⟩ e
  rw [hs] at hscan
  exact ⟨hscan.lowest, hscan.highest⟩

theorem scan_ordered (t : Setup) (heightMap slopeMap : FloatVec) (i : ℕ) :
    (scan t heightMap slopeMap i).minElevation ≤ (scan t heightMap slopeMap i).maxElevation ∧
      (scan t heightMap slopeMap i).maxSlope = scanSlope t slopeMap i := by
  obtain ⟨hs, hscan⟩ := foldl_scanElevation heightMap (t.cells t.convertStoHM i)
    ⟨false, 0, heightMap (t.iMap t.convertStoHM i), heightMap (t.iMap t.convertStoHM i), scanSlope t slopeMap i⟩ noExtremes
  rw [hs] at hscan
  exact ⟨hscan.min_le.trans hscan.le_max, hscan.maxSlope⟩

theorem scanSlope_nonneg (t : Setup) (slopeMap : FloatVec) (i : ℕ) : 0 ≤ scanSlope t slopeMap i := by
  have hfold : ∀ (l : List ℕ) (m : ℚ), 0 ≤ m →
      0 ≤ l.foldl (fun maxSlope iS => if maxSlope < slopeMap iS then slopeMap iS else maxSlope) m := by
    intro l
    induction l with
    | nil => exact fun m hm => hm
    | cons iS l ih =>
      intro m hm
      rw [foldl_cons]
      refine ih _ ?_
      split_ifs with hlt
      · exact hm.trans hlt.le
      · exact hm
  exact hfold _ 0 le_rfl

theorem scanSectors_iff (t : Setup) (heightMap slopeMap : FloatVec) (scanned : ℕ → Bool) (e : Extremes) :
    (∀ x, (scanSectors t heightMap slopeMap scanned e).minElevation ≤ x ↔ e.minElevation ≤ x ∨
      ∃ k < t.sectors, scanned k = true ∧ Dips t heightMap slopeMap k ∧
        (scan t heightMap slopeMap k).minElevation ≤ x) ∧
    ∀ x, x ≤ (scanSectors t heightMap slopeMap scanned e).maxElevation ↔ x ≤ e.maxElevation ∨
      ∃ k < t.sectors, scanned k = true ∧ Rises t heightMap slopeMap k ∧
        x ≤ (scan t heightMap slopeMap k).maxElevation := by
  refine foldl_range_inv
    (fun n (e' : Extremes) =>
      (∀ x, e'.minElevation ≤ x ↔ e.minElevation ≤ x ∨ ∃ k < n, scanned k = true ∧ Dips t heightMap slopeMap k ∧
        (scan t heightMap slopeMap k).minElevation ≤ x) ∧
      ∀ x, x ≤ e'.maxElevation ↔ x ≤ e.maxElevation ∨ ∃ k < n, scanned k = true ∧ Rises t heightMap slopeMap k ∧
        x ≤ (scan t heightMap slopeMap k).maxElevation)
    t.sectors ⟨fun x => by simp, fun x => by simp⟩ fun n hn e' ⟨hlow, hhigh⟩ => ?_
  have hsplit : ∀ P : ℕ → Prop, (∃ k < n + 1, P k) ↔ (∃ k < n, P k) ∨ P n := fun P => by
    simp only [Nat.lt_succ_iff_lt_or_eq, or_and_right, exists_or, exists_eq_left]
  simp only [hsplit]
  split_ifs with hsc
  · obtain ⟨hl, hh⟩ := scanSector_iff t heightMap slopeMap e' n
    simp only [hl, hh, hlow, hhigh, hsc, true_and, or_assoc, implies_true, and_self]
  · simp only [hlow, hhigh, hsc, false_and, or_false, Bool.false_eq_true, implies_true, and_self]

/-! ## Runs -/

def Sane (t : Setup) (d : ElevationData) : Prop :=
  ∀ i < t.sectors, (d.data.pAreaData.sector i).minElevation ≤ (d.data.pAreaData.sector i).maxElevation ∧
    0 ≤ (d.data.pAreaData.sector i).maxSlope

variable {ml : List MoveLimits} {il : List BuildLimits} {ok : FloatVec → FloatVec → Extremes → (ℕ → Bool) → Prop}
  {d : ElevationData}

theorem settle_scan_sane (t : Setup) (heightMap slopeMap : FloatVec) (i : ℕ) :
    (settle t (scan t heightMap slopeMap i)).minElevation ≤ (settle t (scan t heightMap slopeMap i)).maxElevation ∧
      0 ≤ (settle t (scan t heightMap slopeMap i)).maxSlope := by
  obtain ⟨hle, hslope⟩ := scan_ordered t heightMap slopeMap i
  refine ⟨hle, ?_⟩
  show 0 ≤ (scan t heightMap slopeMap i).maxSlope
  rw [hslope]
  exact scanSlope_nonneg t slopeMap i

theorem Run.sane (h : Run t ml il ok d) : Sane t d := by
  induction h with
  | init heightMap slopeMap _ => exact fun i _ => settle_scan_sane t heightMap slopeMap i
  | @update d heightMap slopeMap _ _ ih =>
    intro i hi
    show (updateSector t heightMap slopeMap d.data.pAreaData i).minElevation ≤ _ ∧ 0 ≤ _
    have hsec : ((d.update t heightMap slopeMap).swap.data.pAreaData.sector i) =
        updateSector t heightMap slopeMap d.data.pAreaData i := rfl
    rw [hsec, updateSector]
    split
    · exact settle_scan_sane t heightMap slopeMap i
    · exact ih i hi

theorem covered_iff : Covered t heightMap slopeMap e scanned ↔ ∀ i < t.sectors, scanned i = true →
    (scanSectors t heightMap slopeMap scanned e).minElevation ≤ (scan t heightMap slopeMap i).minElevation ∧
      (scan t heightMap slopeMap i).maxElevation ≤ (scanSectors t heightMap slopeMap scanned e).maxElevation := by
  obtain ⟨hlow, hhigh⟩ := scanSectors_iff t heightMap slopeMap scanned e
  refine forall₃_congr fun i _ _ => ?_
  rw [hlow, hhigh]

theorem bounded_init_iff : Bounded t (.init t ml il heightMap slopeMap) ↔
    Covered t heightMap slopeMap noExtremes fun _ => true := by
  rw [covered_iff]
  refine forall₂_congr fun i _ => ⟨fun h _ => ⟨h.1, h.2.2⟩, fun h => ?_⟩
  exact ⟨(h rfl).1, (settle_scan_sane t heightMap slopeMap i).1, (h rfl).2⟩

theorem bounded_update_iff (hs : Sane t d) (hb : Bounded t d) : Bounded t (d.update t heightMap slopeMap).swap ↔
    Covered t heightMap slopeMap d.pExtremes (d.changed t heightMap) := by
  obtain ⟨hlow, hhigh⟩ := scanSectors_iff t heightMap slopeMap (d.changed t heightMap) d.pExtremes
  rw [covered_iff]
  refine forall₂_congr fun i hi => ?_
  have hsec : (d.update t heightMap slopeMap).swap.data.pAreaData.sector i =
      if d.changed t heightMap i then settle t (scan t heightMap slopeMap i) else d.data.pAreaData.sector i := rfl
  rw [hsec]
  split
  · rename_i hc
    exact ⟨fun h _ => ⟨h.1, h.2.2⟩, fun h => ⟨(h hc).1, (settle_scan_sane t heightMap slopeMap i).1, (h hc).2⟩⟩
  · -- what is known of the map only widens
    rename_i hc
    refine ⟨fun _ hc' => absurd hc' hc, fun _ => ⟨?_, (hs i hi).1, ?_⟩⟩
    · exact (hlow _).2 (.inl (hb i hi).1)
    · exact (hhigh _).2 (.inl (hb i hi).2.2)

theorem Run.bounded (h : Run t ml il (Covered t) d) : Bounded t d := by
  induction h with
  | init heightMap slopeMap hok => exact bounded_init_iff.2 hok
  | update heightMap slopeMap h hok ih => exact (bounded_update_iff h.sane ih).2 hok

/-! ## Costs -/

theorem spiderCost_nonneg (hb : Bounded t d) {i : ℕ} (hi : i < t.sectors) :
    0 ≤ spiderCost d.data.pAreaData d.pExtremes i := by
  have hmax := (hb i hi).2.2
  have hlen : (0 : ℚ) < max (d.pExtremes.maxElevation - d.pExtremes.minElevation) (1 / 1000) :=
    lt_max_of_lt_right (by norm_num)
  have hfrac : ((d.data.pAreaData.sector i).maxElevation - d.pExtremes.minElevation) /
      max (d.pExtremes.maxElevation - d.pExtremes.minElevation) (1 / 1000) ≤ 1 := by
    rw [div_le_one hlen]
    exact le_max_of_le_left (by linarith)
  have hwater : (0 : ℚ) ≤ if (d.data.pAreaData.sector i).isWater then 2 else 0 := by split <;> norm_num
  rw [spiderCost, Int.toNat_natCast]
  linarith

theorem unitMaxSlope_pos (d : SAreaData) (u : UnitView) : 0 < unitMaxSlope d u := by
  rw [unitMaxSlope]
  split
  · norm_num
  · exact lt_max_of_lt_right (by norm_num)

theorem fillMapData_spider (d : SAreaData) (e : Extremes) (m : MoveArrays) (threat : ThreatArrays) {u : UnitView}
    (hy : 0 ≤ u.posY) (hc : u.isCloaked = false) (hf : u.isAbleToFly = false) (ha : u.isAmphibious = true)
    (hs : SPIDER_SLOPE < unitMaxSlope d u) : (fillMapData d e m threat u).moveFun = spiderCost d e := by
  simp only [fillMapData, not_lt.mpr hy, hc, hf, ha, hs, false_and, if_false, if_true, Bool.false_eq_true]

theorem fillMapData_nonneg (hs : Sane t d) (hb : Bounded t d) (m : MoveArrays) (threat : ThreatArrays) (u : UnitView)
    {i : ℕ} (hi : i < t.sectors) : 0 ≤ (fillMapData d.data.pAreaData d.pExtremes m threat u).moveFun i := by
  have hslope : 0 ≤ (d.data.pAreaData.sector i).maxSlope / unitMaxSlope d.data.pAreaData u :=
    div_nonneg (hs i hi).2 (unitMaxSlope_pos _ u).le
  have hslope2 : 0 ≤ 2 * (d.data.pAreaData.sector i).maxSlope / unitMaxSlope d.data.pAreaData u := by
    rw [mul_div_assoc]
    exact mul_nonneg zero_le_two hslope
  have hcost : 0 ≤ slopeCost d.data.pAreaData (unitMaxSlope d.data.pAreaData u) i := by
    rw [slopeCost, Int.toNat_natCast]
    refine add_nonneg ?_ hslope2
    split <;> norm_num
  rw [fillMapData]
  split_ifs
  · exact hcost
  · exact hslope
  · exact le_rfl
  · exact spiderCost_nonneg hb hi
  · exact hcost
  · dsimp only
    rw [Int.toNat_natCast]
    split
    · exact le_rfl
    · exact hslope2

/-- Where every scan covers the sectors it scans, the published elevations bound those of all sectors, and no move that a
search is given costs less than nothing. -/
theorem elevations_bounded (h : Run t ml il (Covered t) d) : Bounded t d ∧
    ∀ (m : MoveArrays) (threat : ThreatArrays) (u : UnitView), ∀ i < t.sectors,
      0 ≤ (fillMapData d.data.pAreaData d.pExtremes m threat u).moveFun i :=
  ⟨h.bounded, fun m threat u _ hi => fillMapData_nonneg h.sane h.bounded m threat u hi⟩

/-! ## Two sectors -/

def twoSectors : Setup := ⟨2, 1, 16, false, false, Areas.smallestSide⟩

def heights (h : ℚ) : FloatVec := fun i => if i = 0 then 10 else if i = 1 then 0 else if i = 4 then 20 else
  if i = 5 then 10 else h

def spider : MoveLimits := ⟨1, 1000, -1000, false, false⟩

def spiderUnit : UnitView := ⟨some 0, 0, false, false, false, true⟩

def spiderData (h : ℚ) : ElevationData := .init twoSectors [spider] [] (heights h) fun _ => 0

theorem elevations_bounded_twoSectors : Bounded twoSectors (spiderData 15) ∧
    ∀ (m : MoveArrays) (threat : ThreatArrays) (u : UnitView), ∀ i < twoSectors.sectors,
      0 ≤ (fillMapData (spiderData 15).data.pAreaData (spiderData 15).pExtremes m threat u).moveFun i := by
  have hb : Bounded twoSectors (spiderData 15) := by
    unfold Bounded
    decide +kernel
  exact elevations_bounded (.init _ _ (bounded_init_iff.1 hb))

/-- A flat sector is not seen by the scan: the highest elevation of the map is below it, and to climb it costs less than
nothing. -/
theorem flat_sector_unbounded : Run twoSectors [spider] [] (fun _ _ _ _ => True) (spiderData 100) ∧
    ((spiderData 100).data.pAreaData.sector 1).maxElevation = 100 ∧ (spiderData 100).pExtremes.maxElevation = 20 ∧
    ∀ (m : MoveArrays) (threat : ThreatArrays),
      (fillMapData (spiderData 100).data.pAreaData (spiderData 100).pExtremes m threat spiderUnit).moveFun 1 = -8 := by
  refine ⟨.init _ _ trivial, by decide +kernel, by decide +kernel, fun m threat => ?_⟩
  rw [fillMapData_spider _ _ m threat (u := spiderUnit) (by decide) rfl rfl rfl (by decide +kernel)]
  decide +kernel

end Circuit.Spec.Elevations
