import CircuitAI.Proof.SectorQuery.Runs

/-!
# Sectors for a building in an area

`GetAlternativeSector` for an immobile type looks for a sector of the area only: it never reads the sectors of the type.
So a query that reads no entry for another area answers with the sector of the area that is closest to the source
(`Buffer.Own.answer`), which fits exactly if the type can be built there (`fits_iff`).
-/

namespace Circuit.Spec.SectorQueries

open Impl.TerrainData Impl.SectorQuery Framework Option Areas

variable {g : Metric} {t : Setup} {ml : List MoveLimits} {il : List BuildLimits} {b cur next : Buffer} {e d : SAreaData}
  {a : AreaRef} {i it c : ℕ}

/-! ## Sectors lie in the area they point to -/

def Holding (d : SAreaData) : Prop := ∀ mt ∈ d.mobileType, Held mt

theorem Holding.mem (h : Holding d) (hi : (sectorList d (some a.1) i).area = some a.2) :
    ∃ ar, area d a = some ar ∧ i ∈ ar.sector := by
  cases hm : d.mobileType[a.1]? with
  | none =>
    rw [sectorList, hm] at hi
    exact absurd hi (by simp [STerrainMapAreaSector.new])
  | some mt =>
    rw [sectorList_of_mobileType hm] at hi
    obtain ⟨ar, har, hmem⟩ := h mt (List.mem_of_getElem? hm) i a.2 hi
    exact ⟨ar, by rw [area, hm]; exact har, hmem⟩

theorem holding_emptied : Holding (emptied d) ↔ Holding d := by
  have htype : ∀ mt, Held (emptiedType mt) ↔ Held mt := by
    intro mt
    refine forall₂_congr fun i k => imp_congr_right fun _ => ?_
    show (∃ area, (mt.area.map emptiedArea)[k]? = some area ∧ i ∈ area.sector) ↔ _
    rw [List.getElem?_map]
    cases mt.area[k]? with
    | none => simp
    | some ar => simp [emptiedArea]
  unfold Holding
  rw [show (emptied d).mobileType = d.mobileType.map emptiedType from rfl, List.forall_mem_map]
  exact forall₂_congr fun mt _ => htype mt

structure Buffer.Sound (g : Metric) (t : Setup) (b : Buffer) : Prop where
  ok : b.Ok g t
  holding : Holding b.data

theorem Buffer.Sound.ask (h : b.Sound g t) {q : Query} (hown : b.Own g t q) : (b.ask g t q).Sound g t := by
  refine ⟨h.ok.ask hown, ?_⟩
  rw [← holding_emptied, h.ok.emptied_ask hown, holding_emptied]
  exact h.holding

theorem Buffer.Sound.rebuild (hnext : next.Sound g t) (hcur : cur.Sound g t) (h s : FloatVec) :
    (next.rebuild t cur.data h s).Sound g t := by
  refine ⟨hnext.ok.rebuild hcur.ok h s, fun mt hmt => ?_⟩
  obtain ⟨mt, _, prev, _, rfl⟩ := exists_of_mem_zipWith hmt
  exact calculations_held _ fun _ => rfl

theorem Run.sound (hrun : Run g t ml il (Buffer.Own g t) cur next) : cur.Sound g t ∧ next.Sound g t := by
  induction hrun with
  | init h s =>
    have hheld : Holding (Impl.TerrainData.init t ml il h s) := by
      intro mt hmt
      obtain ⟨l, _, rfl⟩ := List.mem_map.1 hmt
      exact calculations_held _ fun _ => rfl
    exact ⟨⟨(init_ok h s).1, hheld⟩, (init_ok h s).2, hheld⟩
  | ask q _ hq ih => exact ⟨ih.1.ask hq, ih.2⟩
  | askNext q _ hq ih => exact ⟨ih.1, ih.2.ask hq⟩
  | update h s _ ih => exact ⟨ih.1, ih.2.rebuild ih.1 h s⟩
  | swap _ ih => exact ih.symm

/-! ## The answer is the closest sector of the area -/

theorem nearest_self (hg : Planar g t) {S : Finset ℕ} (hc : c ∈ S) (hlt : c < t.sectors) : nearest g t S c = some c := by
  rcases nearest_cases g t S c with ⟨-, hall⟩ | ⟨c', -, hlt', hsome, hall⟩
  · exact absurd (hall c hc hlt) (by rw [hg.self]; exact not_le.2 hg.fltMax_pos)
  · have hzero := hall c hc hlt
    rw [hg.self] at hzero
    by_cases hcc : c' = c
    · rw [hsome, hcc]
    · exact absurd (hg.apart c' hlt' c hlt hcc) (not_lt.2 hzero)

theorem findClosest_mem (h : Holding d) (hi : i < t.sectors) (hc : findClosest g t a i d = some c) :
    ∃ ar, area d a = some ar ∧ c ∈ ar.sector ∧ c < t.sectors := by
  unfold findClosest at hc
  obtain ⟨ar, har, hc⟩ := bind_eq_some_iff.1 hc
  split at hc
  · rename_i hin
    obtain rfl := some_inj.1 hc
    obtain ⟨ar, har, hmem⟩ := h.mem hin
    exact ⟨ar, har, hmem, hi⟩
  · exact ⟨ar, har, nearest_mem hc⟩

theorem getAlternativeSectorI_self (hg : Planar g t) {ar : STerrainMapArea} (har : area d a = some ar)
    (hc : c ∈ ar.sector) (hlt : c < t.sectors) (hin : (sectorList d (some a.1) c).area = some a.2) (it n : ℕ) :
    (getAlternativeSectorI g t (some a) it (n + 1) c (emptied d)).1 = some c := by
  rw [getAlternativeSectorI_emptied, searchAlternativeI_inside ((isOutside_emptied _ c).trans (isOutside_some.2 hin))]
  show ((area (emptied d) a).bind fun area => nearest g t area.sector c) = some c
  rw [nearest_emptied, har]
  exact nearest_self hg hc hlt

theorem getAlternativeSectorI_closest (hg : Planar g t) (h : b.Sound g t) (hi : i < t.sectors)
    (hc : findClosest g t a i b.data = some c) :
    (getAlternativeSectorI g t (some a) it 2 i (emptied b.data)).1 = some c := by
  obtain ⟨ar, har, hmem, hlt⟩ := findClosest_mem h.holding hi hc
  have hc' : findClosest g t a i (emptied b.data) = some c := (findClosest_emptied g a i).trans hc
  have hin : (sectorList b.data (some a.1) c).area = some a.2 :=
    (sectorList_emptied_area (some a.1) c).symm.trans (h.ok.findClosest_inside hc')
  cases hout : isOutside (some a) i b.data with
  | false =>
    obtain rfl : i = c := by
      have hself := isOutside_some.1 hout
      rw [findClosest, har, bind_some, if_pos hself] at hc
      exact some_inj.1 hc
    exact getAlternativeSectorI_self hg har hmem hlt hin it 1
  | true =>
    -- entries that the look up of the closest sector leaves are valid for this area
    have hV : Valid g t (emptied b.data) b.stale (fun _ _ _ => some a.2) (emptied b.data) :=
      h.ok.emptied.refill fun m i it hs => absurd hs (by simp)
    have hclosest := getClosestSector_asEmptied hV a i
    have hfound : getClosestSector g t a i (emptied b.data) = (some c, (getClosestSector g t a i (emptied b.data)).2) :=
      Prod.ext ((getClosestSector_eq hV a i).trans hc') rfl
    rw [getAlternativeSectorI_emptied, searchAlternativeI_outside ((isOutside_emptied _ i).trans hout), bind_of_eq hfound]
    dsimp only
    rw [getSectorIndex_position]
    have hin' : isOutside (some a) c (getClosestSector g t a i (emptied b.data)).2 = false := by
      rw [← isOutside_emptied, hclosest.core_eq, isOutside_emptied, isOutside_emptied]
      exact isOutside_some.2 hin
    rw [(alternativeI_asEmptied_inside hclosest.valid rfl hin' 0).answer, hclosest.core_eq, emptied_emptied]
    exact getAlternativeSectorI_self hg har hmem hlt hin it 0

theorem Buffer.Own.answer (hg : Planar g t) (h : b.Sound g t) (hi : i < t.sectors)
    (hown : b.Own g t (.alternativeI (some a) i it)) (hc : (getClosestSector g t a i b.data).1 = some c) :
    ((Query.alternativeI (some a) i it).ask g t b.data).1 = some c := by
  rw [getClosestSector_eq h.ok, findClosest_emptied] at hc
  rw [(Buffer.Clean.asEmptied (q := .alternativeI (some a) i it) h.ok hown).answer]
  exact getAlternativeSectorI_closest hg h hi hc

/-! ## Which answers fit -/

theorem fits_iff (hg : Planar g t) (h : b.Sound g t) (hi : i < t.sectors)
    (hown : b.Own g t (.alternativeI (some a) i it)) (hc : (getClosestSector g t a i b.data).1 = some c) :
    Fits g t b.data a i it ((Query.alternativeI (some a) i it).ask g t b.data).1 ↔ c ∈ buildable b.data a it := by
  rw [hown.answer hg h hi hc]
  refine ⟨fun hfits => hfits.1, fun hmem => ⟨hmem, fun c' hc' r _ => ?_⟩⟩
  obtain rfl := some_inj.1 (hc.symm.trans hc')
  rw [hg.self]
  exact hg.nonneg _ _

/-- In every run in which no entry for another area is read, a query for a sector, an area and an immobile type answers
with what fits if the type can be built on the sector of the area that is closest to the source. -/
theorem alternativeI_fits (g : Metric) (t : Setup) (hg : Planar g t) (mobileType : List MoveLimits)
    (immobileType : List BuildLimits) (cur next : Buffer)
    (hrun : Run g t mobileType immobileType (Buffer.Own g t) cur next) (a : AreaRef) (i it : ℕ) (hi : i < t.sectors)
    (hown : cur.Own g t (.alternativeI (some a) i it))
    (hbuild : ∃ c ∈ buildable cur.data a it, (getClosestSector g t a i cur.data).1 = some c) :
    Fits g t cur.data a i it ((Query.alternativeI (some a) i it).ask g t cur.data).1 := by
  obtain ⟨c, hmem, hc⟩ := hbuild
  exact (fits_iff hg hrun.sound.1 hi hown hc).2 hmem

/-! ## Two areas of which the western one has a shore -/

theorem gridMetric_planar (t : Setup) : Planar gridMetric t where
  self i := by simp [gridMetric]
  nonneg p q := add_nonneg (mul_self_nonneg _) (mul_self_nonneg _)
  apart i _ j _ hij := by
    have hne : position t i ≠ position t j := fun hp =>
      hij (by rw [← getSectorIndex_position t i, hp, getSectorIndex_position])
    rw [Ne, Prod.ext_iff, not_and_or] at hne
    rcases hne with hne | hne
    · exact add_pos_of_pos_of_nonneg (mul_self_pos.2 (sub_ne_zero.2 (Nat.cast_injective.ne hne))) (mul_self_nonneg _)
    · exact add_pos_of_nonneg_of_pos (mul_self_nonneg _) (mul_self_pos.2 (sub_ne_zero.2 (Nat.cast_injective.ne hne)))
  fltMax_pos := by simp [gridMetric]

def shore : FloatVec := fun iH => if iH % 14 / 2 = 0 then -5 else if iH % 14 / 2 = 3 then -50 else 10

def shoreBuffer : Buffer := .new (CTerrainData.init Areas.strait [Areas.tank] [Areas.mill] shore 0).pAreaData

def shoreNext : Buffer := .new (CTerrainData.init Areas.strait [Areas.tank] [Areas.mill] shore 0).nextAreaData

def westernMill : Query := .alternativeI (some (0, 0)) 4 0

theorem westernMill_own : shoreBuffer.Own gridMetric strait westernMill := by
  refine ⟨fun habs => absurd habs (by decide +kernel), fun _ _ c hc => ?_⟩
  have htwo : findClosest gridMetric strait (0, 0) 4 shoreBuffer.data = some 2 := by decide +kernel
  obtain rfl := some_inj.1 (htwo.symm.trans hc)
  exact fun habs => absurd habs (by decide +kernel)

theorem alternativeI_fits_shore : (westernMill.ask gridMetric Areas.strait shoreBuffer.data).1 = some 2 ∧
    Fits gridMetric Areas.strait shoreBuffer.data (0, 0) 4 0 (westernMill.ask gridMetric Areas.strait shoreBuffer.data).1 :=
  ⟨by decide +kernel, alternativeI_fits gridMetric strait (gridMetric_planar _) [tank] [mill] shoreBuffer
    shoreNext (.init _ _) (0, 0) 4 0 (by decide) westernMill_own ⟨2, by decide +kernel, by decide +kernel⟩⟩

/-- At the shore the answer is the sector itself, where no mill can be built, although one can be built next to it. Once
a mill was asked for in the western area, the answer for the eastern area is the western sector. -/
theorem shore_unfit : Run gridMetric Areas.strait [Areas.tank] [Areas.mill] (fun _ _ => True) shoreBuffer shoreNext ∧
    Run gridMetric Areas.strait [Areas.tank] [Areas.mill] (fun _ _ => True)
      (shoreBuffer.ask gridMetric Areas.strait westernMill) shoreNext ∧ 1 ∈ buildable shoreBuffer.data (0, 0) 0 ∧
    ((Query.alternativeI (some (0, 0)) 0 0).ask gridMetric Areas.strait shoreBuffer.data).1 = some 0 ∧
    ¬ Fits gridMetric Areas.strait shoreBuffer.data (0, 0) 0 0 (some 0) ∧
    4 ∈ buildable (shoreBuffer.ask gridMetric Areas.strait westernMill).data (0, 1) 0 ∧
    ((Query.alternativeI (some (0, 1)) 4 0).ask gridMetric Areas.strait
      (shoreBuffer.ask gridMetric Areas.strait westernMill).data).1 = some 2 ∧
    ¬ Fits gridMetric Areas.strait (shoreBuffer.ask gridMetric Areas.strait westernMill).data (0, 1) 4 0 (some 2) :=
  ⟨.init _ _, .ask westernMill (.init _ _) trivial, by decide +kernel, by decide +kernel,
    fun hfits => absurd hfits.1 (by decide +kernel), by decide +kernel, by decide +kernel,
    fun hfits => absurd hfits.1 (by decide +kernel)⟩

end Circuit.Spec.SectorQueries
