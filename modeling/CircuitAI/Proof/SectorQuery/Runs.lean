import CircuitAI.Proof.SectorQuery.Queries
import CircuitAI.Proof.TerrainData.Apart

/-!
# Queries over whole runs

A rebuilt buffer has no entries but those for flying units (`Blank`), which are stale from then on, so that its maps
are `Valid` again. With `Buffer.Own.valid_ask` both buffers are valid in every run in which no entry for another area is
read, and each clean query answers as on the emptied data (`run_asEmptied`). A query that is not clean need not: `stale_answer`.
-/

namespace Circuit.Impl.SectorQuery

open TerrainData Spec.SectorQueries Option List

variable {g : Metric} {t : Setup} {e d : SAreaData} {stale : ℕ → ℕ → Bool} {filler : ℕ → ℕ → ℕ → Option ℕ}

def Blank (mt : STerrainMapMobileType) : Prop :=
  (∀ area ∈ mt.area, area.sectorClosest = Cache.empty) ∧ ∀ i, mt.sector i = ⟨(mt.sector i).area, Cache.empty, Cache.empty⟩

theorem calculations_blank {mt : STerrainMapMobileType} {areas : List (Finset ℕ)} (h : ∀ i, mt.sector i = .new) :
    Blank (calculations t mt areas) := by
  refine ⟨fun area ha => ?_, fun i => ?_⟩
  · obtain ⟨C, _, rfl⟩ := mem_map.1 ha
    rfl
  · unfold calculations
    dsimp only
    rw [h i]
    rfl

theorem area_eq_some {a : AreaRef} {ar : STerrainMapArea} (h : area d a = some ar) :
    ∃ mt, d.mobileType[a.1]? = some mt ∧ mt.area[a.2]? = some ar := bind_eq_some_iff.1 h

theorem sectorList_of_mobileType {m : ℕ} {mt : STerrainMapMobileType} (h : d.mobileType[m]? = some mt) :
    sectorList d (some m) = mt.sector := by rw [sectorList, h]; rfl

theorem sectorList_blank (h : ∀ mt ∈ d.mobileType, Blank mt) (m i : ℕ) :
    (sectorList d (some m) i).sectorAlternativeM = Cache.empty ∧ (sectorList d (some m) i).sectorAlternativeI = Cache.empty := by
  cases hm : d.mobileType[m]? with
  | none =>
    rw [sectorList, hm]
    exact ⟨rfl, rfl⟩
  | some mt =>
    rw [sectorList_of_mobileType hm, (h mt (mem_of_getElem? hm)).2 i]
    exact ⟨rfl, rfl⟩

theorem Valid.of_blank (hmt : ∀ mt ∈ d.mobileType, Blank mt ∧ Pointed mt)
    (hit : ∀ it ∈ d.immobileType, it.sectorClosest = Cache.empty)
    (hair : ∀ i m, (alternativeM none i m d).isSome → stale i m = true)
    (hairI : ∀ i it r, alternativeI none i it d = some r → r = none) :
    Valid g t (Spec.SectorQueries.emptied d) stale filler d where
  core := rfl
  apart a ar c ha hc := by
    rw [area_emptied, map_eq_some_iff] at ha
    obtain ⟨ar₀, ha, rfl⟩ := ha
    obtain ⟨mt, hm, hk⟩ := area_eq_some ha
    rw [sectorList_emptied_area, sectorList_of_mobileType hm]
    exact (hmt mt (mem_of_getElem? hm)).2 a.2 ar₀ hk c hc
  closest a i r hr := by
    obtain ⟨ar, ha, hr⟩ := bind_eq_some_iff.1 hr
    obtain ⟨mt, hm, hk⟩ := area_eq_some ha
    rw [(hmt mt (mem_of_getElem? hm)).1.1 ar (mem_of_getElem? hk)] at hr
    exact absurd hr (by simp [Cache.empty])
  closestI it i r hr := by
    obtain ⟨type, ht, hr⟩ := bind_eq_some_iff.1 hr
    rw [hit type (mem_of_getElem? ht)] at hr
    exact absurd hr (by simp [Cache.empty])
  mobileM m i m' r hr := by
    rw [alternativeM, (sectorList_blank (fun mt h => (hmt mt h).1) m i).1] at hr
    exact absurd hr (by simp [Cache.empty])
  airM i m r hr hs := by
    rw [hair i m (by rw [hr]; rfl)] at hs
    exact absurd hs (by decide)
  mobileI m i it r hr := by
    rw [alternativeI, (sectorList_blank (fun mt h => (hmt mt h).1) m i).2] at hr
    exact absurd hr (by simp [Cache.empty])
  airI := hairI

theorem Valid.pointed (h : Valid g t e stale filler d) : ∀ mt ∈ d.mobileType, Pointed mt := by
  intro mt hmem k ar hk c hc
  obtain ⟨m, hm⟩ := mem_iff_getElem?.1 hmem
  have harea : area d (m, k) = some ar := by rw [area, hm]; exact hk
  have hap := h.apart (m, k) (emptiedArea ar) c (by rw [← h.core, area_emptied, harea]; rfl) hc
  rwa [← h.core, sectorList_emptied_area, sectorList_of_mobileType hm] at hap

end Circuit.Impl.SectorQuery

namespace Circuit.Spec.SectorQueries

open Impl.TerrainData Impl.SectorQuery Framework

variable {g : Metric} {t : Setup} {ml : List MoveLimits} {il : List BuildLimits} {b cur next : Buffer}

def Buffer.Ok (g : Metric) (t : Setup) (b : Buffer) : Prop := Valid g t (emptied b.data) b.stale b.filler b.data

theorem init_blank (h s : FloatVec) : ∀ mt ∈ (init t ml il h s).mobileType, Blank mt ∧ Pointed mt := by
  intro mt hmt
  obtain ⟨l, _, rfl⟩ := List.mem_map.1 hmt
  exact ⟨calculations_blank fun _ => rfl, calculations_pointed (fun _ => rfl) (groupSectors_pairwise _)⟩

theorem init_ok (h s : FloatVec) : Buffer.Ok g t (.new (CTerrainData.init t ml il h s).pAreaData) ∧
    Buffer.Ok g t (.new (CTerrainData.init t ml il h s).nextAreaData) := by
  have hair : ∀ i m, (alternativeM none i m (init t ml il h s)).isSome → false = true := fun i m habs => habs
  have hairI : ∀ i it r, alternativeI none i it (init t ml il h s) = some r → r = none := fun i it r hr =>
    absurd (show none = some r from hr) (by simp)
  have hblank : ∀ mt ∈ (init t ml il h s).mobileType, Blank mt ∧ Pointed mt := init_blank h s
  refine ⟨Valid.of_blank hblank (fun it hit => ?_) hair hairI, Valid.of_blank hblank (fun it hit => ?_) hair hairI⟩
  · obtain ⟨l, _, rfl⟩ := List.mem_map.1 hit
    rfl
  · obtain ⟨it', hit', rfl⟩ := List.mem_map.1 hit
    obtain ⟨l, _, rfl⟩ := List.mem_map.1 hit'
    rfl

theorem Buffer.Ok.rebuild (hnext : next.Ok g t) (hcur : cur.Ok g t) (h s : FloatVec) :
    (next.rebuild t cur.data h s).Ok g t := by
  refine Valid.of_blank (fun mt hmt => ?_) (fun it hit => ?_) (fun i m hs => hs) hnext.airI
  · obtain ⟨mt, _, prev, hprev, rfl⟩ := exists_of_mem_zipWith hmt
    exact ⟨calculations_blank fun _ => rfl, updateMobileType_pointed (hcur.pointed prev hprev)⟩
  · obtain ⟨it, _, prev, _, rfl⟩ := exists_of_mem_zipWith hit
    rfl

theorem Buffer.Ok.emptied_ask {q : Query} (h : b.Ok g t) (hown : b.Own g t q) :
    emptied (b.ask g t q).data = emptied b.data := (hown.valid_ask h).core

theorem Buffer.Ok.ask {q : Query} (h : b.Ok g t) (hown : b.Own g t q) : (b.ask g t q).Ok g t := by
  unfold Buffer.Ok
  rw [h.emptied_ask hown]
  exact hown.valid_ask h

theorem Run.ok {ok : Buffer → Query → Prop} (hok : ∀ b q, ok b q → b.Own g t q) (hrun : Run g t ml il ok cur next) :
    cur.Ok g t ∧ next.Ok g t := by
  induction hrun with
  | init h s => exact init_ok h s
  | ask q _ hq ih => exact ⟨ih.1.ask (hok _ q hq), ih.2⟩
  | askNext q _ hq ih => exact ⟨ih.1, ih.2.ask (hok _ q hq)⟩
  | update h s _ ih => exact ⟨ih.1, ih.2.rebuild ih.1 h s⟩
  | swap _ ih => exact ih.symm

/-- In every run of clean queries, a clean query answers as on the area data with all maps emptied. -/
theorem run_asEmptied (g : Metric) (t : Setup) (mobileType : List MoveLimits) (immobileType : List BuildLimits)
    (cur next : Buffer) (hrun : Run g t mobileType immobileType (Buffer.Clean g t) cur next) (q : Query)
    (hclean : cur.Clean g t q) : (q.ask g t cur.data).1 = (q.ask g t (emptied cur.data)).1 :=
  (hclean.asEmptied (hrun.ok fun _ _ => Buffer.Clean.own).1).answer

/-! ## An entry that outlives its map -/

def gridMetric : Metric where
  sqDistance2D p q := ((p.1 : ℚ) - q.1) * ((p.1 : ℚ) - q.1) + ((p.2 : ℚ) - q.2) * ((p.2 : ℚ) - q.2)
  distance2D p q := |(p.1 : ℚ) - q.1| + |(p.2 : ℚ) - q.2|
  fltMax := 340282346638528859811704183484516925440

def lake (column : ℕ → Bool) : FloatVec := fun iH => if column (iH % 14 / 2) then -50 else 10

def ashore : Query := .alternative none 6 (some 0)

def westward : Buffer := .new (CTerrainData.init Areas.strait [Areas.tank] [Areas.mill] (lake (3 ≤ ·)) 0).pAreaData

def westwardNext : Buffer := .new (CTerrainData.init Areas.strait [Areas.tank] [Areas.mill] (lake (3 ≤ ·)) 0).nextAreaData

def asked : Buffer := westward.ask gridMetric Areas.strait ashore

def moved : Buffer := westwardNext.rebuild Areas.strait asked.data (lake (· < 3)) 0

def movedBack : Buffer := asked.rebuild Areas.strait moved.data (lake (· < 3)) 0

/-- On the buffer of the first update the query finds no old entry. -/
theorem run_asEmptied_moved :
    moved.Clean gridMetric Areas.strait ashore ∧ (ashore.ask gridMetric Areas.strait moved.data).1 = some 6 ∧
    (ashore.ask gridMetric Areas.strait moved.data).1 = (ashore.ask gridMetric Areas.strait (emptied moved.data)).1 :=
  have hrun : Run gridMetric Areas.strait [Areas.tank] [Areas.mill] (Buffer.Clean gridMetric Areas.strait) moved asked :=
    .swap (.update _ _ (.ask ashore (.init _ _) rfl))
  ⟨rfl, by decide +kernel, run_asEmptied _ _ _ _ _ _ hrun ashore rfl⟩

theorem westward_run : Run gridMetric Areas.strait [Areas.tank] [Areas.mill] (fun _ _ => True) movedBack moved :=
  .swap (.update _ _ (.swap (.update _ _ (.ask ashore (.init _ _) trivial))))

/-- The query asked again answers with a sector that is under water now. -/
theorem stale_answer : Run gridMetric Areas.strait [Areas.tank] [Areas.mill] (fun _ _ => True) movedBack moved ∧
    (ashore.ask gridMetric Areas.strait movedBack.data).1 = some 2 ∧
    (ashore.ask gridMetric Areas.strait (emptied movedBack.data)).1 = some 6 :=
  ⟨westward_run, by decide +kernel, by decide +kernel⟩

end Circuit.Spec.SectorQueries
