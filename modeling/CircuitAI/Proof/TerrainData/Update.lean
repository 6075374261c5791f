import CircuitAI.Framework.Loop
import CircuitAI.Proof.TerrainData.Grouping
import CircuitAI.Proof.TerrainData.Scan

/-!
# An update is a recomputation

`Describes t mobileType immobileType heightMap slopeMap d`: the area data `d` says of the maps what `Init` would say, up
to the order of areas and the maps filled on demand. `Init` and each update establish it (`init_describes`,
`updateAreas_describes`), and two such data are the same (`Describes.same`). What carries the update is
`grouped_of_not_shouldRebuild`: when no changed sector enters or leaves an area, the usable sectors have only lost sectors
of minor components.
-/

namespace Circuit.Impl.TerrainData

open Framework Spec.Areas List

variable {t : Setup} {areas areas' : List (Finset ℕ)} {U : Finset ℕ} {i : ℕ}

/-! ## "Calculations" -/

variable {old : ℕ → STerrainMapSector}

theorem assignArea_cases (areas : List (Finset ℕ)) (i : ℕ) :
    (assignArea areas (fun _ => none) i = none ∧ ∀ C ∈ areas, i ∉ C) ∨
    ∃ k C, assignArea areas (fun _ => none) i = some k ∧ areas[k]? = some C ∧ i ∈ C := by
  have hloop : (assignArea areas (fun _ => none) i = none ∧ ∀ k < areas.length, i ∉ areas.getD k ∅) ∨
      ∃ k < areas.length, assignArea areas (fun _ => none) i = some k ∧ i ∈ areas.getD k ∅ :=
    foldl_overwrite_cases (fun k i => i ∈ areas.getD k ∅) some (fun _ => none) areas.length i
  rcases hloop with ⟨hnone, hall⟩ | ⟨k, hlt, hk, hik⟩
  · refine .inl ⟨hnone, fun C hC hiC => ?_⟩
    obtain ⟨k, hlt, rfl⟩ := getElem_of_mem hC
    exact hall k hlt (by rwa [getD_eq_getElem _ _ hlt])
  · refine .inr ⟨k, areas[k], hk, getElem?_eq_getElem hlt, ?_⟩
    rwa [getD_eq_getElem _ _ hlt] at hik

theorem assignArea_isSome : (assignArea areas (fun _ => none) i).isSome ↔ ∃ C ∈ areas, i ∈ C := by
  rcases assignArea_cases areas i with ⟨hnone, hall⟩ | ⟨k, C, hk, hC, hi⟩
  · rw [hnone]
    exact ⟨fun h => absurd h (by decide), fun ⟨C, hC, hi⟩ => absurd hi (hall C hC)⟩
  · rw [hk]
    exact ⟨fun _ => ⟨C, mem_of_getElem? hC, hi⟩, fun _ => rfl⟩

theorem findLargest_cases (t : Setup) (areas : List (Finset ℕ)) : (findLargest t areas = none ∧ areas = []) ∨
    ∃ k C, findLargest t areas = some k ∧ areas[k]? = some C ∧
      ∀ D ∈ areas, t.percentOfMap D.card ≤ t.percentOfMap C.card := by
  have hloop : (findLargest t areas = none ∧ areas.length = 0) ∨ ∃ k < areas.length, findLargest t areas = some k ∧
      ∀ j < areas.length, t.percentOfMap (areas.getD j ∅).card ≤ t.percentOfMap (areas.getD k ∅).card := by
    unfold findLargest
    refine foldl_range_inv
      (fun n r => (r = none ∧ n = 0) ∨ ∃ k < n, r = some k ∧
        ∀ j < n, t.percentOfMap (areas.getD j ∅).card ≤ t.percentOfMap (areas.getD k ∅).card)
      areas.length (.inl ⟨rfl, rfl⟩) fun n hn r h => ?_
    rcases h with ⟨rfl, rfl⟩ | ⟨b, hb, rfl, hmax⟩
    · refine .inr ⟨0, Nat.zero_lt_one, rfl, fun j hj => ?_⟩
      rw [Nat.lt_one_iff.1 hj]
    · dsimp only
      split
      · rename_i hlt
        refine .inr ⟨n, Nat.lt_succ_self n, rfl, fun j hj => ?_⟩
        rcases Nat.lt_succ_iff_lt_or_eq.1 hj with hj | rfl
        · exact (hmax j hj).trans hlt.le
        · exact le_rfl
      · rename_i hge
        refine .inr ⟨b, Nat.lt_succ_of_lt hb, rfl, fun j hj => ?_⟩
        rcases Nat.lt_succ_iff_lt_or_eq.1 hj with hj | rfl
        · exact hmax j hj
        · exact not_lt.1 hge
  refine hloop.imp (fun h => ⟨h.1, length_eq_zero_iff.1 h.2⟩) fun ⟨k, hlt, hk, hmax⟩ => ?_
  refine ⟨k, areas[k], hk, getElem?_eq_getElem hlt, fun D hD => ?_⟩
  obtain ⟨j, hj, rfl⟩ := getElem_of_mem hD
  have hjk := hmax j hj
  rwa [getD_eq_getElem _ _ hj, getD_eq_getElem _ _ hlt] at hjk

/-! ## What area data says of the maps -/

structure TypeDescribes (t : Setup) (U : Finset ℕ) (l : MoveLimits) (mt : STerrainMapMobileType) : Prop where
  limits : mt.toMoveLimits = l
  grouped : Grouped t U (mt.area.map (·.sector))
  areaUsable : ∀ area ∈ mt.area, area.areaUsable = decide (t.percentOfMap area.sector.card ≥ 20)
  assigned : ∀ i, (mt.sector i).area = assignArea (mt.area.map (·.sector)) (fun _ => none) i
  areaLargest : mt.areaLargest = findLargest t (mt.area.map (·.sector))

structure ImmobileDescribes (t : Setup) (scanned : ℕ → STerrainMapSector) (l : BuildLimits)
    (it : STerrainMapImmobileType) : Prop where
  limits : it.toBuildLimits = l
  sector : it.sector = usableSectors t l scanned
  typeUsable : it.typeUsable = immobileUsable t it.sector.card

structure Describes (t : Setup) (ml : List MoveLimits) (il : List BuildLimits) (h s : FloatVec) (d : SAreaData) :
    Prop where
  heightMap : d.heightMap = h
  sector : ∀ i < t.sectors, d.sector i = settle t (scan t h s i)
  percentLand : d.percentLand = mapPercentLand t h s
  immobileType : List.Forall₂ (ImmobileDescribes t fun i => settle t (scan t h s i)) il d.immobileType
  mobileType : List.Forall₂ (fun l => TypeDescribes t (usable t l h s) l) ml d.mobileType

theorem calculations_describes (mt : STerrainMapMobileType) (hmt : ∀ i, (mt.sector i).area = none)
    (hgrouped : Grouped t U areas) : TypeDescribes t U mt.toMoveLimits (calculations t mt areas) := by
  have harea : (calculations t mt areas).area.map (·.sector) = areas := by
    show (areas.map (newArea t)).map (·.sector) = areas
    rw [map_map]
    exact map_id areas
  refine ⟨rfl, harea.symm ▸ hgrouped, fun area ha => ?_, fun i => ?_, ?_⟩
  · obtain ⟨C, _, rfl⟩ := mem_map.1 ha
    rfl
  · rw [harea]
    show assignArea areas (fun i => (mt.sector i).area) i = _
    rw [funext hmt]
  · rw [harea]
    rfl

/-! ## Two data that describe the same maps -/

section Same

variable {l : MoveLimits} {mt mt' : STerrainMapMobileType}

theorem TypeDescribes.hasArea (h : TypeDescribes t U l mt) (C : Finset ℕ) (u : Bool) :
    HasArea mt C u ↔ Major t U C ∧ u = decide (t.percentOfMap C.card ≥ 20) := by
  rw [← h.grouped.2 C, mem_map]
  constructor
  · rintro ⟨area, ha, rfl, rfl⟩
    exact ⟨⟨area, ha, rfl⟩, h.areaUsable area ha⟩
  · rintro ⟨⟨area, ha, rfl⟩, rfl⟩
    exact ⟨area, ha, rfl, h.areaUsable area ha⟩

theorem TypeDescribes.areaOf_eq_some (h : TypeDescribes t U l mt) (i : ℕ) (C : Finset ℕ) :
    areaOf mt i = some C ↔ Major t U C ∧ i ∈ C := by
  unfold areaOf
  rw [h.assigned i, ← h.grouped.2 C]
  simp only [← getElem?_map]
  rcases assignArea_cases (mt.area.map (·.sector)) i with ⟨hnone, hall⟩ | ⟨k, D, hk, hD, hi⟩
  · rw [hnone]
    exact ⟨fun he => (Option.some_ne_none C he.symm).elim, fun ⟨hC, hiC⟩ => absurd hiC (hall C hC)⟩
  · have hDmem := mem_of_getElem? hD
    rw [hk, Option.bind_some, hD, Option.some_inj]
    constructor
    · rintro rfl
      exact ⟨hDmem, hi⟩
    · rintro ⟨hC, hiC⟩
      exact ((h.grouped.2 D).1 hDmem).1.eq_of_mem ((h.grouped.2 C).1 hC).1 hi hiC

theorem percentOfMap_le_iff {m n : ℕ} (ht : 0 < t.sectors) : t.percentOfMap m ≤ t.percentOfMap n ↔ m ≤ n := by
  refine ⟨fun h => ?_, percentOfMap_mono⟩
  have hpos : (0 : ℚ) < t.sectors := Nat.cast_pos.2 ht
  unfold Setup.percentOfMap at h
  rw [div_le_div_iff_of_pos_right hpos, mul_le_mul_iff_right₀ (by norm_num)] at h
  exact Nat.cast_le.1 h

theorem TypeDescribes.largest (h : TypeDescribes t U l mt) (hU : U ⊆ Finset.range t.sectors) : Largest mt := by
  unfold Largest
  rw [h.areaLargest]
  rcases findLargest_cases t (mt.area.map (·.sector)) with ⟨hnone, hnil⟩ | ⟨k, C, hk, hC, hmax⟩
  · rw [hnone]
    exact map_eq_nil_iff.1 hnil
  · rw [hk]
    rw [getElem?_map, Option.map_eq_some_iff] at hC
    obtain ⟨area, harea, rfl⟩ := hC
    refine ⟨area, harea, fun other hother => ?_⟩
    -- there is a sector, since there is an area
    have hmem := mem_map_of_mem (f := (·.sector)) (mem_of_getElem? harea)
    obtain ⟨a, ha⟩ := ((h.grouped.2 _).1 hmem).1.nonempty
    have ht := Finset.mem_range.1 (hU (((h.grouped.2 _).1 hmem).1.subset ha))
    exact (percentOfMap_le_iff (Nat.zero_lt_of_lt ht)).1 (hmax _ (mem_map_of_mem hother))

theorem TypeDescribes.same (hU : U ⊆ Finset.range t.sectors) (h : TypeDescribes t U l mt)
    (h' : TypeDescribes t U l mt') : SameAreas t mt mt' where
  limits := h.limits.trans h'.limits.symm
  area C u := by rw [h.hasArea, h'.hasArea]
  assigned i _ := Option.ext fun C => by rw [h.areaOf_eq_some, h'.areaOf_eq_some]
  largest := ⟨h.largest hU, h'.largest hU⟩

theorem Describes.same {ml : List MoveLimits} {il : List BuildLimits} {h s : FloatVec} {d d' : SAreaData}
    (hd : Describes t ml il h s d) (hd' : Describes t ml il h s d') : Same t d d' where
  sector i hi := (hd.sector i hi).trans (hd'.sector i hi).symm
  percentLand := hd.percentLand.trans hd'.percentLand.symm
  immobileType := forall₂_join hd.immobileType hd'.immobileType fun l it it' hit hit' => by
    have hsector := hit.sector.trans hit'.sector.symm
    exact ⟨hit.limits.trans hit'.limits.symm, hsector, by rw [hit.typeUsable, hit'.typeUsable, hsector]⟩
  mobileType := forall₂_join hd.mobileType hd'.mobileType fun l mt mt' hmt hmt' =>
    hmt.same (Finset.filter_subset _ _) hmt'

end Same

/-! ## One type through an update -/

variable {changed : ℕ → Bool} {scanned sector : ℕ → STerrainMapSector}

theorem updateImmobileType_describes {l : BuildLimits}
    {it prev : STerrainMapImmobileType} (hit : it.toBuildLimits = l) (hprev : ImmobileDescribes t old l prev)
    (hsector : ∀ i < t.sectors, sector i = scanned i) (hold : ∀ i < t.sectors, changed i = false → scanned i = old i) :
    ImmobileDescribes t scanned l (updateImmobileType t changed sector it prev) := by
  -- before turn `n` the sectors from `n` on are judged by their old scan
  have hloop : ∀ i, i ∈ (updateImmobileType t changed sector it prev).sector ↔
      i < t.sectors ∧ l.usable t (if i < t.sectors then sector i else old i) := by
    unfold updateImmobileType
    refine foldl_range_inv
      (fun n (S : Finset ℕ) => ∀ i, i ∈ S ↔ i < t.sectors ∧ l.usable t (if i < n then sector i else old i))
      t.sectors (fun i => ?_) fun n hn S hS i => ?_
    · rw [hprev.sector, usableSectors, Finset.mem_filter, Finset.mem_range, if_neg (Nat.not_lt_zero i)]
    · have hturn : (if i < n + 1 then sector i else old i) = if i = n then sector n else
          if i < n then sector i else old i := by
        split_ifs <;> first | omega | simp_all
      rw [hturn, hit]
      by_cases hin : i = n
      · subst hin
        have hnow := hS i
        rw [if_neg (Nat.lt_irrefl i)] at hnow
        rw [if_pos rfl]
        cases hc : changed i with
        | true => by_cases hu : l.usable t (sector i) <;> simp [hu, hn]
        | false => rw [if_neg (by simp), hnow, hsector i hn, hold i hn hc]
      · rw [if_neg hin, ← hS i]
        split_ifs <;> simp [hin]
  refine ⟨hit, ?_, rfl⟩
  ext i
  rw [hloop i, usableSectors, Finset.mem_filter, Finset.mem_range]
  exact and_congr_right fun hi => by rw [if_pos hi, hsector i hi]

theorem grouped_of_not_shouldRebuild {l : MoveLimits} {prev : STerrainMapMobileType}
    (hprev : TypeDescribes t ((Finset.range t.sectors).filter fun i => l.usable t (old i)) l prev)
    (hsector : ∀ i < t.sectors, sector i = scanned i) (hold : ∀ i < t.sectors, changed i = false → scanned i = old i)
    (hno : shouldRebuild t changed sector prev = false) :
    Grouped t ((Finset.range t.sectors).filter fun i => l.usable t (scanned i)) (prev.area.map (·.sector)) := by
  -- a changed sector can be used if and only if it lies in an area
  have hchanged : ∀ i < t.sectors, changed i → (l.usable t (scanned i) ↔ ∃ C ∈ prev.area.map (·.sector), i ∈ C) := by
    intro i hi hc
    have hi' := any_eq_false.1 hno i (mem_range.2 hi)
    rw [hc, Bool.true_and, hprev.limits, hsector i hi, hprev.assigned i] at hi'
    rw [← assignArea_isSome, Option.isSome_iff_ne_none]
    cases hu : l.usable t (scanned i) <;> simp_all
  have hsub : ((Finset.range t.sectors).filter fun i => l.usable t (scanned i)) ⊆
      (Finset.range t.sectors).filter fun i => l.usable t (old i) := by
    intro i hi
    obtain ⟨hi, hu⟩ := Finset.mem_filter.1 hi
    have hlt := Finset.mem_range.1 hi
    cases hc : changed i with
    | true =>
      obtain ⟨C, hC, hiC⟩ := (hchanged i hlt hc).1 hu
      exact ((hprev.grouped.2 C).1 hC).1.subset hiC
    | false => exact Finset.mem_filter.2 ⟨hi, by rwa [← hold i hlt hc]⟩
  refine ⟨hprev.grouped.1, fun C => (hprev.grouped.2 C).trans ?_⟩
  refine (qualifying_congr (Q := fun C => isMinor t C = false) (fun C D hCD hC => ?_) hsub
    (fun C hC hq i hiC => ?_) C).symm
  · rw [← Bool.not_eq_true] at hC ⊢
    exact fun hD => hC (isMinor_mono (Finset.card_le_card hCD) hD)
  · -- a sector of an area can still be used
    obtain ⟨hi, hu⟩ := Finset.mem_filter.1 (hC.subset hiC)
    have hlt := Finset.mem_range.1 hi
    refine Finset.mem_filter.2 ⟨hi, ?_⟩
    cases hc : changed i with
    | true => exact (hchanged i hlt hc).2 ⟨C, (hprev.grouped.2 C).2 ⟨hC, hq⟩, hiC⟩
    | false => rwa [hold i hlt hc]

theorem updateMobileType_describes {l : MoveLimits} {mt prev : STerrainMapMobileType} (hmt : mt.toMoveLimits = l)
    (hprev : TypeDescribes t ((Finset.range t.sectors).filter fun i => l.usable t (old i)) l prev)
    (hsector : ∀ i < t.sectors, sector i = scanned i) (hold : ∀ i < t.sectors, changed i = false → scanned i = old i)
    (hfew : Few t ((Finset.range t.sectors).filter fun i => l.usable t (scanned i))) :
    TypeDescribes t ((Finset.range t.sectors).filter fun i => l.usable t (scanned i)) l
      (updateMobileType t changed sector mt prev) := by
  have hsame : ((Finset.range t.sectors).filter fun i => l.usable t (scanned i)) =
      (Finset.range t.sectors).filter fun i => l.usable t (sector i) :=
    Finset.filter_congr fun i hi => by rw [hsector i (Finset.mem_range.1 hi)]
  subst hmt
  refine calculations_describes { mt with sector := fun _ => .new, area := [], areaLargest := none }
    (fun i => rfl) ?_
  cases hre : shouldRebuild t changed sector prev with
  | true =>
    rw [if_pos rfl]
    rw [hsame] at hfew ⊢
    exact groupSectors_ok hfew
  | false =>
    rw [if_neg (by decide)]
    exact grouped_of_not_shouldRebuild hprev hsector hold hre

/-! ## The whole data -/

section Run

variable {ml : List MoveLimits} {il : List BuildLimits} {h s h' s' : FloatVec} {d next prev : SAreaData}

structure Typed (ml : List MoveLimits) (il : List BuildLimits) (d : SAreaData) : Prop where
  mobileType : List.Forall₂ (fun l mt => mt.toMoveLimits = l) ml d.mobileType
  immobileType : List.Forall₂ (fun l it => it.toBuildLimits = l) il d.immobileType

theorem Describes.typed (hd : Describes t ml il h s d) : Typed ml il d where
  mobileType := hd.mobileType.imp fun _ _ hmt => hmt.limits
  immobileType := hd.immobileType.imp fun _ _ hit => hit.limits

theorem Typed.duplicate (hd : Typed ml il d) : Typed ml il (duplicate t d) where
  mobileType := hd.mobileType
  immobileType := forall₂_map_right_iff.2 hd.immobileType

theorem init_describes (hfew : ∀ l ∈ ml, Few t (usable t l h s)) : Describes t ml il h s (init t ml il h s) where
  heightMap := rfl
  sector _ _ := rfl
  percentLand := rfl
  immobileType := forall₂_map_right_iff.2 (forall₂_same.2 fun _ _ => ⟨rfl, rfl, rfl⟩)
  mobileType := forall₂_map_right_iff.2 (forall₂_same.2 fun l hl =>
    calculations_describes { l with typeUsable := false, sector := fun _ => .new, area := [], areaLargest := none }
      (fun _ => rfl) (groupSectors_ok (hfew l hl)))

theorem updateAreas_describes (hprev : Describes t ml il h s prev) (hnext : Typed ml il next)
    (hheight : next.heightMap = h') (hkept : SlopesKept t h s h' s') (hfew : ∀ l ∈ ml, Few t (usable t l h' s')) :
    Describes t ml il h' s' (updateAreas t s' next prev) := by
  have hold : ∀ i < t.sectors, isSectorHeightChanged t h' h i = false →
      settle t (scan t h' s' i) = settle t (scan t h s i) := fun i hi hc => by
    rw [scan_of_not_changed hkept hi hc]
  have hsector : ∀ i < t.sectors, updateSector t h' s' prev i = settle t (scan t h' s' i) := by
    intro i hi
    unfold updateSector
    rw [hprev.heightMap]
    cases hc : isSectorHeightChanged t h' h i with
    | true => rw [if_pos rfl]
    | false => rw [if_neg (by decide), hprev.sector i hi, hold i hi hc]
  subst hheight
  obtain rfl := hprev.heightMap
  refine ⟨rfl, hsector, ?_, ?_, ?_⟩
  · show updatePercentLand t next.heightMap s' prev * 100 / t.heightCount = _
    rw [updatePercentLand_eq hprev.heightMap hprev.sector hprev.percentLand, mapPercentLand_eq, mul_div_assoc]
  · refine forall₂_zipWith hnext.immobileType hprev.immobileType fun l _ it pit hit hpit => ?_
    exact updateImmobileType_describes hit hpit hsector hold
  · refine forall₂_zipWith hnext.mobileType hprev.mobileType fun l hl mt pmt hmt hpmt => ?_
    exact updateMobileType_describes hmt hpmt hsector hold (hfew l hl)

end Run

end Circuit.Impl.TerrainData

namespace Circuit.Spec.Areas

open Impl.TerrainData

theorem Updates.describes {t : Setup} {ml : List MoveLimits} {il : List BuildLimits} {d : CTerrainData}
    {h s : FloatVec} (hrun : Updates t ml il d h s) :
    Describes t ml il h s d.pAreaData ∧ Typed ml il d.nextAreaData := by
  induction hrun with
  | init h s hfew =>
    have hinit : Describes t ml il h s (Impl.TerrainData.init t ml il h s) := init_describes hfew
    exact ⟨hinit, hinit.typed.duplicate⟩
  | update h' s' _ hkept hfew ih =>
    exact ⟨updateAreas_describes ih.1 ⟨ih.2.mobileType, ih.2.immobileType⟩ rfl hkept hfew, ih.1.typed⟩

theorem Updates.few {t : Setup} {ml : List MoveLimits} {il : List BuildLimits} {d : CTerrainData}
    {h s : FloatVec} (hrun : Updates t ml il d h s) : ∀ l ∈ ml, Few t (usable t l h s) := by
  cases hrun with
  | init _ _ hfew => exact hfew
  | update _ _ _ _ hfew => exact hfew

/-- After `Init` and after every update the area data in use says of the map what `Init` on the current height
and slope maps says. -/
theorem updateAreas_run_ok (t : Setup) (mobileType : List MoveLimits) (immobileType : List BuildLimits)
    (d : CTerrainData) (heightMap slopeMap : FloatVec) (hrun : Updates t mobileType immobileType d heightMap slopeMap) :
    Same t d.pAreaData (init t mobileType immobileType heightMap slopeMap) :=
  hrun.describes.1.same (init_describes hrun.few)

/-! ## A channel is dug and filled again -/

theorem smallestSide : 16 ≤ 16 := Nat.le_refl 16

def strait : Setup := ⟨7, 3, 16, false, false, smallestSide⟩

def dug (height : ℚ) : FloatVec := fun iH => if iH % 14 / 2 = 3 then height else 10

def tank : MoveLimits := ⟨1 / 2, 10000, -10, false, false⟩

def mill : BuildLimits := ⟨0, 10000, false, false⟩

def straitRun : CTerrainData :=
  ((((CTerrainData.init strait [tank] [mill] (dug 10) 0).update strait (dug (-50)) 0).swap).update strait (dug 10) 0).swap

theorem straitRun_updates : Updates strait [tank] [mill] straitRun (dug 10) 0 := by
  have hfew : ∀ h, ∀ l ∈ [tank], Few strait (usable strait l h 0) := fun h l _ =>
    few_of_card (lt_of_le_of_lt (Finset.card_le_card (Finset.filter_subset _ _)) (by decide))
  have hkept : ∀ h h', SlopesKept strait h 0 h' 0 := fun _ _ _ _ _ _ _ => rfl
  exact .update _ _ (.update _ _ (.init _ _ (hfew _)) (hkept _ _) (hfew _)) (hkept _ _) (hfew _)

theorem updateAreas_run_ok_strait :
    (straitRun.nextAreaData.mobileType.map fun mt => mt.area.map (·.sector.card)) = [[9, 9]] ∧
    (straitRun.pAreaData.mobileType.map fun mt => mt.area.map (·.sector.card)) = [[21]] ∧
    Same strait straitRun.pAreaData (init strait [tank] [mill] (dug 10) 0) :=
  ⟨by decide +kernel, by decide +kernel, updateAreas_run_ok _ _ _ _ _ _ straitRun_updates⟩

end Circuit.Spec.Areas
