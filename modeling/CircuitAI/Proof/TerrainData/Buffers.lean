import CircuitAI.Proof.TerrainData.Update
import CircuitAI.Spec.AreaBuffers

/-!
# The pointers of the two buffers

* `relinkSectors_cases`, `relinkLargest_cases`: what the loops of "Duplicate areaData" write;
* `relinkMobileType_within`: a type whose sectors point to nothing but their areas is relinked into its buffer;
* `duplicate_within`: so is the copy of what `Init` computes;
* `init_areas`: the areas of both buffers.
-/

namespace Circuit.Spec.AreaBuffers

open Impl.AreaPointers Framework Spec.Areas List
open Impl.TerrainData (Setup MoveLimits BuildLimits STerrainMapSector groupSectors_ok few_of_card assignArea
  assignArea_cases findLargest_cases calculations newArea initMobileType)

variable {t : Setup} {b b' : Buffer} {j i : ℕ} {areas : List STerrainMapArea} {mt : STerrainMapMobileType}

/-! ## The loops -/

theorem relinkSectors_cases (b : Buffer) (j : ℕ) (areas : List STerrainMapArea) (area : ℕ → Option AreaPtr) (i : ℕ) :
    (relinkSectors b j areas area i = area i ∧ ∀ a ∈ areas, i ∉ a.sector.keys) ∨
      ∃ k a, relinkSectors b j areas area i = some ⟨b, j, k⟩ ∧ areas[k]? = some a ∧ i ∈ a.sector.keys := by
  rcases foldl_overwrite_cases (fun k i => areas[k]?.any (i ∈ ·.sector.keys) = true) (fun k => some ⟨b, j, k⟩) area
    areas.length i with ⟨hsame, hall⟩ | ⟨k, hk, hset, hit⟩
  · refine .inl ⟨hsame, fun a ha hi => ?_⟩
    obtain ⟨k, hk, rfl⟩ := getElem_of_mem ha
    refine hall k hk ?_
    rw [getElem?_eq_getElem hk]
    exact decide_eq_true hi
  · rw [getElem?_eq_getElem hk] at hit
    exact .inr ⟨k, areas[k], hset, getElem?_eq_getElem hk, of_decide_eq_true hit⟩

theorem relinkLargest_cases {p : AreaPtr} (h : relinkLargest b j areas = some p) :
    p.buffer = b ∧ p.type = j ∧ p.index < areas.length := by
  have hloop : ∀ p, relinkLargest b j areas = some p → p.buffer = b ∧ p.type = j ∧ p.index < areas.length := by
    refine foldl_range_inv (fun n (q : Option AreaPtr) => ∀ p, q = some p → p.buffer = b ∧ p.type = j ∧ p.index < n) areas.length
      (fun p hp => by cases hp) fun k hk q hq p hp => ?_
    cases q with
    | none =>
      cases hp
      exact ⟨rfl, rfl, Nat.lt_succ_self k⟩
    | some q =>
      dsimp only at hp
      split at hp
      · cases hp
        exact ⟨rfl, rfl, Nat.lt_succ_self k⟩
      · obtain ⟨hb, hj, hlt⟩ := hq p hp
        exact ⟨hb, hj, Nat.lt_succ_of_lt hlt⟩
  exact hloop p h

theorem relinkImmobileType_cases {sector : ℕ → STerrainMapSector} {it : STerrainMapImmobileType} {p : SectorPtr}
    (h : (relinkImmobileType t b sector it).sector.ptr i = some p) :
    p = ⟨b, i⟩ ∨ (it.sector.ptr i = some p ∧ ¬ (i < t.sectors ∧ it.usable t (sector i) = true)) := by
  have hloop := foldl_range_inv
    (f := fun (m : PtrMap SectorPtr) k => if it.usable t (sector k) then m.insert k ⟨b, k⟩ else m)
    (b := it.sector)
    (fun n m => ∀ p, m.ptr i = some p →
      p = ⟨b, i⟩ ∨ (it.sector.ptr i = some p ∧ ¬ (i < n ∧ it.usable t (sector i) = true)))
    t.sectors (fun p hp => .inr ⟨hp, fun hi => absurd hi.1 (Nat.not_lt_zero i)⟩) fun k hk m hm p hp => ?_
  · exact hloop p h
  · split at hp
    · by_cases hik : i = k
      · subst hik
        rw [PtrMap.insert_ptr_self] at hp
        exact .inl (Option.some.inj hp).symm
      · rw [PtrMap.insert_ptr_of_ne hik] at hp
        exact (hm p hp).imp_right fun ⟨hit, hn⟩ => ⟨hit, fun hi => hn ⟨by omega, hi.2⟩⟩
    · rename_i hu
      refine (hm p hp).imp_right fun ⟨hit, hn⟩ => ⟨hit, fun hi => ?_⟩
      by_cases hik : i = k
      · exact hu (hik ▸ hi.2)
      · exact hn ⟨by omega, hi.2⟩

/-! ## One type -/

theorem contents_relink (mt : STerrainMapMobileType) : contents (relinkMobileType t b j mt) = contents mt := by
  simp only [contents, relinkMobileType, map_map]
  rfl

theorem relinkMobileType_within (b : Buffer) (h : ∀ i < t.sectors, NamesArea b' j mt i) :
    TypeWithin t b j (relinkMobileType t b j mt) where
  global i hi := if_pos hi
  area i hi := by
    have hsec : ((relinkMobileType t b j mt).sector i).area =
        relinkSectors b j mt.area (fun i => (mt.sector i).area) i := rfl
    rw [NamesArea, hsec]
    rcases relinkSectors_cases b j mt.area (fun i => (mt.sector i).area) i with ⟨hsame, hnone⟩ | ⟨k, a, hk, ha, hi'⟩
    · -- no area has the sector, so that it pointed to none
      have hold : (mt.sector i).area = none := by
        have hnames := h i hi
        rw [NamesArea] at hnames
        split at hnames
        · assumption
        · obtain ⟨-, -, a, ha, hia⟩ := hnames
          exact absurd hia (hnone a (mem_of_getElem? ha))
      rw [hsame, hold]
      intro a ha
      obtain ⟨a', ha', rfl⟩ := List.mem_map.1 ha
      exact hnone a' ha'
    · rw [hk]
      refine ⟨rfl, rfl, relinkArea b j a, ?_, hi'⟩
      show (mt.area.map (relinkArea b j))[k]? = _
      rw [getElem?_map, ha]
      rfl
  mobileType a ha := by
    obtain ⟨a', -, rfl⟩ := List.mem_map.1 ha
    rfl
  sector a ha i hi := by
    obtain ⟨a', -, rfl⟩ := List.mem_map.1 ha
    exact if_pos hi
  areaLargest p hp := by
    obtain ⟨hb, hj, hlt⟩ := relinkLargest_cases hp
    exact ⟨hb, hj, hlt.trans_eq (length_map _).symm⟩

/-! ## What `Init` computes -/

variable {sector : ℕ → STerrainMapSector} {l : MoveLimits}

theorem keys_placeMobileType (b : Buffer) (j : ℕ) (mt : Impl.TerrainData.STerrainMapMobileType) :
    (placeMobileType b j mt).area.map (·.sector.keys) = mt.area.map (·.sector) := by
  simp only [placeMobileType, map_map]
  rfl

theorem area_initMobileType (sector : ℕ → STerrainMapSector) (l : MoveLimits) :
    (initMobileType t sector l).area.map (·.sector) =
      Impl.TerrainData.groupSectors t fun i => l.usable t (sector i) := by
  show (map (newArea t) _).map (·.sector) = _
  rw [map_map]
  exact map_id _

theorem init_namesArea (b : Buffer) (j : ℕ) (sector : ℕ → STerrainMapSector) (l : MoveLimits) (i : ℕ) :
    NamesArea b j (placeMobileType b j (initMobileType t sector l)) i := by
  have hsec : ((placeMobileType b j (initMobileType t sector l)).sector i).area =
      (assignArea ((initMobileType t sector l).area.map (·.sector)) (fun _ => none) i).map fun k => ⟨b, j, k⟩ := by
    rw [area_initMobileType]
    rfl
  rw [NamesArea, hsec]
  rcases assignArea_cases ((initMobileType t sector l).area.map (·.sector)) i with ⟨hn, hall⟩ | ⟨k, C, hk, hC, hi⟩
  · rw [hn]
    intro a ha
    obtain ⟨a', ha', rfl⟩ := List.mem_map.1 ha
    exact hall _ (List.mem_map_of_mem ha')
  · rw [hk]
    rw [getElem?_map] at hC
    obtain ⟨a, ha, rfl⟩ := Option.map_eq_some_iff.1 hC
    refine ⟨rfl, rfl, placeArea b j a, ?_, hi⟩
    show ((initMobileType t sector l).area.map (placeArea b j))[k]? = _
    rw [getElem?_map, ha]
    rfl

theorem mobileType_duplicate (t : Setup) (b b' : Buffer) (sector : ℕ → STerrainMapSector) {ml : List MoveLimits}
    (il : List BuildLimits) (hl : ml[j]? = some l) :
    (init t b sector ml il).mobileType[j]? = some (placeMobileType b j (initMobileType t sector l)) ∧
      (duplicate t b' (init t b sector ml il)).mobileType[j]? =
        some (relinkMobileType t b' j (placeMobileType b j (initMobileType t sector l))) := by
  have hfirst : (init t b sector ml il).mobileType[j]? = some (placeMobileType b j (initMobileType t sector l)) := by
    simp only [init, getElem?_mapIdx, hl, Option.map_some]
  refine ⟨hfirst, ?_⟩
  simp only [duplicate, getElem?_mapIdx, hfirst, Option.map_some]

theorem duplicate_within (t : Setup) (b b' : Buffer) (sector : ℕ → STerrainMapSector) (ml : List MoveLimits)
    (il : List BuildLimits) : Within t b' (duplicate t b' (init t b sector ml il)) where
  mobileType j mt hmt := by
    have hlt : j < ml.length := by
      have := (List.getElem?_eq_some_iff.1 hmt).1
      simpa [duplicate, init] using this
    rw [(mobileType_duplicate t b b' sector il (getElem?_eq_getElem hlt)).2] at hmt
    cases hmt
    exact relinkMobileType_within b' fun i _ => init_namesArea b j sector ml[j] i
  immobileType it hit i p hp := by
    obtain ⟨it', hit', rfl⟩ := List.mem_map.1 hit
    obtain ⟨l, -, rfl⟩ := List.mem_map.1 hit'
    rcases relinkImmobileType_cases hp with hp | ⟨hold, hn⟩
    · exact hp
    · -- the sectors of the type are those it can use
      have hkey := ((placeImmobileType b (Impl.TerrainData.initImmobileType t sector l)).sector.isSome_ptr i).1
        (by rw [hold]; rfl)
      have hmem := Finset.mem_filter.1 hkey
      exact absurd ⟨Finset.mem_range.1 hmem.1, hmem.2⟩ hn
  air i hi := by
    simp only [duplicate, init, if_pos hi]

/-- After `Init`, the areas of a type that has fewer components to keep than the list may have are these components, a
sector points to the area it is in, an area is usable if it takes a fifth of the map, and the second buffer has the same
areas and no pointer out of itself. -/
theorem init_areas (t : Setup) (b b' : Buffer) (sector : ℕ → STerrainMapSector) (ml : List MoveLimits)
    (il : List BuildLimits) {j : ℕ} {l : MoveLimits} (hl : ml[j]? = some l)
    (hfew : Few t ((Finset.range t.sectors).filter fun i => l.usable t (sector i))) :
    ∃ mt mt', (init t b sector ml il).mobileType[j]? = some mt ∧
      (duplicate t b' (init t b sector ml il)).mobileType[j]? = some mt' ∧
      Grouped t ((Finset.range t.sectors).filter fun i => l.usable t (sector i)) (mt.area.map (·.sector.keys)) ∧
      (∀ i < t.sectors, NamesArea b j mt i) ∧
      (∀ area ∈ mt.area, area.areaUsable = true ↔ 20 ≤ t.percentOfMap area.sector.keys.card) ∧
      contents mt' = contents mt ∧ Within t b' (duplicate t b' (init t b sector ml il)) := by
  obtain ⟨hfirst, hsecond⟩ := mobileType_duplicate t b b' sector il hl
  refine ⟨_, _, hfirst, hsecond, ?_, fun i _ => init_namesArea b j sector l i, fun area ha => ?_, contents_relink _,
    duplicate_within t b b' sector ml il⟩
  · rw [keys_placeMobileType, area_initMobileType]
    exact groupSectors_ok hfew
  · obtain ⟨a, ha', rfl⟩ := List.mem_map.1 ha
    obtain ⟨C, -, rfl⟩ := List.mem_map.1 ha'
    exact decide_eq_true_iff

theorem init_areas_flat : ∃ (t : Setup) (sector : ℕ → STerrainMapSector) (l : MoveLimits) (mt mt' : STerrainMapMobileType),
    t.sectors = 9 ∧ ((Finset.range t.sectors).filter fun i => l.usable t (sector i)) = Finset.range 9 ∧
      (init t .areaData0 sector [l] []).mobileType[0]? = some mt ∧
      (duplicate t .areaData1 (init t .areaData0 sector [l] [])).mobileType[0]? = some mt' ∧
      Grouped t ((Finset.range t.sectors).filter fun i => l.usable t (sector i)) (mt.area.map (·.sector.keys)) ∧
      (∀ i < t.sectors, NamesArea .areaData0 0 mt i) ∧
      (∀ area ∈ mt.area, area.areaUsable = true ↔ 20 ≤ t.percentOfMap area.sector.keys.card) ∧
      contents mt' = contents mt ∧ Within t .areaData1 (duplicate t .areaData1 (init t .areaData0 sector [l] [])) := by
  let t : Setup := ⟨3, 3, 16, false, false, by decide⟩
  let sector : ℕ → STerrainMapSector := fun _ => ⟨false, 100, 0, 0, 0⟩
  let l : MoveLimits := ⟨1, 10, -10, false, false⟩
  have hall : ((Finset.range t.sectors).filter fun i => l.usable t (sector i)) = Finset.range 9 := by decide +kernel
  obtain ⟨mt, mt', h⟩ := init_areas t .areaData0 .areaData1 sector [l] [] (show [l][0]? = some l from rfl)
    (few_of_card (by rw [hall]; decide))
  exact ⟨t, sector, l, mt, mt', by decide, hall, h⟩

end Circuit.Spec.AreaBuffers
