import CircuitAI.Proof.TerrainData.Update

/-!
# Areas of a type do not overlap

However many areas there are, the areas of a mobile type are disjoint and each of their sectors points to its
area (`Pointed`). `init` and `updateAreas` make it so, whether areas are found again or taken over.
-/

namespace Circuit.Impl.TerrainData

open Framework Spec.Areas Finset

variable {t : Setup} {mt : STerrainMapMobileType}

namespace Grouping

variable {g : Grouping}

structure Apart (g : Grouping) : Prop where
  area : g.area.Pairwise Disjoint
  remaining : ∀ C ∈ g.area, Disjoint C g.sectorsRemaining
  search : ∀ i ∈ g.sectorSearch, i ∉ g.sectorsRemaining ∧ ∀ C ∈ g.area.dropLast, i ∉ C

theorem Apart.expand (h : Apart g) {i : ℕ} {rest : List ℕ} (hg : g.sectorSearch = i :: rest) : Apart (g.expand t i) := by
  obtain ⟨found, hsearch, hfound, hrem, -, harea, -⟩ :=
    foldl_visit (t.neighbours i) { g with area := addToBack i g.area }
  have harea' : (g.expand t i).area = addToBack i g.area := harea
  have hrem' : ∀ a, a ∈ (g.expand t i).sectorsRemaining ↔ a ∈ g.sectorsRemaining ∧ a ∉ t.neighbours i := hrem
  have hsearch' : ∀ j, j ∈ (g.expand t i).sectorSearch ↔ j ∈ rest ∨ j ∈ t.neighbours i ∧ j ∈ g.sectorsRemaining := by
    intro j
    show j ∈ ((t.neighbours i).foldl visit _).sectorSearch.tail ↔ _
    rw [hsearch, hg, List.cons_append, List.tail_cons, List.mem_append, hfound]
  have hi := h.search i (by rw [hg]; exact List.mem_cons_self)
  have hrest : ∀ j ∈ rest, j ∉ g.sectorsRemaining ∧ ∀ C ∈ g.area.dropLast, j ∉ C := fun j hj =>
    h.search j (by rw [hg]; exact List.mem_cons_of_mem i hj)
  have hsub : ∀ C, Disjoint C g.sectorsRemaining → Disjoint C (g.expand t i).sectorsRemaining := fun C hC =>
    hC.mono_right fun a ha => ((hrem' a).1 ha).1
  have hout : ∀ j ∈ (g.expand t i).sectorSearch, j ∉ (g.expand t i).sectorsRemaining := by
    intro j hj
    rw [hrem']
    rcases (hsearch' j).1 hj with hj | hj
    · exact fun hr => (hrest j hj).1 hr.1
    · exact fun hr => hr.2 hj.1
  rcases List.eq_nil_or_concat g.area with hnil | ⟨done, cur, hcat⟩
  · have hnil' : (g.expand t i).area = [] := by rw [harea', hnil, addToBack]
    refine ⟨by rw [hnil']; exact .nil, fun C hC => ?_, fun j hj => ⟨hout j hj, fun C hC => ?_⟩⟩
    · rw [hnil'] at hC
      exact absurd hC List.not_mem_nil
    · rw [hnil'] at hC
      exact absurd hC List.not_mem_nil
  · rw [List.concat_eq_append] at hcat
    have hcat' : (g.expand t i).area = done ++ [insert i cur] := by rw [harea', hcat, addToBack_concat]
    have hpair := h.area
    rw [hcat, List.pairwise_append] at hpair
    have hdrop : g.area.dropLast = done := by rw [hcat, List.dropLast_concat]
    have hdone : ∀ C ∈ done, Disjoint C g.sectorsRemaining := fun C hC =>
      h.remaining C (by rw [hcat]; exact List.mem_append_left _ hC)
    rw [hdrop] at hi hrest
    refine ⟨?_, ?_, fun j hj => ⟨hout j hj, ?_⟩⟩
    · rw [hcat', List.pairwise_append]
      refine ⟨hpair.1, List.pairwise_singleton _ _, fun C hC D hD => ?_⟩
      rw [List.mem_singleton.1 hD, disjoint_insert_right]
      exact ⟨hi.2 C hC, hpair.2.2 C hC cur (List.mem_singleton_self cur)⟩
    · rw [hcat']
      intro C hC
      rcases List.mem_append.1 hC with hC | hC
      · exact hsub C (hdone C hC)
      · rw [List.mem_singleton.1 hC]
        refine hsub _ (disjoint_insert_left.2 ⟨hi.1, h.remaining cur ?_⟩)
        rw [hcat]
        exact List.mem_append_right _ (List.mem_singleton_self cur)
    · rw [hcat', List.dropLast_concat]
      intro C hC
      rcases (hsearch' j).1 hj with hj | hj
      · exact (hrest j hj).2 C hC
      · exact fun hjC => disjoint_left.1 (hdone C hC) hjC hj.2

theorem Apart.eraseSmallest (h : Apart g) (hg : g.sectorSearch = []) : Apart (g.eraseSmallest t) := by
  unfold Grouping.eraseSmallest
  split
  · refine ⟨h.area.sublist (List.eraseIdx_sublist ..), fun C hC => h.remaining C (List.mem_of_mem_eraseIdx hC), ?_⟩
    intro j hj
    rw [show g.sectorSearch = [] from hg] at hj
    exact absurd hj List.not_mem_nil
  · exact h

theorem Apart.openArea (h : Apart g) (hg : g.sectorSearch = []) : Apart (g.openArea t) := by
  unfold Grouping.openArea
  cases hi : (List.range t.sectors).find? (· ∈ g.sectorsRemaining) with
  | none => exact h
  | some i =>
    have hir : i ∈ g.sectorsRemaining := by simpa using List.find?_some hi
    refine ⟨?_, fun C hC => ?_, fun j hj => ?_⟩
    · rw [List.pairwise_append]
      refine ⟨h.area, List.pairwise_singleton _ _, fun C _ D hD => ?_⟩
      rw [List.mem_singleton.1 hD]
      exact disjoint_empty_right C
    · rcases List.mem_append.1 hC with hC | hC
      · exact (h.remaining C hC).mono_right (erase_subset _ _)
      · rw [List.mem_singleton.1 hC]
        exact disjoint_empty_left _
    · dsimp only at hj ⊢
      rw [hg, List.nil_append, List.mem_singleton] at hj
      subst hj
      rw [List.dropLast_concat]
      exact ⟨notMem_erase j _, fun C hC hjC => disjoint_left.1 (h.remaining C hC) hjC hir⟩

theorem Apart.step (h : Apart g) : Apart (g.step t) := by
  unfold Grouping.step
  cases hs : g.sectorSearch with
  | cons i rest => exact h.expand hs
  | nil =>
    refine (h.eraseSmallest hs).openArea ?_
    unfold Grouping.eraseSmallest
    split <;> exact hs

theorem Apart.run (h : Apart g) (n : ℕ) : Apart (Grouping.run t n g) := by
  induction n generalizing g with
  | zero => exact h
  | succ n ih =>
    rw [Grouping.run]
    split
    · exact h
    · exact ih h.step

end Grouping

theorem groupSectors_pairwise (usable : ℕ → Bool) : (groupSectors t usable).Pairwise Disjoint := by
  have hapart := Grouping.Apart.run (t := t)
    (g := ⟨[], (range t.sectors).filter fun i => usable i, [], 0⟩) ⟨.nil, by simp, by simp⟩ (2 * t.sectors)
  unfold groupSectors
  dsimp only
  split
  · exact hapart.area.sublist (List.dropLast_sublist _)
  · exact hapart.area

/-! ## Every sector of an area points to it -/

def Pointed (mt : STerrainMapMobileType) : Prop :=
  ∀ k area, mt.area[k]? = some area → ∀ c ∈ area.sector, (mt.sector c).area = some k

theorem assignArea_eq_some {areas : List (Finset ℕ)} (h : areas.Pairwise Disjoint) {k c : ℕ} {C : Finset ℕ}
    (hk : areas[k]? = some C) (hc : c ∈ C) : assignArea areas (fun _ => none) c = some k := by
  rcases assignArea_cases areas c with ⟨_, hall⟩ | ⟨j, D, hj, hD, hcD⟩
  · exact absurd hc (hall C (List.mem_of_getElem? hk))
  · obtain ⟨hlt, rfl⟩ := List.getElem?_eq_some_iff.1 hk
    obtain ⟨hlt', rfl⟩ := List.getElem?_eq_some_iff.1 hD
    rw [hj]
    rcases Nat.lt_trichotomy j k with hjk | rfl | hjk
    · exact absurd hc (disjoint_left.1 (List.pairwise_iff_getElem.1 h j k hlt' hlt hjk) hcD)
    · rfl
    · exact absurd hcD (disjoint_left.1 (List.pairwise_iff_getElem.1 h k j hlt hlt' hjk) hc)

theorem calculations_pointed {areas : List (Finset ℕ)} (hmt : ∀ i, (mt.sector i).area = none)
    (h : areas.Pairwise Disjoint) : Pointed (calculations t mt areas) := by
  intro k area hk c hc
  have hk' : (areas.map (newArea t))[k]? = some area := hk
  rw [List.getElem?_map, Option.map_eq_some_iff] at hk'
  obtain ⟨C, hC, rfl⟩ := hk'
  show assignArea areas (fun i => (mt.sector i).area) c = some k
  rw [funext hmt]
  exact assignArea_eq_some h hC hc

def Held (mt : STerrainMapMobileType) : Prop :=
  ∀ i k, (mt.sector i).area = some k → ∃ area, mt.area[k]? = some area ∧ i ∈ area.sector

theorem calculations_held (areas : List (Finset ℕ)) (hmt : ∀ i, (mt.sector i).area = none) :
    Held (calculations t mt areas) := by
  intro i k hk
  have hk' : assignArea areas (fun i => (mt.sector i).area) i = some k := hk
  rw [funext hmt] at hk'
  rcases assignArea_cases areas i with ⟨hnone, -⟩ | ⟨j, C, hj, hC, hi⟩
  · exact absurd (hnone.symm.trans hk') (by simp)
  · obtain rfl := Option.some_inj.1 (hj.symm.trans hk')
    exact ⟨newArea t C, by rw [calculations, List.getElem?_map, hC]; rfl, hi⟩

theorem Pointed.pairwise (h : Pointed mt) : (mt.area.map (·.sector)).Pairwise Disjoint := by
  rw [List.pairwise_map, List.pairwise_iff_getElem]
  intro j k hj hk hjk
  refine disjoint_left.2 fun c hcj hck => hjk.ne ?_
  have hsame := (h j _ (List.getElem?_eq_getElem hj) c hcj).symm.trans (h k _ (List.getElem?_eq_getElem hk) c hck)
  exact Option.some_inj.1 hsame

theorem updateMobileType_pointed {changed : ℕ → Bool} {sector : ℕ → STerrainMapSector} {prev : STerrainMapMobileType}
    (h : Pointed prev) : Pointed (updateMobileType t changed sector mt prev) := by
  refine calculations_pointed (fun _ => rfl) ?_
  split
  · exact groupSectors_pairwise _
  · exact h.pairwise

end Circuit.Impl.TerrainData
