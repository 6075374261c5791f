import CircuitAI.Spec.SectorQueries

/-!
# Entries of the maps that are filled on demand

What a write to one of the maps leaves as it was: the emptied data (`emptied_setClosest` and its like) and every other
entry. A read after a write is stated for entries that are found: such an entry was there before or is the
one just written.
-/

namespace Circuit.Impl.SectorQuery

open TerrainData Spec.SectorQueries Function List

variable {t : Setup} {d : SAreaData}

/-! ## Sector indices -/

variable {r r' : Option ℕ} {i i' : ℕ}

theorem getSectorIndex_position (t : Setup) (i : ℕ) : getSectorIndex t (position t i) = i := by
  have hP : 0 < t.convertStoP := lt_of_lt_of_le (by decide) t.convertStoP_ge
  have hback : ∀ n, (n * t.convertStoP + t.convertStoP / 2) / t.convertStoP = n := fun n => by
    rw [Nat.mul_comm, Nat.mul_add_div hP, Nat.div_eq_of_lt (Nat.div_lt_self hP (by decide)), Nat.add_zero]
  rw [getSectorIndex, position, hback, hback]
  exact Nat.div_add_mod i t.sectorXSize

/-! ## Emptied data -/

theorem emptiedType_emptiedType (mt : STerrainMapMobileType) : emptiedType (emptiedType mt) = emptiedType mt := by
  simp only [emptiedType, map_map]
  rfl

theorem emptied_emptied (d : SAreaData) : emptied (emptied d) = emptied d := by
  simp only [emptied, map_map, comp_def, emptiedType_emptiedType]
  rfl

theorem area_emptied (a : AreaRef) : area (emptied d) a = (area d a).map emptiedArea := by
  show ((d.mobileType.map emptiedType)[a.1]?).bind (·.area[a.2]?) = _
  rw [getElem?_map, area]
  cases d.mobileType[a.1]? with
  | none => rfl
  | some mt => exact getElem?_map

theorem sectorList_emptied (list : Option ℕ) (i : ℕ) :
    sectorList (emptied d) list i = emptiedSector (sectorList d list i) := by
  cases list with
  | none => rfl
  | some m =>
    show (((d.mobileType.map emptiedType)[m]?.map (·.sector)).getD fun _ => .new) i = _
    rw [getElem?_map, sectorList]
    cases d.mobileType[m]? with
    | none => rfl
    | some mt => rfl

theorem immobileType_emptied (it : ℕ) : (emptied d).immobileType[it]? = d.immobileType[it]?.map emptiedImmobile :=
  getElem?_map

@[simp] theorem sectorList_emptied_area (list : Option ℕ) (i : ℕ) :
    (sectorList (emptied d) list i).area = (sectorList d list i).area := by rw [sectorList_emptied, emptiedSector]

@[simp] theorem alternativeM_emptied (list : Option ℕ) (i m : ℕ) : alternativeM list i m (emptied d) = none := by
  rw [alternativeM, sectorList_emptied]
  rfl

@[simp] theorem alternativeI_emptied (list : Option ℕ) (i it : ℕ) : alternativeI list i it (emptied d) = none := by
  rw [alternativeI, sectorList_emptied]
  rfl

theorem sectorClosest_emptied (a : AreaRef) (i : ℕ) : (area (emptied d) a).bind (·.sectorClosest i) = none := by
  rw [area_emptied]
  cases area d a <;> rfl

theorem sectorClosestI_emptied (it i : ℕ) : (emptied d).immobileType[it]?.bind (·.sectorClosest i) = none := by
  rw [immobileType_emptied]
  cases d.immobileType[it]? <;> rfl

/-! ## What a query computes depends on the emptied data only -/

variable (g : Metric)

theorem findClosest_emptied (a : AreaRef) (i : ℕ) : findClosest g t a i (emptied d) = findClosest g t a i d := by
  simp only [findClosest, area_emptied, sectorList_emptied_area]
  cases area d a <;> rfl

theorem findClosestI_emptied (it i : ℕ) : findClosestI g t it i (emptied d) = findClosestI g t it i d := by
  simp only [findClosestI, immobileType_emptied]
  cases d.immobileType[it]? <;> rfl

theorem areaPercent_emptied (a : AreaRef) : areaPercent a (emptied d) = areaPercent a d := by
  simp only [areaPercent, area_emptied]
  cases area d a <;> rfl

theorem sectorPercent_emptied (m i : ℕ) : sectorPercent m i (emptied d) = sectorPercent m i d := by
  simp only [sectorPercent, sectorList_emptied_area, areaPercent_emptied]

theorem isConsidered_emptied (m k : ℕ) : isConsidered m k (emptied d) = isConsidered m k d := by
  have husable : ∀ a, (area (emptied d) a).map (·.areaUsable) = (area d a).map (·.areaUsable) := fun a => by
    rw [area_emptied, Option.map_map]
    rfl
  have hlargest : (emptied d).mobileType[m]?.bind (·.areaLargest) = d.mobileType[m]?.bind (·.areaLargest) := by
    show (d.mobileType.map emptiedType)[m]?.bind _ = _
    rw [getElem?_map]
    cases d.mobileType[m]? <;> rfl
  simp only [isConsidered, husable, hlargest]

theorem isOutside_emptied (a : Option AreaRef) (i : ℕ) : isOutside a i (emptied d) = isOutside a i d := by
  simp only [isOutside, getSectorList, sectorList_emptied_area]

theorem areaCount_emptied (m : ℕ) : ((emptied d).mobileType[m]?.map (·.area.length)).getD 0 =
    (d.mobileType[m]?.map (·.area.length)).getD 0 := by
  show ((d.mobileType.map emptiedType)[m]?.map _).getD 0 = _
  rw [getElem?_map]
  cases d.mobileType[m]? with
  | none => rfl
  | some mt => exact length_map ..

/-! ## Writes -/

theorem modify_map_eq {α β : Type*} {f : α → β} {h : α → α} (hf : ∀ x, f (h x) = f x) (l : List α) (k : ℕ) :
    (l.modify k h).map f = l.map f := by
  refine ext_getElem? fun j => ?_
  rw [getElem?_map, getElem?_modify, getElem?_map]
  cases l[j]? with
  | none => rfl
  | some x =>
    by_cases hj : k = j
    · simp [hj, hf]
    · simp [hj]

theorem emptied_setClosest (a : AreaRef) (i : ℕ) (r : Option ℕ) : emptied (setClosest a i r d) = emptied d := by
  unfold setClosest emptied
  dsimp only
  rw [modify_map_eq]
  intro mt
  unfold emptiedType
  dsimp only
  rw [modify_map_eq]
  exact fun _ => rfl

theorem emptied_setClosestI (it i : ℕ) (r : Option ℕ) : emptied (setClosestI it i r d) = emptied d := by
  unfold setClosestI emptied
  dsimp only
  rw [modify_map_eq]
  exact fun _ => rfl

theorem emptied_modifySector (list : Option ℕ) (i : ℕ) {f : STerrainMapAreaSector → STerrainMapAreaSector}
    (hf : ∀ s, (f s).area = s.area) : emptied (modifySector list i f d) = emptied d := by
  have hupd : ∀ S : ℕ → STerrainMapAreaSector,
      (fun j => emptiedSector (update S i (f (S i)) j)) = fun j => emptiedSector (S j) := by
    intro S
    funext j
    by_cases hj : j = i
    · subst hj
      rw [update_self, emptiedSector, hf, emptiedSector]
    · rw [update_of_ne hj]
  unfold modifySector emptied
  cases list with
  | none =>
    dsimp only
    rw [hupd]
  | some m =>
    dsimp only
    rw [modify_map_eq]
    intro mt
    unfold emptiedType
    dsimp only
    rw [hupd]

theorem emptied_setAlternativeM (list : Option ℕ) (i m : ℕ) (r : Option ℕ) :
    emptied (setAlternativeM list i m r d) = emptied d :=
  emptied_modifySector _ _ fun _ => rfl

theorem emptied_setAlternativeI (list : Option ℕ) (i it : ℕ) (r : Option ℕ) :
    emptied (setAlternativeI list i it r d) = emptied d :=
  emptied_modifySector _ _ fun _ => rfl

/-! ## Reads after writes -/

theorem update_eq_some {c : Cache} {k k' : ℕ} (h : update c k (some r) k' = some r') :
    c k' = some r' ∨ (k' = k ∧ r' = r) := by
  by_cases hk : k' = k
  · rw [hk, update_self, Option.some_inj] at h
    exact .inr ⟨hk, h.symm⟩
  · rw [update_of_ne hk] at h
    exact .inl h

theorem area_setClosest (a : AreaRef) (i : ℕ) (r : Option ℕ) (b : AreaRef) :
    area (setClosest a i r d) b = (area d b).map fun area =>
      if b = a then { area with sectorClosest := update area.sectorClosest i (some r) } else area := by
  unfold area setClosest
  dsimp only
  rw [getElem?_modify]
  cases d.mobileType[b.1]? with
  | none => rfl
  | some mt =>
    have hb : b = a ↔ a.1 = b.1 ∧ a.2 = b.2 := by rw [eq_comm, Prod.ext_iff]
    simp only [Option.map_eq_map, Option.map_some, Option.bind_some]
    by_cases h1 : a.1 = b.1
    · rw [if_pos h1, getElem?_modify]
      cases mt.area[b.2]? with
      | none => rfl
      | some area => by_cases h2 : a.2 = b.2 <;> simp [hb, h1, h2]
    · cases hm : mt.area[b.2]? with
      | none => simp [h1, hm]
      | some area => simp [hb, h1, hm]

theorem sectorList_setClosest (a : AreaRef) (i : ℕ) (r : Option ℕ) : sectorList (setClosest a i r d) = sectorList d := by
  funext list
  cases list with
  | none => rfl
  | some m =>
    unfold sectorList setClosest
    dsimp only
    rw [getElem?_modify]
    cases d.mobileType[m]? with
    | none => rfl
    | some mt => by_cases h : a.1 = m <;> simp [h]

theorem sectorClosest_setClosest {a a' : AreaRef}
    (h : (area (setClosest a i r d) a').bind (·.sectorClosest i') = some r') :
    (area d a').bind (·.sectorClosest i') = some r' ∨ (a' = a ∧ i' = i ∧ r' = r) := by
  rw [area_setClosest] at h
  cases ha : area d a' with
  | none =>
    rw [ha] at h
    exact absurd h (by simp)
  | some ar =>
    rw [ha, Option.map_some, Option.bind_some] at h
    rw [Option.bind_some]
    by_cases haa : a' = a
    · rw [if_pos haa] at h
      exact (update_eq_some h).imp_right fun hnew => ⟨haa, hnew⟩
    · rw [if_neg haa] at h
      exact .inl h

theorem sectorClosestI_setClosestI {it it' : ℕ}
    (h : (setClosestI it i r d).immobileType[it']?.bind (·.sectorClosest i') = some r') :
    d.immobileType[it']?.bind (·.sectorClosest i') = some r' ∨ (it' = it ∧ i' = i ∧ r' = r) := by
  unfold setClosestI at h
  dsimp only at h
  rw [getElem?_modify] at h
  cases hit : d.immobileType[it']? with
  | none =>
    rw [hit] at h
    exact absurd h (by simp)
  | some type =>
    simp only [hit, Option.map_eq_map, Option.map_some, Option.bind_some] at h ⊢
    by_cases heq : it = it'
    · rw [if_pos heq] at h
      exact (update_eq_some h).imp_right fun hnew => ⟨heq.symm, hnew⟩
    · rw [if_neg heq] at h
      exact .inl h

theorem area_modifySector (list : Option ℕ) (i : ℕ) (f : STerrainMapAreaSector → STerrainMapAreaSector) :
    area (modifySector list i f d) = area d := by
  funext b
  cases list with
  | none => rfl
  | some m =>
    unfold area modifySector
    dsimp only
    rw [getElem?_modify]
    cases d.mobileType[b.1]? with
    | none => rfl
    | some mt => by_cases h : m = b.1 <;> simp [h]

theorem sectorList_modifySector (list : Option ℕ) (i : ℕ) (f : STerrainMapAreaSector → STerrainMapAreaSector)
    (list' : Option ℕ) (j : ℕ) : sectorList (modifySector list i f d) list' j = sectorList d list' j ∨
    (list' = list ∧ j = i ∧ sectorList (modifySector list i f d) list' j = f (sectorList d list' j)) := by
  have hupd : ∀ S : ℕ → STerrainMapAreaSector, update S i (f (S i)) j = S j ∨
      (j = i ∧ update S i (f (S i)) j = f (S j)) := by
    intro S
    by_cases hj : j = i
    · subst hj
      exact .inr ⟨rfl, update_self ..⟩
    · exact .inl (update_of_ne hj ..)
  cases list with
  | none =>
    cases list' with
    | none => exact (hupd d.sectorAirType).imp_right fun h => ⟨rfl, h⟩
    | some m => exact .inl rfl
  | some m =>
    cases list' with
    | none => exact .inl rfl
    | some m' =>
      unfold sectorList modifySector
      dsimp only
      rw [getElem?_modify]
      cases d.mobileType[m']? with
      | none => exact .inl rfl
      | some mt =>
        by_cases hm : m = m'
        · subst hm
          simpa using hupd mt.sector
        · exact .inl (by simp [hm])

theorem alternativeM_setAlternativeM {list list' : Option ℕ} {m m' : ℕ}
    (h : alternativeM list' i' m' (setAlternativeM list i m r d) = some r') :
    alternativeM list' i' m' d = some r' ∨ (list' = list ∧ i' = i ∧ m' = m ∧ r' = r) := by
  unfold alternativeM setAlternativeM at h
  rcases sectorList_modifySector (d := d) list i
    (fun s => { s with sectorAlternativeM := update s.sectorAlternativeM m (some r) }) list' i' with hs | hs
  · exact .inl (by rw [alternativeM, ← hs, h])
  · rw [hs.2.2] at h
    exact (update_eq_some h).imp_right fun hnew => ⟨hs.1, hs.2.1, hnew⟩

theorem alternativeI_setAlternativeI {list list' : Option ℕ} {it it' : ℕ}
    (h : alternativeI list' i' it' (setAlternativeI list i it r d) = some r') :
    alternativeI list' i' it' d = some r' ∨ (list' = list ∧ i' = i ∧ it' = it ∧ r' = r) := by
  unfold alternativeI setAlternativeI at h
  rcases sectorList_modifySector (d := d) list i
    (fun s => { s with sectorAlternativeI := update s.sectorAlternativeI it (some r) }) list' i' with hs | hs
  · exact .inl (by rw [alternativeI, ← hs, h])
  · rw [hs.2.2] at h
    exact (update_eq_some h).imp_right fun hnew => ⟨hs.1, hs.2.1, hnew⟩

theorem alternativeI_setAlternativeM (list list' : Option ℕ) (i m i' it : ℕ) (r : Option ℕ) :
    alternativeI list' i' it (setAlternativeM list i m r d) = alternativeI list' i' it d := by
  unfold alternativeI setAlternativeM
  rcases sectorList_modifySector (d := d) list i
    (fun s => { s with sectorAlternativeM := update s.sectorAlternativeM m (some r) }) list' i' with hs | hs
  · rw [hs]
  · rw [hs.2.2]

theorem alternativeM_setAlternativeI (list list' : Option ℕ) (i it i' m : ℕ) (r : Option ℕ) :
    alternativeM list' i' m (setAlternativeI list i it r d) = alternativeM list' i' m d := by
  unfold alternativeM setAlternativeI
  rcases sectorList_modifySector (d := d) list i
    (fun s => { s with sectorAlternativeI := update s.sectorAlternativeI it (some r) }) list' i' with hs | hs
  · rw [hs]
  · rw [hs.2.2]

end Circuit.Impl.SectorQuery
