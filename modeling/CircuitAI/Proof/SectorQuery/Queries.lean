import CircuitAI.Framework.SortedScan
import CircuitAI.Proof.SectorQuery.Slots

/-!
# Queries answer as on emptied data

`Valid` says which entries of the maps are right, given the emptied data `e`: those of `sectorClosest` always, those of
`sectorAlternativeM` for the area their sector lies in, those for flying units if they are not stale,
and those of `sectorAlternativeI` for the area they were computed for. `Query.asEmptied` shows that a clean query
answers as on the emptied data and keeps `Valid`.
-/

namespace Circuit.Impl.SectorQuery

open TerrainData Framework Spec.SectorQueries Prod Option

variable {g : Metric} {t : Setup} {e d : SAreaData} {stale : ℕ → ℕ → Bool} {filler : ℕ → ℕ → ℕ → Option ℕ}

structure Valid (g : Metric) (t : Setup) (e : SAreaData) (stale : ℕ → ℕ → Bool) (filler : ℕ → ℕ → ℕ → Option ℕ)
    (d : SAreaData) : Prop where
  core : emptied d = e
  apart : ∀ a ar c, area e a = some ar → c ∈ ar.sector → (sectorList e (some a.1) c).area = some a.2
  closest : ∀ a i r, (area d a).bind (·.sectorClosest i) = some r → r = findClosest g t a i e
  closestI : ∀ it i r, d.immobileType[it]?.bind (·.sectorClosest i) = some r → r = findClosestI g t it i e
  mobileM : ∀ m i m' r, alternativeM (some m) i m' d = some r →
    ∀ k, (sectorList e (some m) i).area = some k → r = (searchAlternative g t (some (m, k)) i m' e).1
  airM : ∀ i m r, alternativeM none i m d = some r → stale i m = false →
    r = (searchAlternative g t none i m e).1
  mobileI : ∀ m i it r, alternativeI (some m) i it d = some r →
    ∀ k, filler m i it = some k → r = (getAlternativeSectorI g t (some (m, k)) it 2 i e).1
  airI : ∀ i it r, alternativeI none i it d = some r → r = none

namespace Valid

theorem emptied (h : Valid g t e stale filler d) : Valid g t e stale filler (emptied d) where
  core := (emptied_emptied d).trans h.core
  apart := h.apart
  closest a i r hr := absurd (sectorClosest_emptied a i ▸ hr) (by simp)
  closestI it i r hr := absurd (sectorClosestI_emptied it i ▸ hr) (by simp)
  mobileM m i m' r hr := absurd (alternativeM_emptied (some m) i m' ▸ hr) (by simp)
  airM i m r hr := absurd (alternativeM_emptied none i m ▸ hr) (by simp)
  mobileI m i it r hr := absurd (alternativeI_emptied (some m) i it ▸ hr) (by simp)
  airI i it r hr := absurd (alternativeI_emptied none i it ▸ hr) (by simp)

theorem emptying : Emptying Spec.SectorQueries.emptied (Valid g t e stale filler) := ⟨emptied_emptied, fun _ h => h.emptied⟩

theorem setClosest (h : Valid g t e stale filler d) {a : AreaRef} {i : ℕ} {r : Option ℕ}
    (hr : r = findClosest g t a i e) : Valid g t e stale filler (setClosest a i r d) where
  core := (emptied_setClosest a i r).trans h.core
  apart := h.apart
  closest a' i' r' hr' := by
    rcases sectorClosest_setClosest hr' with hold | ⟨rfl, rfl, rfl⟩
    · exact h.closest a' i' r' hold
    · exact hr
  closestI := h.closestI
  mobileM m i' m' r' hr' := h.mobileM m i' m' r' (by rwa [alternativeM, sectorList_setClosest] at hr')
  airM i' m r' hr' := h.airM i' m r' (by rwa [alternativeM, sectorList_setClosest] at hr')
  mobileI m i' it r' hr' := h.mobileI m i' it r' (by rwa [alternativeI, sectorList_setClosest] at hr')
  airI i' it r' hr' := h.airI i' it r' (by rwa [alternativeI, sectorList_setClosest] at hr')

theorem setClosestI (h : Valid g t e stale filler d) {it i : ℕ} {r : Option ℕ}
    (hr : r = findClosestI g t it i e) : Valid g t e stale filler (setClosestI it i r d) where
  core := (emptied_setClosestI it i r).trans h.core
  apart := h.apart
  closest := h.closest
  closestI it' i' r' hr' := by
    rcases sectorClosestI_setClosestI hr' with hold | ⟨rfl, rfl, rfl⟩
    · exact h.closestI it' i' r' hold
    · exact hr
  mobileM := h.mobileM
  airM := h.airM
  mobileI := h.mobileI
  airI := h.airI

theorem setAlternativeM (h : Valid g t e stale filler d) {a : Option AreaRef} {i m : ℕ} {r : Option ℕ}
    (ha : ∀ b ∈ a, (sectorList e (some b.1) i).area = some b.2) (hr : r = (searchAlternative g t a i m e).1) :
    Valid g t e stale filler (setAlternativeM (a.map fst) i m r d) where
  core := (emptied_setAlternativeM _ i m r).trans h.core
  apart := h.apart
  closest a' i' r' hr' := h.closest a' i' r' (by rwa [SectorQuery.setAlternativeM, area_modifySector] at hr')
  closestI it i' r' hr' := h.closestI it i' r' (by cases a <;> exact hr')
  mobileM m₁ i' m' r' hr' k hk := by
    rcases alternativeM_setAlternativeM hr' with hold | ⟨hl, rfl, rfl, rfl⟩
    · exact h.mobileM m₁ i' m' r' hold k hk
    · cases a with
      | none => exact absurd hl (by simp)
      | some b =>
        obtain rfl : m₁ = b.1 := some_inj.1 hl
        obtain rfl : b.2 = k := some_inj.1 ((ha b rfl).symm.trans hk)
        exact hr
  airM i' m' r' hr' hs := by
    rcases alternativeM_setAlternativeM hr' with hold | ⟨hl, rfl, rfl, rfl⟩
    · exact h.airM i' m' r' hold hs
    · cases a with
      | none => exact hr
      | some b => exact absurd hl (by simp)
  mobileI m₁ i' it r' hr' := h.mobileI m₁ i' it r' (by rwa [alternativeI_setAlternativeM] at hr')
  airI i' it r' hr' := h.airI i' it r' (by rwa [alternativeI_setAlternativeM] at hr')

theorem setAlternativeI (h : Valid g t e stale filler d) {a : Option AreaRef} {i it : ℕ} {r : Option ℕ}
    (hair : a = none → r = none)
    (hr : ∀ b ∈ a, ∀ k, filler b.1 i it = some k → r = (getAlternativeSectorI g t (some (b.1, k)) it 2 i e).1) :
    Valid g t e stale filler (setAlternativeI (a.map fst) i it r d) where
  core := (emptied_setAlternativeI _ i it r).trans h.core
  apart := h.apart
  closest a' i' r' hr' := h.closest a' i' r' (by rwa [SectorQuery.setAlternativeI, area_modifySector] at hr')
  closestI it' i' r' hr' := h.closestI it' i' r' (by cases a <;> exact hr')
  mobileM m i' m' r' hr' := h.mobileM m i' m' r' (by rwa [alternativeM_setAlternativeI] at hr')
  airM i' m r' hr' := h.airM i' m r' (by rwa [alternativeM_setAlternativeI] at hr')
  mobileI m i' it' r' hr' k hk := by
    rcases alternativeI_setAlternativeI hr' with hold | ⟨hl, rfl, rfl, rfl⟩
    · exact h.mobileI m i' it' r' hold k hk
    · cases a with
      | none => exact absurd hl (by simp)
      | some b =>
        obtain rfl : m = b.1 := some_inj.1 hl
        exact hr b rfl k hk
  airI i' it' r' hr' := by
    rcases alternativeI_setAlternativeI hr' with hold | ⟨hl, rfl, rfl, rfl⟩
    · exact h.airI i' it' r' hold
    · cases a with
      | none => exact hair rfl
      | some b => exact absurd hl (by simp)

theorem refill (h : Valid g t e stale filler d) {filler' : ℕ → ℕ → ℕ → Option ℕ}
    (hf : ∀ m i it, (alternativeI (some m) i it d).isSome → ∀ k, filler' m i it = some k → filler m i it = some k) :
    Valid g t e stale filler' d :=
  { h with mobileI := fun m i it r hr k hk => h.mobileI m i it r hr k (hf m i it (by rw [hr]; rfl) k hk) }

end Valid

/-! ## `GetClosestSector` -/

theorem getClosestSector_asEmptied (h : Valid g t e stale filler d) (a : AreaRef) (i : ℕ) :
    AsEmptied emptied (Valid g t e stale filler) (getClosestSector g t a i) d := by
  refine AsEmptied.memo h (fun _ => AsEmptied.read h (findClosest_emptied g a i).symm) (sectorClosest_emptied a i)
    (fun r hr => ?_) fun _ => ⟨emptied_setClosest .., h.setClosest ?_⟩
  · show r = findClosest g t a i (emptied d)
    rw [h.core]
    exact h.closest a i r hr
  · show findClosest g t a i d = _
    rw [← h.core, findClosest_emptied]

theorem getClosestSector_eq (h : Valid g t e stale filler d) (a : AreaRef) (i : ℕ) :
    (getClosestSector g t a i d).1 = findClosest g t a i e := by
  rw [(getClosestSector_asEmptied h a i).answer, getClosestSector, memo, sectorClosest_emptied, h.core]
  rfl

theorem getClosestSectorI_asEmptied (h : Valid g t e stale filler d) (it i : ℕ) :
    AsEmptied emptied (Valid g t e stale filler) (getClosestSectorI g t it i) d := by
  refine AsEmptied.memo h (fun _ => AsEmptied.read h (findClosestI_emptied g it i).symm) (sectorClosestI_emptied it i)
    (fun r hr => ?_) fun _ => ⟨emptied_setClosestI .., h.setClosestI ?_⟩
  · show r = findClosestI g t it i (emptied d)
    rw [h.core]
    exact h.closestI it i r hr
  · show findClosestI g t it i d = _
    rw [← h.core, findClosestI_emptied]

theorem nearest_cases (g : Metric) (t : Setup) (S : Finset ℕ) (i : ℕ) :
    (nearest g t S i = none ∧ ∀ c ∈ S, c < t.sectors → g.fltMax ≤ g.sqDistance2D (position t c) (position t i)) ∨
    ∃ c ∈ S, c < t.sectors ∧ nearest g t S i = some c ∧ ∀ c' ∈ S, c' < t.sectors →
      g.sqDistance2D (position t c) (position t i) ≤ g.sqDistance2D (position t c') (position t i) := by
  have hmem : ∀ c, c ∈ (List.range t.sectors).filter (· ∈ S) ↔ c < t.sectors ∧ c ∈ S := by simp
  rcases foldl_least_cases (fun c => g.sqDistance2D (position t c) (position t i)) g.fltMax
    ((List.range t.sectors).filter (· ∈ S)) with ⟨hnone, hall⟩ | ⟨c, hc, hsome, -, hall⟩
  · exact .inl ⟨congrArg fst hnone, fun c hc hlt => hall c ((hmem c).2 ⟨hlt, hc⟩)⟩
  · obtain ⟨hlt, hcS⟩ := (hmem c).1 hc
    exact .inr ⟨c, hcS, hlt, congrArg fst hsome, fun c' hc' hlt' => hall c' ((hmem c').2 ⟨hlt', hc'⟩)⟩

theorem nearest_mem {S : Finset ℕ} {i c : ℕ} (hc : nearest g t S i = some c) : c ∈ S ∧ c < t.sectors := by
  rcases nearest_cases g t S i with ⟨hnone, -⟩ | ⟨c', hc', hlt, hsome, -⟩
  · exact absurd (hnone.symm.trans hc) (by simp)
  · obtain rfl := some_inj.1 (hsome.symm.trans hc)
    exact ⟨hc', hlt⟩

theorem Valid.findClosest_inside (h : Valid g t e stale filler d) {a : AreaRef} {i c : ℕ}
    (hc : findClosest g t a i e = some c) : (sectorList e (some a.1) c).area = some a.2 := by
  unfold findClosest at hc
  obtain ⟨ar, har, hc⟩ := bind_eq_some_iff.1 hc
  split at hc
  · rename_i hin
    exact some_inj.1 hc ▸ hin
  · exact h.apart a ar c har (nearest_mem hc).1

/-! ## The search over areas -/

section

variable (h : Valid g t e stale filler d) (a : Option AreaRef)
include h a

theorem findMidDistance_asEmptied (c : ℕ) :
    AsEmptied emptied (Valid g t e stale filler) (findMidDistance g t a c) d := by
  cases a with
  | none => exact AsEmptied.pure h 0
  | some a =>
    refine AsEmptied.bind Valid.emptying h (fun s hs _ => AsEmptied.read hs (by rw [sectorList_emptied_area]))
      fun s hs _ => ?_
    split
    · exact AsEmptied.pure hs 0
    · exact AsEmptied.bind Valid.emptying hs (fun s' hs' _ => getClosestSector_asEmptied hs' a _)
        fun s' hs' _ => AsEmptied.pure hs' _

theorem considerArea_asEmptied (i m : ℕ) (b : Best) (k : ℕ) :
    AsEmptied emptied (Valid g t e stale filler) (considerArea g t a i m b k) d := by
  refine AsEmptied.bind Valid.emptying h (fun s hs _ => AsEmptied.read hs (isConsidered_emptied m k).symm)
    fun s hs _ => ?_
  split
  · refine AsEmptied.bind Valid.emptying hs (fun s hs _ => getClosestSector_asEmptied hs (m, k) i)
      fun s hs _ => ?_
    split
    · exact AsEmptied.pure hs b
    · refine AsEmptied.bind Valid.emptying hs (fun s hs _ => findMidDistance_asEmptied hs a _) fun s hs _ => ?_
      refine AsEmptied.bind Valid.emptying hs (fun s hs _ => AsEmptied.read hs ?_)
        fun s hs _ => AsEmptied.pure hs _
      simp only [areaPercent_emptied, sectorPercent_emptied]
  · exact AsEmptied.pure hs b

theorem searchAlternative_asEmptied (i m : ℕ) :
    AsEmptied emptied (Valid g t e stale filler) (searchAlternative g t a i m) d := by
  refine AsEmptied.bind Valid.emptying h (fun s hs _ => AsEmptied.read hs (areaCount_emptied m).symm)
    fun s hs _ => ?_
  refine AsEmptied.bind Valid.emptying hs (fun s hs _ => ?_) fun s hs _ => AsEmptied.pure hs _
  exact AsEmptied.foldlM Valid.emptying (fun b k _ s hs _ => considerArea_asEmptied hs a i m b k) hs _

end

/-! ## `GetAlternativeSector` for a mobile type -/

theorem isOutside_some {a : AreaRef} {i : ℕ} : isOutside (some a) i d = false ↔ (sectorList d (some a.1) i).area = some a.2 := by
  simp [isOutside, getSectorList]

theorem getAlternativeSector_inside {a : Option AreaRef} {i : ℕ} (hin : isOutside a i d = false) (n m : ℕ) :
    getAlternativeSector g t a (n + 1) i (some m) d =
      memo (alternativeM (a.map fst) i m) (setAlternativeM (a.map fst) i m) (searchAlternative g t a i m) d := by
  show (if ((alternativeM (a.map fst) i m d).isNone && isOutside a i d) = true then _ else _ : StateM _ _) d = _
  rw [hin, Bool.and_false, if_neg (by decide)]

theorem getAlternativeSector_outside {a : AreaRef} {i m : ℕ} (hnone : alternativeM (some a.1) i m d = none)
    (hout : isOutside (some a) i d = true) (n : ℕ) :
    getAlternativeSector g t (some a) (n + 1) i (some m) d =
      (getClosestSector g t a i >>= fun r =>
        match r with
        | none => pure none
        | some c => getAlternativeSector g t (some a) n (getSectorIndex t (position t c)) (some m)) d := by
  show (if ((alternativeM (some a.1) i m d).isNone && isOutside (some a) i d) = true then _ else _ : StateM _ _) d = _
  rw [hnone, hout]
  rfl

theorem alternative_asEmptied_inside (h : Valid g t e stale filler d) {a : Option AreaRef} {i m : ℕ}
    (hin : isOutside a i d = false)
    (hair : (alternativeM (a.map fst) i m d).isSome → a = none → stale i m = false) (n : ℕ) :
    AsEmptied emptied (Valid g t e stale filler) (getAlternativeSector g t a (n + 1) i (some m)) d := by
  have harea : ∀ b ∈ a, (sectorList e (some b.1) i).area = some b.2 := by
    rintro b rfl
    rw [← h.core, sectorList_emptied_area]
    exact isOutside_some.1 hin
  have hsearch := searchAlternative_asEmptied h a i m
  refine .of_eq (getAlternativeSector_inside hin n m) (getAlternativeSector_inside ((isOutside_emptied a i).trans hin) n m) ?_
  refine AsEmptied.memo h (fun _ => hsearch) (alternativeM_emptied ..) (fun r hr => ?_) fun _ => ⟨emptied_setAlternativeM .., ?_⟩
  · rw [h.core]
    cases a with
    | none => exact h.airM i m r hr (hair (by rw [hr]; rfl) rfl)
    | some b => exact h.mobileM b.1 i m r hr b.2 (harea b rfl)
  · exact hsearch.valid.setAlternativeM harea (by rw [hsearch.answer, h.core])

theorem alternative_asEmptied_outside (h : Valid g t e stale filler d) {a : AreaRef} {i m : ℕ}
    (hnone : alternativeM (some a.1) i m d = none) (hout : isOutside (some a) i d = true) (n : ℕ) :
    AsEmptied emptied (Valid g t e stale filler) (getAlternativeSector g t (some a) (n + 2) i (some m)) d := by
  refine .of_eq (getAlternativeSector_outside hnone hout (n + 1))
    (getAlternativeSector_outside (alternativeM_emptied ..) ((isOutside_emptied _ i).trans hout) (n + 1)) ?_
  refine AsEmptied.bind Valid.emptying h (fun s hs _ => getClosestSector_asEmptied hs a i) fun s hs _ => ?_
  rw [getClosestSector_eq h]
  cases hc : findClosest g t a i e with
  | none => exact AsEmptied.pure hs none
  | some c =>
    dsimp only
    rw [getSectorIndex_position]
    refine alternative_asEmptied_inside hs ?_ (fun _ habs => absurd habs (by simp)) n
    rw [isOutside_some, ← sectorList_emptied_area, hs.core]
    exact h.findClosest_inside hc

theorem isOutside_none (i : ℕ) : isOutside none i d = false := rfl

theorem alternative_asEmptied (h : Valid g t e stale filler d) {a : Option AreaRef} {i m : ℕ}
    (hentry : (alternativeM (a.map fst) i m d).isSome → (a = none → stale i m = false) ∧ isOutside a i d = false) :
    AsEmptied emptied (Valid g t e stale filler) (getAlternativeSector g t a 2 i (some m)) d := by
  cases hout : isOutside a i d with
  | false => exact alternative_asEmptied_inside h hout (fun hs => (hentry hs).1) 1
  | true =>
    cases a with
    | none => exact absurd ((isOutside_none i).symm.trans hout) (by decide)
    | some a =>
      refine alternative_asEmptied_outside h (not_isSome_iff_eq_none.1 fun hs => ?_) hout 0
      exact absurd ((hentry hs).2.symm.trans hout) (by decide)

theorem getAlternativeSector_found {a : Option AreaRef} {i m : ℕ} {r : Option ℕ}
    (hr : alternativeM (a.map fst) i m d = some r) (n : ℕ) :
    getAlternativeSector g t a (n + 1) i (some m) d = (r, d) := by
  show (if ((alternativeM (a.map fst) i m d).isNone && isOutside a i d) = true then _ else _ : StateM _ _) d = _
  rw [hr, if_neg (by simp), memo, hr]

/-! ## `GetAlternativeSector` for an immobile type -/

def searchAlternativeI (g : Metric) (t : Setup) (a : AreaRef) (it n i : ℕ) : StateM SAreaData (Option ℕ) := do
  let elsewhere ← reads (isOutside (some a) i)
  if elsewhere then
    match ← getClosestSector g t a i with
    | none => pure none
    | some c => getAlternativeSectorI g t (some a) it n (getSectorIndex t (position t c))
  else
    reads fun d => (area d a).bind fun area => nearest g t area.sector i

theorem getAlternativeSectorI_succ (a : AreaRef) (it n i : ℕ) : getAlternativeSectorI g t (some a) it (n + 1) i =
    memo (alternativeI (some a.1) i it) (setAlternativeI (some a.1) i it) (searchAlternativeI g t a it n i) := rfl

theorem getAlternativeSectorI_emptied (a : AreaRef) (it n i : ℕ) :
    (getAlternativeSectorI g t (some a) it (n + 1) i (emptied d)).1 = (searchAlternativeI g t a it n i (emptied d)).1 := by
  rw [getAlternativeSectorI_succ, memo, alternativeI_emptied]

theorem searchAlternativeI_inside {a : AreaRef} {i : ℕ} (hin : isOutside (some a) i d = false) (it n : ℕ) :
    searchAlternativeI g t a it n i d = reads (fun d => (area d a).bind fun area => nearest g t area.sector i) d := by
  show (if isOutside (some a) i d = true then _ else _ : StateM _ _) d = _
  rw [hin, if_neg (by decide)]

theorem nearest_emptied (a : AreaRef) (i : ℕ) :
    ((area (emptied d) a).bind fun area => nearest g t area.sector i) = (area d a).bind fun area => nearest g t area.sector i := by
  rw [area_emptied]
  cases area d a <;> rfl

theorem alternativeI_asEmptied_of_search (h : Valid g t e stale filler d) {a : AreaRef} {i it n : ℕ}
    (hfiller : filler a.1 i it = some a.2)
    (hsame : (searchAlternativeI g t a it n i e).1 = (getAlternativeSectorI g t (some a) it 2 i e).1)
    (hsearch : alternativeI (some a.1) i it d = none →
      AsEmptied emptied (Valid g t e stale filler) (searchAlternativeI g t a it n i) d) :
    AsEmptied emptied (Valid g t e stale filler) (getAlternativeSectorI g t (some a) it (n + 1) i) d := by
  rw [getAlternativeSectorI_succ]
  refine AsEmptied.memo h hsearch (alternativeI_emptied ..) (fun r hr => ?_) fun hnone =>
    ⟨emptied_setAlternativeI .., ?_⟩
  · rw [h.core, hsame]
    exact h.mobileI a.1 i it r hr a.2 hfiller
  · refine (hsearch hnone).valid.setAlternativeI (a := some a) (fun habs => absurd habs (by simp)) ?_
    intro b hb k hk
    obtain rfl := mem_some_iff.1 hb
    obtain rfl : a.2 = k := some_inj.1 (hfiller.symm.trans hk)
    rw [(hsearch hnone).answer, h.core, hsame]

theorem alternativeI_asEmptied_inside (h : Valid g t e stale filler d) {a : AreaRef} {i it : ℕ}
    (hfiller : filler a.1 i it = some a.2) (hin : isOutside (some a) i d = false) (n : ℕ) :
    AsEmptied emptied (Valid g t e stale filler) (getAlternativeSectorI g t (some a) it (n + 1) i) d := by
  have hin' : isOutside (some a) i (emptied d) = false := (isOutside_emptied _ i).trans hin
  refine alternativeI_asEmptied_of_search h hfiller ?_ fun _ => ?_
  · rw [← h.core, getAlternativeSectorI_emptied, searchAlternativeI_inside hin', searchAlternativeI_inside hin']
  · refine .of_eq (searchAlternativeI_inside hin it n) (searchAlternativeI_inside hin' it n)
      (AsEmptied.read h (nearest_emptied a i).symm)

theorem searchAlternativeI_outside {a : AreaRef} {i : ℕ} (hout : isOutside (some a) i d = true) (it n : ℕ) :
    searchAlternativeI g t a it n i d =
      (getClosestSector g t a i >>= fun r =>
        match r with
        | none => pure none
        | some c => getAlternativeSectorI g t (some a) it n (getSectorIndex t (position t c))) d := by
  show (if isOutside (some a) i d = true then _ else _ : StateM _ _) d = _
  rw [hout]
  rfl

theorem alternativeI_asEmptied (h : Valid g t e stale filler d) {a : AreaRef} {i it : ℕ}
    (hfiller : filler a.1 i it = some a.2)
    (hclosest : alternativeI (some a.1) i it d = none → isOutside (some a) i d = true →
      ∀ c, findClosest g t a i d = some c → filler a.1 c it = some a.2) :
    AsEmptied emptied (Valid g t e stale filler) (getAlternativeSectorI g t (some a) it 2 i) d := by
  cases hout : isOutside (some a) i d with
  | false => exact alternativeI_asEmptied_inside h hfiller hout 1
  | true =>
    refine alternativeI_asEmptied_of_search h hfiller ?_ fun hnone => ?_
    · rw [← h.core, getAlternativeSectorI_emptied]
    · refine .of_eq (searchAlternativeI_outside hout it 1)
        (searchAlternativeI_outside ((isOutside_emptied _ i).trans hout) it 1) ?_
      refine AsEmptied.bind Valid.emptying h (fun s hs _ => getClosestSector_asEmptied hs a i) fun s hs _ => ?_
      rw [getClosestSector_eq h]
      cases hc : findClosest g t a i e with
      | none => exact AsEmptied.pure hs none
      | some c =>
        dsimp only
        rw [getSectorIndex_position]
        have hcd : findClosest g t a i d = some c := by rw [← findClosest_emptied, h.core, hc]
        refine alternativeI_asEmptied_inside hs (hclosest hnone hout c hcd) ?_ 0
        rw [isOutside_some, ← sectorList_emptied_area, hs.core]
        exact h.findClosest_inside hc

theorem alternativeI_asEmptied_air (h : Valid g t e stale filler d) (it i n : ℕ) :
    AsEmptied emptied (Valid g t e stale filler) (getAlternativeSectorI g t none it (n + 1) i) d := by
  refine AsEmptied.memo h (fun _ => AsEmptied.pure h none) (alternativeI_emptied ..) (fun r hr => h.airI i it r hr)
    fun _ => ⟨emptied_setAlternativeI .., ?_⟩
  exact h.setAlternativeI (a := none) (fun _ => rfl) fun b hb => absurd hb (by simp)

end Circuit.Impl.SectorQuery

namespace Circuit.Spec.SectorQueries

open Impl.TerrainData Impl.SectorQuery Framework

variable {g : Metric} {t : Setup} {e : SAreaData} {b : Buffer}

def Buffer.noted (b : Buffer) (q : Query) (m i it : ℕ) : Option ℕ :=
  if (alternativeI (some m) i it b.data).isNone then fills q else b.filler m i it

theorem Buffer.FilledFor.noted {a : AreaRef} {i it : ℕ} (h : b.FilledFor a.1 a.2 i it) (j : ℕ) :
    b.noted (.alternativeI (some a) j it) a.1 i it = some a.2 := by
  unfold Buffer.noted
  cases hs : alternativeI (some a.1) i it b.data with
  | none => rfl
  | some r => exact h (by rw [hs]; rfl)

theorem Buffer.valid_noted (h : Valid g t e b.stale b.filler b.data) (q : Query) :
    Valid g t e b.stale (b.noted q) b.data := h.refill fun m i it hs k hk => by
  rwa [Buffer.noted, if_neg (by simp [Option.isSome_iff_ne_none.1 hs])] at hk

theorem Buffer.Clean.asEmptied {q : Query} (h : Valid g t e b.stale b.filler b.data) (hclean : b.Clean g t q) :
    AsEmptied emptied (Valid g t e b.stale (b.noted q)) (q.ask g t) b.data := by
  have hV := Buffer.valid_noted h q
  cases q with
  | closest a i => exact getClosestSector_asEmptied hV a i
  | closestI it i => exact getClosestSectorI_asEmptied hV it i
  | alternative a i m =>
    cases m with
    | none => exact AsEmptied.pure hV (some i)
    | some m =>
      refine alternative_asEmptied hV fun hs => ?_
      cases a with
      | none => exact ⟨fun _ => hclean, isOutside_none i⟩
      | some a => exact ⟨fun habs => absurd habs (by simp), isOutside_some.2 (hclean hs)⟩
  | alternativeI a i it =>
    cases a with
    | none => exact alternativeI_asEmptied_air hV it i 1
    | some a =>
      refine alternativeI_asEmptied hV (hclean.1.noted i) fun hnone hout c hc => ?_
      exact (hclean.2 (by rw [hnone]; rfl) hout c hc).noted i

theorem Buffer.Clean.own {q : Query} (h : b.Clean g t q) : b.Own g t q := by
  cases q with
  | alternativeI a i it =>
    cases a with
    | none => trivial
    | some a => exact h
  | _ => trivial

theorem Buffer.Own.valid_asked {q : Query} (h : Valid g t e b.stale b.filler b.data) (hown : b.Own g t q) :
    Valid g t e b.stale (b.noted q) (q.ask g t b.data).2 := by
  have hV := Buffer.valid_noted h q
  cases q with
  | closest a i => exact (Buffer.Clean.asEmptied (q := .closest a i) h trivial).valid
  | closestI it i => exact (Buffer.Clean.asEmptied (q := .closestI it i) h trivial).valid
  | alternative a i m =>
    cases m with
    | none => exact hV
    | some m =>
      cases hr : alternativeM (a.map Prod.fst) i m b.data with
      | none => exact (alternative_asEmptied hV fun hs => absurd hs (by simp [hr])).valid
      | some r =>
        show Valid g t e b.stale _ (getAlternativeSector g t a 2 i (some m) b.data).2
        rwa [getAlternativeSector_found hr]
  | alternativeI a i it =>
    cases a with
    | none => exact (Buffer.Clean.asEmptied (q := .alternativeI none i it) h trivial).valid
    | some a => exact (Buffer.Clean.asEmptied (q := .alternativeI (some a) i it) h hown).valid

theorem Buffer.Own.valid_ask {q : Query} (h : Valid g t e b.stale b.filler b.data) (hown : b.Own g t q) :
    Valid g t e (b.ask g t q).stale (b.ask g t q).filler (b.ask g t q).data := by
  refine (hown.valid_asked h).refill fun m i it hs k hk => ?_
  have hs' : (alternativeI (some m) i it (q.ask g t b.data).2).isSome = true := hs
  have hk' : (if (alternativeI (some m) i it b.data).isNone && (alternativeI (some m) i it (q.ask g t b.data).2).isSome
    then fills q else b.filler m i it) = some k := hk
  rwa [hs', Bool.and_true] at hk'

end Circuit.Spec.SectorQueries
