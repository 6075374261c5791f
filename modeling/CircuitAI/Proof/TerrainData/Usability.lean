import CircuitAI.Proof.TerrainData.Update
import CircuitAI.Spec.TypeUsability

/-!
# Where `typeUsable` is right

* `calculations_usable`: "Calculations" raises the flag for a usable area, and never lowers it;
* `Run.inv`: so the flag is up if the type was large when the buffer was written for the last time, or any time before;
* `getFactoryToBuild_flagged`: a factory is only chosen for a type whose flag is up.
-/

namespace Circuit.Spec.TypeUsability

open Impl.TerrainData Impl.FactoryData Framework Option Areas

variable {t : Setup} {ml : List MoveLimits} {il : List BuildLimits} {start : Maps} {updates : List Maps} {d : CTerrainData}
  {mt : STerrainMapMobileType} {l : MoveLimits}

/-! ## The flag -/

theorem calculations_usable (mt : STerrainMapMobileType) (areas : List (Finset ℕ)) :
    (calculations t mt areas).typeUsable = true ↔ mt.typeUsable = true ∨ HasUsable (calculations t mt areas) := by
  have hany : (areas.any fun area => t.percentOfMap area.card ≥ 20) = true ↔ HasUsable (calculations t mt areas) := by
    rw [List.any_eq_true]
    constructor
    · rintro ⟨C, hC, hu⟩
      exact ⟨newArea t C, List.mem_map_of_mem hC, hu⟩
    · rintro ⟨area, ha, hu⟩
      obtain ⟨C, hC, rfl⟩ := List.mem_map.1 ha
      exact ⟨C, hC, hu⟩
  show (mt.typeUsable || _) = true ↔ _
  rw [Bool.or_eq_true, hany]

theorem hasUsable_iff (h : TypeDescribes t (passable t start l updates) l mt) : HasUsable mt ↔ Large t start l updates := by
  constructor
  · rintro ⟨area, ha, hu⟩
    obtain ⟨hC, hlarge⟩ := (h.hasArea area.sector true).1 ⟨area, ha, rfl, hu⟩
    exact ⟨area.sector, hC, of_decide_eq_true hlarge.symm⟩
  · rintro ⟨C, hC, hlarge⟩
    obtain ⟨area, ha, -, hu⟩ := (h.hasArea C true).2 ⟨hC, (decide_eq_true hlarge).symm⟩
    exact ⟨area, ha, hu⟩

theorem written_cons (maps : Maps) (updates : List Maps) :
    written (maps :: updates) = (maps :: updates) :: written updates.tail := by
  cases updates <;> rfl

def WasLarge (t : Setup) (start : Maps) (l : MoveLimits) (updates : List Maps) : Prop :=
  ∃ earlier ∈ written updates, Large t start l earlier

theorem wasLarge_cons (maps : Maps) : WasLarge t start l (maps :: updates) ↔
    WasLarge t start l updates.tail ∨ Large t start l (maps :: updates) := by
  rw [WasLarge, written_cons]
  simp [WasLarge, or_comm]

structure Inv (t : Setup) (ml : List MoveLimits) (start : Maps) (updates : List Maps) (d : CTerrainData) : Prop where
  heightMap : d.pAreaData.heightMap = (updates.headD start).1
  sector : ∀ i < t.sectors, d.pAreaData.sector i = scanned t start updates i
  mobileType : List.Forall₂ (fun l mt => TypeDescribes t (passable t start l updates) l mt ∧
    (mt.typeUsable = true ↔ WasLarge t start l updates)) ml d.pAreaData.mobileType
  next : List.Forall₂ (fun l mt => mt.toMoveLimits = l ∧ (mt.typeUsable = true ↔ WasLarge t start l updates.tail)) ml
    d.nextAreaData.mobileType

theorem Inv.init (hfew : ∀ l ∈ ml, Few t (passable t start l [])) :
    Inv t ml start [] (.init t ml il start.1 start.2) := by
  have htype : List.Forall₂ (fun l mt => TypeDescribes t (passable t start l []) l mt ∧
      (mt.typeUsable = true ↔ WasLarge t start l [])) ml (Impl.TerrainData.init t ml il start.1 start.2).mobileType := by
    refine List.forall₂_map_right_iff.2 (List.forall₂_same.2 fun l hl => ?_)
    have hdesc : TypeDescribes t (passable t start l []) l (initMobileType t (scanned t start []) l) :=
      calculations_describes { l with typeUsable := false, sector := fun _ => .new, area := [], areaLargest := none }
        (fun _ => rfl) (groupSectors_ok (hfew l hl))
    have hflag : (initMobileType t (scanned t start []) l).typeUsable = true ↔ HasUsable _ :=
      (calculations_usable _ _).trans (or_iff_right Bool.false_ne_true)
    exact ⟨hdesc, hflag.trans ((hasUsable_iff hdesc).trans (by simp [WasLarge, written]))⟩
  exact ⟨rfl, fun _ _ => rfl, htype, htype.imp fun l mt h => ⟨h.1.limits, h.2⟩⟩

theorem Inv.update (h : Inv t ml start updates d) (maps : Maps)
    (hfew : ∀ l ∈ ml, Few t (passable t start l (maps :: updates))) :
    Inv t ml start (maps :: updates) (d.update t maps.1 maps.2).swap := by
  have hsector : ∀ i < t.sectors, updateSector t maps.1 maps.2 d.pAreaData i = scanned t start (maps :: updates) i := by
    intro i hi
    rw [updateSector, scanned, h.heightMap, h.sector i hi]
  have hold : ∀ i < t.sectors, isSectorHeightChanged t maps.1 d.pAreaData.heightMap i = false →
      scanned t start (maps :: updates) i = scanned t start updates i := by
    intro i _ hc
    rw [scanned, ← h.heightMap, hc, if_neg Bool.false_ne_true]
  refine ⟨rfl, hsector, ?_, h.mobileType.imp fun l mt hmt => ⟨hmt.1.limits, hmt.2⟩⟩
  refine forall₂_zipWith h.next h.mobileType fun l hl mt prev hmt hprev => ?_
  have hdesc := updateMobileType_describes hmt.1 hprev.1 hsector hold (hfew l hl)
  refine ⟨hdesc, (calculations_usable _ _).trans ?_⟩
  rw [wasLarge_cons, ← hmt.2]
  exact or_congr_right (hasUsable_iff hdesc)

theorem Run.inv (h : Run t ml il start updates d)
    (hfew : ∀ earlier, earlier <:+ updates → ∀ l ∈ ml, Few t (passable t start l earlier)) :
    Inv t ml start updates d := by
  induction h with
  | init => exact .init (hfew [] List.suffix_rfl)
  | @update updates d maps _ ih =>
    exact (ih fun earlier he => hfew earlier (he.trans (List.suffix_cons _ _))).update maps (hfew _ List.suffix_rfl)

theorem truthful_iff (h : TypeDescribes t (passable t start l updates) l mt)
    (hflag : mt.typeUsable = true ↔ WasLarge t start l updates) : Truthful mt ↔ Lasting t start l updates := by
  have hnow : updates ∈ written updates := by
    cases updates with
    | nil => exact List.mem_cons_self
    | cons maps updates =>
      rw [written_cons]
      exact List.mem_cons_self
  rw [Truthful, hflag, hasUsable_iff h]
  exact ⟨fun h earlier he hlarge => h.1 ⟨earlier, he, hlarge⟩,
    fun h => ⟨fun ⟨earlier, he, hlarge⟩ => h earlier he hlarge, fun hlarge => ⟨updates, hnow, hlarge⟩⟩⟩

/-! ## The choice of a factory -/

variable {areaData : SAreaData} {fd : CFactoryData} {r : Request}

def Flagged (areaData : SAreaData) (r : Request) (factory : ℕ) : Prop :=
  ∀ id, (r.cdef factory).mobileId = some id → ∃ mt, areaData.mobileType[id]? = some mt ∧ mt.typeUsable = true

theorem isMobileValid_flagged {factory : ℕ} (h : isMobileValid r areaData (r.cdef factory).mobileId = some true) :
    Flagged areaData r factory := by
  intro id hid
  rw [hid] at h
  exact map_eq_some_iff.1 h

theorem consider_flagged {l l' : List (SFactory × ℚ)} {sfac : SFactory} (h : consider fd areaData r l sfac = some l')
    (hl : ∀ f ∈ l, Flagged areaData r f.1.id) : ∀ f ∈ l', Flagged areaData r f.1.id := by
  rw [consider] at h
  split at h
  · cases h
    exact hl
  obtain ⟨it, -, h⟩ := bind_eq_some_iff.1 h
  split_ifs at h
  · cases h
    exact hl
  · cases h
    exact hl
  obtain ⟨isValid, hvalid, h⟩ := bind_eq_some_iff.1 h
  split at h
  · cases h
    exact hl
  · rename_i hv
    obtain ⟨percent, -, rfl⟩ := map_eq_some_iff.1 h
    have htrue : isValid = true := by simpa using hv
    intro f hf
    rcases List.mem_append.1 hf with hf | hf
    · exact hl f hf
    · rw [List.mem_singleton.1 hf]
      exact isMobileValid_flagged (htrue ▸ hvalid)

theorem foldlM_consider_flagged (facs : List SFactory) {l l' : List (SFactory × ℚ)}
    (h : facs.foldlM (consider fd areaData r) l = some l') (hl : ∀ f ∈ l, Flagged areaData r f.1.id) :
    ∀ f ∈ l', Flagged areaData r f.1.id := by
  induction facs generalizing l with
  | nil =>
    cases h
    exact hl
  | cons sfac facs ih =>
    rw [List.foldlM_cons] at h
    obtain ⟨l₁, h₁, h⟩ := bind_eq_some_iff.1 h
    exact ih h (consider_flagged h₁ hl)

theorem choose_mem {isNoAir : Bool} {l : List (SFactory × ℚ)} {sfac : SFactory} (h : choose r isNoAir l = some sfac) :
    ∃ f ∈ l, f.1 = sfac := by
  cases l with
  | nil => cases h
  | cons front rest =>
    rw [choose] at h
    split at h
    · cases h
      refine ⟨_, ?_, rfl⟩
      cases hfind : (front :: rest).find? fun fac => (r.cdef fac.1.id).mobileId.isSome with
      | none => exact List.mem_cons_self
      | some f => exact List.mem_of_find?_eq_some hfind
    · cases h
      exact ⟨front, List.mem_cons_self, rfl⟩

theorem getFactoryToBuild_flagged {factory : ℕ} {fd' : CFactoryData}
    (h : getFactoryToBuild areaData r fd = some (some factory, fd')) : Flagged areaData r factory := by
  obtain ⟨l, hl, h⟩ := map_eq_some_iff.1 h
  have hall := foldlM_consider_flagged fd.allFactories hl fun f hf => by cases hf
  split at h
  · cases h
  · obtain ⟨hchoice, -⟩ := Prod.mk.inj h
    obtain ⟨sfac, hsfac, rfl⟩ := map_eq_some_iff.1 hchoice
    obtain ⟨f, hf, rfl⟩ := choose_mem hsfac
    exact hall f (List.mem_mergeSort.1 hf)

/-- Along any run in which no type has too many areas, the flag of a type in the published data is right exactly if the
type still is large, had it been so when the buffer was written; and no factory is then chosen for units that can use no
area. -/
theorem typeUsable_truthful (h : Run t ml il start updates d)
    (hfew : ∀ earlier, earlier <:+ updates → ∀ l ∈ ml, Few t (passable t start l earlier)) {id : ℕ}
    (hl : ml[id]? = some l) (hmt : d.pAreaData.mobileType[id]? = some mt) :
    (HasUsable mt ↔ Large t start l updates) ∧ (Truthful mt ↔ Lasting t start l updates) ∧
      (Lasting t start l updates → ∀ (r : Request) (fd fd' : CFactoryData) (factory : ℕ),
        getFactoryToBuild d.pAreaData r fd = some (some factory, fd') → (r.cdef factory).mobileId = some id →
          HasUsable mt) := by
  obtain ⟨hlt, rfl⟩ := List.getElem?_eq_some_iff.1 hl
  obtain ⟨hlt', rfl⟩ := List.getElem?_eq_some_iff.1 hmt
  obtain ⟨hdesc, hflag⟩ := (h.inv hfew).mobileType.get hlt hlt'
  have htruthful := truthful_iff hdesc hflag
  refine ⟨hasUsable_iff hdesc, htruthful, fun hlasting r fd fd' factory hfac hid => ?_⟩
  obtain ⟨mt, hmt', hu⟩ := getFactoryToBuild_flagged hfac id hid
  cases hmt.symm.trans hmt'
  exact (htruthful.2 hlasting).1 hu

/-! ## A channel and a flood -/

/-- A channel is dug through the middle of the land, and filled again. -/
theorem typeUsable_truthful_strait : ∃ mt, straitRun.pAreaData.mobileType = [mt] ∧
    mt.area.map (·.sector.card) = [21] ∧ mt.typeUsable = true ∧ Truthful mt := by
  have hrun : Run strait [tank] [mill] (dug 10, 0) [(dug 10, 0), (dug (-50), 0)] straitRun := .update _ (.update _ .init)
  have hfew (earlier : List Maps) : ∀ l ∈ [tank], Few strait (passable strait (dug 10, 0) l earlier) := fun l _ =>
    few_of_card (lt_of_le_of_lt (Finset.card_le_card (Finset.filter_subset _ _)) (by decide))
  obtain ⟨hlarge, htruthful, -⟩ := typeUsable_truthful hrun (fun earlier _ => hfew earlier)
    (rfl : [tank][0]? = some tank) (rfl : straitRun.pAreaData.mobileType[0]? = some _)
  refine ⟨_, rfl, by decide +kernel, by decide +kernel, htruthful.2 fun _ _ _ => hlarge.1 ?_⟩
  unfold HasUsable
  decide +kernel

def smallMap : Setup := ⟨3, 3, 16, false, false, Areas.smallestSide⟩

def walker : MoveLimits := ⟨1, 1000, -10, false, false⟩

def level (height : ℚ) : Maps := (fun _ => height, fun _ => 0)

def dry : CTerrainData := .init smallMap [walker] [] (level 5).1 (level 5).2

def flooded : CTerrainData := (dry.update smallMap (level (-50)).1 (level (-50)).2).swap

theorem flooded_flagged : Run smallMap [walker] [] (level 5) [level (-50)] flooded ∧
    ∃ mt, flooded.pAreaData.mobileType = [mt] ∧ mt.area.length = 0 ∧ mt.typeUsable = true :=
  ⟨.update _ .init, _, rfl, by decide +kernel, by decide +kernel⟩

end Circuit.Spec.TypeUsability
