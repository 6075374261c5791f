import CircuitAI.Proof.BlockingMap.Present

/-!
# The answers of the fine grid

On a cell that `Init` has not marked, `IsBlocked` and `IsStructed` say which buildings are present there,
whatever the order in which buildings came and went (`run_answers`). The cell's gates start
at zero, so as long as no counter wraps around they are the numbers of reservations
(`CellInv.gate_eq`), and the structure mark is that of the one structure on the cell.
-/

namespace Circuit.Spec.Buildings

open Framework Impl.BlockingMap Impl.TerrainManager List

/-! ## Masks -/

theorem getLsbD_zero (k : Nat) : (0 : SM).getLsbD k = false := BitVec.getLsbD_zero

theorem and_ne_zero_iff {a mask : SM} (hs : spare a = spare 0) :
    a &&& mask ≠ 0 ↔ ∃ type : StructType, a.getLsbD type.toNat ∧ mask.getLsbD type.toNat := by
  constructor
  · intro h
    by_contra hno
    refine h (mask_ext (fun type => ?_) (funext fun k => ?_))
    · rw [BitVec.getLsbD_and, getLsbD_zero, Bool.eq_false_iff, Ne, Bool.and_eq_true]
      exact fun hb => hno ⟨type, hb⟩
    · have hk := congrFun hs k
      simp only [spare, getLsbD_zero] at hk ⊢
      rw [BitVec.getLsbD_and, hk, Bool.false_and]
  · rintro ⟨type, ha, hm⟩ h0
    have := congrArg (·.getLsbD type.toNat) h0
    simp [BitVec.getLsbD_and, ha, hm] at this

theorem getLsbD_eq_true_iff {mask : SM} {type : StructType} :
    mask.getLsbD type.toNat = true ↔ getStructMask type &&& mask ≠ 0 := by
  have hs : spare (getStructMask type) = spare 0 := by
    simpa using spare_or 0 type
  rw [and_ne_zero_iff hs]
  constructor
  · exact fun h => ⟨type, by simp, h⟩
  · rintro ⟨other, ho, hm⟩
    rw [getLsbD_getStructMask, decide_eq_true_eq, StructType.toNat_inj] at ho
    exact ho ▸ hm

/-! ## Cells that start empty -/

theorem zero_gate (type : StructType) : SBlockCell.zero.gate type = ⟨0, false⟩ := by
  simp [SBlockCell.gate, SBlockCell.zero]

section Cell

variable {m₀ m : SBlockingMap} {ts fp : List Take} {i : Nat}

theorem CellInv.gate_eq (h : CellInv m₀ m ts i) (hzero : m₀.grid i = .zero) {type : StructType}
    (hfew : blocks m₀ ts i type < 2 ^ 16) : (m.grid i).gate type = Gate.tally 1 (blocks m₀ ts i type) := by
  have hg := h.gate type
  rw [hzero, zero_gate] at hg
  exact hg.eq_tally (by decide) hfew

theorem blocks_append (type : StructType) :
    blocks m₀ (fp ++ ts) i type = blocks m₀ fp i type + blocks m₀ ts i type := countP_append

theorem CellInv.addAll (hsize : SameSize m₀ m) (h : CellInv m₀ m ts i) (hzero : m₀.grid i = .zero)
    (hin : ∀ t ∈ fp, t.x < m₀.columns ∧ t.z < m₀.rows) (hdist : fp.Pairwise fun t t' => ¬(t.x = t'.x ∧ t.z = t'.z))
    (hfree : ∀ t ∈ fp, t.struct → t.index m₀ = i → structs m₀ ts i = 0)
    (hfew : ∀ type, blocks m₀ (fp ++ ts) i type < 2 ^ 16) : CellInv m₀ (fp.foldl Take.add m) (fp ++ ts) i := by
  induction fp generalizing m ts with
  | nil => exact h
  | cons t fp ih =>
    obtain ⟨hne, hdist⟩ := pairwise_cons.1 hdist
    have hin' : ∀ t' ∈ fp, t'.x < m₀.columns ∧ t'.z < m₀.rows := fun t' ht' => hin t' (mem_cons_of_mem _ ht')
    have hperm : (fp ++ t :: ts).Perm (t :: fp ++ ts) := perm_middle
    have hfew' (type : StructType) : blocks m₀ (fp ++ t :: ts) i type < 2 ^ 16 := by
      rw [blocks, hperm.countP_eq]
      exact hfew type
    have h1 : CellInv m₀ (t.add m) (t :: ts) i := by
      refine h.add hsize (fun hs hi => ⟨hfree t (mem_cons_self ..) hs hi, by rw [hzero]; rfl⟩) fun hs hi => ?_
      subst hi
      have hlt := hfew' t.type
      rw [blocks_append, blocks_cons, if_pos ⟨hs, rfl, rfl⟩] at hlt
      have hgt : t.gate m = (m.grid (t.index m₀)).gate t.type := by
        rw [Take.index, ← hsize.index]
        rfl
      rw [hgt, h.gate_eq hzero (by omega)]
      exact Gate.clean_tally (by omega)
    refine (ih (hsize.step (t.add_changes m)) h1 hin' hdist (fun t' ht' hs' hi' => ?_) hfew').perm hperm
    subst hi'
    rw [structs_cons_of_ne (hin t (mem_cons_self ..)).1 (hin' t' ht').1 (hne t' ht')]
    exact hfree t' (mem_cons_of_mem _ ht') hs' rfl

theorem CellInv.delAll (hsize : SameSize m₀ m) (h : CellInv m₀ m (fp ++ ts) i) :
    CellInv m₀ (fp.foldl Take.del m) ts i := by
  induction fp generalizing m with
  | nil => exact h
  | cons t fp ih => exact ih (hsize.step (t.del_changes m)) (h.del hsize)

end Cell

/-! ## Runs -/

def Fits (blockInfos : BlockInfos) (m₀ : SBlockingMap) (ps : List Present) (_ : SBlockingMap) (b : SStructure) : Prop :=
  (∀ p ∈ ps, Apart blockInfos m₀ b p.building) ∧
    ∀ x z type, reserved blockInfos m₀ (b :: ps.map Present.building) x z type < 2 ^ 16

section Run

variable {blockInfos : BlockInfos} {m₀ m : SBlockingMap} {ps : List Present} {x z : Nat}

theorem blocks_eq_reserved (hx : x < m₀.columns) (bs : List SStructure) (type : StructType) :
    blocks m₀ (bs.flatMap (footprint blockInfos m₀)) (m₀.index x z) type = reserved blockInfos m₀ bs x z type := by
  refine countP_congr fun t ht => ?_
  obtain ⟨b, -, ht⟩ := mem_flatMap.1 ht
  have hi : t.index m₀ = m₀.index x z ↔ t.x = x ∧ t.z = z := index_inj (footprint_inBounds ht).1 hx
  simp only [Bool.and_eq_true, beq_iff_eq, hi, and_assoc]

theorem standing_eq (ps : List Present) :
    standing blockInfos m₀ ps = (ps.map Present.building).flatMap (footprint blockInfos m₀) := by
  rw [standing, flatMap_map]

theorem run_cellInv (hx : x < m₀.columns) (hzero : m₀.cell x z = .zero)
    (h : Run blockInfos m₀ (Fits blockInfos m₀) (fun _ _ => True) ps m) :
    CellInv m₀ m (standing blockInfos m₀ ps) (m₀.index x z) := by
  induction h with
  | start => exact .start m₀ _
  | @add ps m b hrun hok ih =>
    have hsize := run_sameSize hrun
    rw [addBlocker_eq, hsize.footprint]
    refine ih.addAll hsize hzero (fun t ht => footprint_inBounds ht) footprint_pairwise (fun t ht hs hi => ?_)
      fun type => ?_
    · rw [← hi]
      exact structs_standing hok.1 ht hs
    · have := hok.2 x z type
      rw [← blocks_eq_reserved hx, flatMap_cons, ← standing_eq] at this
      exact this
  | @del l₁ l₂ p m hrun _ ih =>
    have hsize := run_sameSize hrun
    rw [delBlocker_eq, hsize.footprint]
    exact CellInv.delAll hsize (ih.perm (standing_perm ..))

theorem run_few (hx : x < m₀.columns) (h : Run blockInfos m₀ (Fits blockInfos m₀) (fun _ _ => True) ps m)
    (type : StructType) : blocks m₀ (standing blockInfos m₀ ps) (m₀.index x z) type < 2 ^ 16 := by
  induction h with
  | start => exact Nat.two_pow_pos 16
  | @add ps m b _ hok ih =>
    have := hok.2 x z type
    rwa [← blocks_eq_reserved hx, flatMap_cons, ← standing_eq] at this
  | @del l₁ l₂ p m _ _ ih =>
    refine lt_of_le_of_lt ?_ ih
    rw [blocks, blocks, (standing_perm ..).countP_eq, countP_append]
    exact Nat.le_add_left _ _

/-! ## Answers -/

def BlockedBy (blockInfos : BlockInfos) (m₀ : SBlockingMap) (ps : List Present) (x z : Nat) (mask : SM) : Prop :=
  (∃ p ∈ ps, ReservedAt blockInfos m₀ mask x z p.building) ∨ ∃ p ∈ ps, StructAt blockInfos m₀ x z p.building

def StructedBy (blockInfos : BlockInfos) (m₀ : SBlockingMap) (ps : List Present) (x z : Nat) (mask : SM) : Prop :=
  ∃ p ∈ ps, StructedAt blockInfos m₀ mask x z p.building

theorem index_standing (hx : x < m₀.columns) {t : Take} (ht : t ∈ standing blockInfos m₀ ps) :
    t.index m₀ = m₀.index x z ↔ t.x = x ∧ t.z = z := by
  obtain ⟨p, -, ht⟩ := mem_standing.1 ht
  exact index_inj (footprint_inBounds ht).1 hx

section

variable (h : CellInv m₀ m (standing blockInfos m₀ ps) (m₀.index x z)) (hx : x < m₀.columns) (hzero : m₀.cell x z = .zero)
include h hx hzero

theorem CellInv.mark_cases : (∃ t ∈ standing blockInfos m₀ ps, t.struct ∧ (t.x = x ∧ t.z = z) ∧
      (m.grid (m₀.index x z)).mark = (t.notIgnoreMask, getStructMask t.type)) ∨
    (∀ t ∈ standing blockInfos m₀ ps, t.struct → ¬(t.x = x ∧ t.z = z)) ∧ (m.grid (m₀.index x z)).mark = (0, 0) := by
  by_cases h0 : structs m₀ (standing blockInfos m₀ ps) (m₀.index x z) = 0
  · refine .inr ⟨fun t ht hs hxz => ?_, ?_⟩
    · exact structs_eq_zero.1 h0 t ht hs ((index_standing hx ht).2 hxz)
    · rw [h.free h0, show m₀.grid (m₀.index x z) = .zero from hzero]
      rfl
  · rw [structs_eq_zero] at h0
    push Not at h0
    obtain ⟨t, ht, hs, hi⟩ := h0
    exact .inl ⟨t, ht, hs, (index_standing hx ht).1 hi, (h.taken t ht hs hi).1⟩

theorem CellInv.blockerMask_iff
    (hfew : ∀ type, blocks m₀ (standing blockInfos m₀ ps) (m₀.index x z) type < 2 ^ 16) (mask : SM) :
    (m.grid (m₀.index x z)).blockerMask &&& mask ≠ 0 ↔ ∃ p ∈ ps, ReservedAt blockInfos m₀ mask x z p.building := by
  have hzero' : m₀.grid (m₀.index x z) = .zero := hzero
  have hs := h.spare
  rw [hzero'] at hs
  have hbit (type : StructType) : (m.grid (m₀.index x z)).blockerMask.getLsbD type.toNat = true ↔
      ∃ t ∈ standing blockInfos m₀ ps, ¬t.struct ∧ (t.x = x ∧ t.z = z) ∧ t.type = type := by
    have hg := congrArg Gate.flag (h.gate_eq hzero' (hfew type))
    have hflag : (m.grid (m₀.index x z)).blockerMask.getLsbD type.toNat =
        decide (1 ≤ blocks m₀ (standing blockInfos m₀ ps) (m₀.index x z) type) := hg
    rw [hflag, decide_eq_true_eq, Nat.one_le_iff_ne_zero, Nat.ne_zero_iff_zero_lt, blocks, countP_pos_iff]
    refine exists_congr fun t => and_congr_right fun ht => ?_
    simp only [Bool.and_eq_true, Bool.not_eq_true', Bool.not_eq_true, beq_iff_eq, index_standing hx ht, and_assoc]
  rw [and_ne_zero_iff hs]
  constructor
  · rintro ⟨type, hb, hm⟩
    obtain ⟨t, ht, hst, hxz, rfl⟩ := (hbit type).1 hb
    obtain ⟨p, hp, ht⟩ := mem_standing.1 ht
    exact ⟨p, hp, t, ht, hxz.1, hxz.2, hst, getLsbD_eq_true_iff.1 hm⟩
  · rintro ⟨p, hp, t, ht, hx', hz', hst, hm⟩
    exact ⟨t.type, (hbit t.type).2 ⟨t, mem_standing.2 ⟨p, hp, ht⟩, hst, ⟨hx', hz'⟩, rfl⟩, getLsbD_eq_true_iff.2 hm⟩

theorem CellInv.structMask_iff :
    (m.grid (m₀.index x z)).structMask ≠ 0 ↔ ∃ p ∈ ps, StructAt blockInfos m₀ x z p.building := by
  rcases h.mark_cases hx hzero with ⟨t, ht, hs, ⟨hx', hz'⟩, hm⟩ | ⟨hno, hm⟩
  · obtain ⟨p, hp, ht⟩ := mem_standing.1 ht
    rw [show (m.grid (m₀.index x z)).structMask = getStructMask t.type from congrArg Prod.snd hm]
    exact iff_of_true (getStructMask_ne_zero _) ⟨p, hp, t, ht, hs, hx', hz'⟩
  · rw [show (m.grid (m₀.index x z)).structMask = 0 from congrArg Prod.snd hm]
    refine iff_of_false (fun h => h rfl) ?_
    rintro ⟨p, hp, t, ht, hs, hxz⟩
    exact hno t (mem_standing.2 ⟨p, hp, ht⟩) hs hxz

theorem CellInv.notIgnoreMask_iff (mask : SM) :
    (m.grid (m₀.index x z)).notIgnoreMask &&& mask ≠ 0 ↔ StructedBy blockInfos m₀ ps x z mask := by
  rcases h.mark_cases hx hzero with ⟨t, ht, hs, hxz, hm⟩ | ⟨hno, hm⟩
  · rw [show (m.grid (m₀.index x z)).notIgnoreMask = t.notIgnoreMask from congrArg Prod.fst hm]
    constructor
    · intro hne
      obtain ⟨p, hp, ht⟩ := mem_standing.1 ht
      exact ⟨p, hp, t, ht, hxz.1, hxz.2, hs, hne⟩
    · rintro ⟨p', hp', t', ht', hx', hz', hs', hne⟩
      have hmem := mem_standing.2 ⟨p', hp', ht'⟩
      have hm' := (h.taken t' hmem hs' ((index_standing hx hmem).2 ⟨hx', hz'⟩)).1
      rwa [show t.notIgnoreMask = t'.notIgnoreMask from congrArg Prod.fst (hm.symm.trans hm')]
  · rw [show (m.grid (m₀.index x z)).notIgnoreMask = 0 from congrArg Prod.fst hm]
    refine iff_of_false (fun h => h (by simp)) ?_
    rintro ⟨p, hp, t, ht, hx', hz', hs, -⟩
    exact hno t (mem_standing.2 ⟨p, hp, ht⟩) hs ⟨hx', hz'⟩

end

theorem run_answers_cell (hx : x < m₀.columns) (hzero : m₀.cell x z = .zero)
    (h : Run blockInfos m₀ (Fits blockInfos m₀) (fun _ _ => True) ps m) (mask : SM) :
    (m.isBlocked x z mask ↔ BlockedBy blockInfos m₀ ps x z mask) ∧
      (m.isStructed x z mask ↔ StructedBy blockInfos m₀ ps x z mask) := by
  have hcell := run_cellInv hx hzero h
  have hidx : m.cell x z = m.grid (m₀.index x z) := congrArg m.grid ((run_sameSize h).index x z)
  constructor
  · simp only [SBlockingMap.isBlocked, hidx, Bool.or_eq_true, bne_iff_ne]
    exact or_congr (hcell.blockerMask_iff hx hzero (run_few hx h) mask) (hcell.structMask_iff hx hzero)
  · simp only [SBlockingMap.isStructed, hidx, bne_iff_ne]
    exact hcell.notIgnoreMask_iff hx hzero mask

end Run

def SameBuildings (ps ps' : List Present) : Prop := ∀ b, (∃ p ∈ ps, p.building = b) ↔ ∃ p ∈ ps', p.building = b

theorem SameBuildings.exists_iff {ps ps' : List Present} (h : SameBuildings ps ps') (P : SStructure → Prop) :
    (∃ p ∈ ps, P p.building) ↔ ∃ p ∈ ps', P p.building := by
  constructor
  · rintro ⟨p, hp, hP⟩
    obtain ⟨p', hp', he⟩ := (h p.building).1 ⟨p, hp, rfl⟩
    exact ⟨p', hp', he ▸ hP⟩
  · rintro ⟨p, hp, hP⟩
    obtain ⟨p', hp', he⟩ := (h p.building).2 ⟨p, hp, rfl⟩
    exact ⟨p', hp', he ▸ hP⟩

/-- What the fine grid answers on a cell `Init` has not marked: the buildings present, and so the same for
any two runs that end with the same buildings. -/
theorem run_answers (s : Setting) {ps : List Present} {m : SBlockingMap}
    (hrun : Run s.blockInfos s.start (Fits s.blockInfos s.start) (fun _ _ => True) ps m)
    {x z : Nat} (hx : x < s.start.columns) (hzero : s.start.cell x z = .zero) (mask : SM) :
    (m.isBlocked x z mask ↔ BlockedBy s.blockInfos s.start ps x z mask) ∧
      (m.isStructed x z mask ↔ StructedBy s.blockInfos s.start ps x z mask) ∧
      ∀ ps' m', Run s.blockInfos s.start (Fits s.blockInfos s.start) (fun _ _ => True) ps' m' → SameBuildings ps ps' →
        m'.isBlocked x z mask = m.isBlocked x z mask ∧ m'.isStructed x z mask = m.isStructed x z mask := by
  obtain ⟨hb, hs⟩ := run_answers_cell hx hzero hrun mask
  refine ⟨hb, hs, fun ps' m' hrun' hsame => ?_⟩
  obtain ⟨hb', hs'⟩ := run_answers_cell hx hzero hrun' mask
  have hblocked : BlockedBy s.blockInfos s.start ps' x z mask ↔ BlockedBy s.blockInfos s.start ps x z mask :=
    or_congr (hsame.exists_iff (ReservedAt _ _ _ _ _)).symm (hsame.exists_iff (StructAt _ _ _ _)).symm
  have hstructed : StructedBy s.blockInfos s.start ps' x z mask ↔ StructedBy s.blockInfos s.start ps x z mask :=
    (hsame.exists_iff (StructedAt _ _ _ _ _)).symm
  exact ⟨Bool.eq_iff_iff.2 (hb'.trans (hblocked.trans hb.symm)),
    Bool.eq_iff_iff.2 (hs'.trans (hstructed.trans hs.symm))⟩

theorem run_answers_generator :
    (addBlocker sample.blockInfos sample.start (sampleBuilding 1 8 8)).isBlocked 9 8 (getStructMask .engyLow) ∧
      ¬(addBlocker sample.blockInfos sample.start (sampleBuilding 1 8 8)).isBlocked 9 8 (getStructMask .nano) := by
  have hzero : sample.start.cell 9 8 = .zero :=
    SBlockCell.ext (by decide +kernel) (by decide +kernel) (by decide +kernel)
      (funext fun type => by cases type <;> decide +kernel)
  have hlen : (footprint sample.blockInfos sample.start (sampleBuilding 1 8 8)).length < 2 ^ 16 := by decide +kernel
  have hfits : Fits sample.blockInfos sample.start [] sample.start (sampleBuilding 1 8 8) := by
    refine ⟨by simp, fun x z type => lt_of_le_of_lt countP_le_length ?_⟩
    simpa using hlen
  have hans := run_answers sample (.add _ .start hfits) (show 9 < sample.start.columns by decide +kernel) hzero
  constructor
  · refine (hans _).1.2 (.inl ⟨_, mem_singleton_self _, ⟨9, 8, .engyLow, ~~~getStructMask .engyLow, false⟩, ?_⟩)
    exact ⟨show _ ∈ footprint sample.blockInfos sample.start (sampleBuilding 1 8 8) by decide +kernel, rfl, rfl,
      by decide, by decide⟩
  · rw [(hans _).1]
    have hno : ¬∃ t ∈ footprint sample.blockInfos sample.start (sampleBuilding 1 8 8),
        t.x = 9 ∧ t.z = 8 ∧ (t.struct ∨ getStructMask t.type &&& getStructMask .nano ≠ 0) := by decide +kernel
    rintro (⟨p, hp, t, ht, hx, hz, -, hm⟩ | ⟨p, hp, t, ht, hs, hx, hz⟩)
    · rw [mem_singleton.1 hp] at ht
      exact hno ⟨t, ht, hx, hz, .inr hm⟩
    · rw [mem_singleton.1 hp] at ht
      exact hno ⟨t, ht, hx, hz, .inl hs⟩

end Circuit.Spec.Buildings
