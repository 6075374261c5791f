import CircuitAI.Proof.BlockingMap.Present

/-!
# Adding and removing buildings cancels

A removal undoes its addition on both grids if the structure was put on cells that `Init` had not marked, each of its
cells has a zero count when the structure goes exactly if it had one when it came, and no counter has wrapped around; each
of these can fail. The coarse gates follow the fine ones through `part`: what one cell contributes to its square.
-/

namespace Circuit.Spec.Buildings

open Framework Impl.BlockingMap Impl.TerrainManager List

/-! ## Conditions on a step -/

def Take.count (m : SBlockingMap) (t : Take) : BitVec 16 := (m.cell t.x t.z).blockerCounts t.type

def Take.AddOk (m : SBlockingMap) (t : Take) : Prop :=
  (t.struct → (m.cell t.x t.z).notIgnoreMask = 0) ∧
  (¬t.struct → t.count m = 0 → (m.cell t.x t.z).blockerMask.getLsbD t.type.toNat = false) ∧
  (t.count m = 0 → (m.gridLow (m.indexLow t.x t.z)).blockerCounts t.type + 1 = blockThreshold →
    (m.gridLow (m.indexLow t.x t.z)).blockerMask.getLsbD t.type.toNat = false)

def Take.DelOk (before m : SBlockingMap) (t : Take) : Prop := t.struct → (t.count m = 0 ↔ t.count before = 0)

def AddsOk (m : SBlockingMap) : List Take → Prop
  | [] => True
  | t :: ts => t.AddOk m ∧ AddsOk (t.add m) ts

instance (m : SBlockingMap) (t : Take) : Decidable (t.AddOk m) := inferInstanceAs (Decidable (_ ∧ _ ∧ _))

instance (before m : SBlockingMap) (t : Take) : Decidable (t.DelOk before m) := inferInstanceAs (Decidable (_ → _))

instance AddsOk.decide : (m : SBlockingMap) → (ts : List Take) → Decidable (AddsOk m ts)
  | _, [] => .isTrue trivial
  | m, t :: ts => @instDecidableAnd _ _ _ (AddsOk.decide (t.add m) ts)

def DelsOk (before m : SBlockingMap) : List Take → Prop
  | [] => True
  | t :: ts => t.DelOk before m ∧ DelsOk before (t.del m) ts

instance DelsOk.decide (before : SBlockingMap) : (m : SBlockingMap) → (ts : List Take) → Decidable (DelsOk before m ts)
  | _, [] => .isTrue trivial
  | m, t :: ts => @instDecidableAnd _ _ _ (DelsOk.decide before (t.del m) ts)

/-! ## What a cell contributes to its square -/

def counted (m₀ : SBlockingMap) (ts : List (Take × Bool)) (i : Nat) (type : StructType) : ℕ :=
  ts.countP fun t => t.1.struct && t.2 && t.1.index m₀ == i && t.1.type == type

def part (m₀ : SBlockingMap) (ts : List (Take × Bool)) (type : StructType) (c : Nat × Nat) : ℕ :=
  Gate.raises 1 ((m₀.grid (m₀.index c.1 c.2)).gate type) (blocks m₀ (ts.map Prod.fst) (m₀.index c.1 c.2) type) +
    counted m₀ ts (m₀.index c.1 c.2) type

def Take.contributes (t : Take) (tag : Bool) (g : Gate 16) : Bool := if t.struct then tag else g.count == 0

section Total

variable {m₀ : SBlockingMap} {ts : List (Take × Bool)} {t : Take} {tag : Bool} {g : Gate 16}

theorem part_nil (m₀ : SBlockingMap) (type : StructType) (c : Nat × Nat) : part m₀ [] type c = 0 := rfl

theorem counted_cons (i : Nat) (type : StructType) : counted m₀ ((t, tag) :: ts) i type =
      counted m₀ ts i type + if t.struct ∧ tag ∧ t.index m₀ = i ∧ t.type = type then 1 else 0 := by
  simp only [counted, countP_cons, Bool.and_eq_true, beq_iff_eq, and_assoc]

theorem part_cons_self (hg : Gate.At 1 ((m₀.grid (t.index m₀)).gate t.type)
      (blocks m₀ (ts.map Prod.fst) (t.index m₀) t.type) g) : part m₀ ((t, tag) :: ts) t.type (t.x, t.z) =
      part m₀ ts t.type (t.x, t.z) + if t.contributes tag g then 1 else 0 := by
  unfold part
  rw [show m₀.index (t.x, t.z).1 (t.x, t.z).2 = t.index m₀ from rfl, map_cons, blocks_cons, counted_cons]
  by_cases hs : t.struct
  · simp [Take.contributes, hs, Nat.add_assoc]
  · have hiff : g.count + 1 = 1 ↔ t.contributes tag g := by
      simp only [Take.contributes, hs, Bool.false_eq_true, if_false, beq_iff_eq]
      bv_omega
    rw [if_pos ⟨hs, rfl, rfl⟩, hg.raises_succ]
    simp only [hiff, hs, Bool.false_eq_true, false_and, if_false]
    omega

theorem part_cons_of_ne {type : StructType} {c : Nat × Nat}
    (h : ¬(t.index m₀ = m₀.index c.1 c.2 ∧ t.type = type)) : part m₀ ((t, tag) :: ts) type c = part m₀ ts type c := by
  unfold part
  rw [map_cons, blocks_cons, counted_cons, if_neg (fun hh => h hh.2), if_neg (fun hh => h hh.2.2)]
  rfl

theorem total_part_cons (hx : t.x < m₀.columns) (hz : t.z < m₀.rows)
    (hg : Gate.At 1 ((m₀.grid (t.index m₀)).gate t.type) (blocks m₀ (ts.map Prod.fst) (t.index m₀) t.type) g)
    (type : StructType) (j : Nat) : total (cells m₀) (square m₀) (part m₀ ((t, tag) :: ts) type) j =
      total (cells m₀) (square m₀) (part m₀ ts type) j +
        if (j = m₀.indexLow t.x t.z ∧ type = t.type) ∧ t.contributes tag g then 1 else 0 := by
  have hmem : (t.x, t.z) ∈ cells m₀ := mem_cells.2 ⟨hx, hz⟩
  have hother : ∀ c ∈ cells m₀, c ≠ (t.x, t.z) → t.index m₀ ≠ m₀.index c.1 c.2 := fun c hc hne he =>
    hne (eq_of_index hc hx he.symm)
  by_cases ht : type = t.type
  · subst ht
    by_cases hc : t.contributes tag g
    · have hself : part m₀ ((t, tag) :: ts) t.type (t.x, t.z) = part m₀ ts t.type (t.x, t.z) + 1 := by
        rw [part_cons_self hg, if_pos hc]
      rw [total_succ hmem hself fun c hc' hne => part_cons_of_ne fun h => hother c hc' hne h.1]
      show _ + (if m₀.indexLow t.x t.z = j then 1 else 0) = _
      by_cases hj : j = m₀.indexLow t.x t.z
      · rw [if_pos hj.symm, if_pos ⟨⟨hj, rfl⟩, hc⟩]
      · rw [if_neg (Ne.symm hj), if_neg (fun h => hj h.1.1)]
    · rw [if_neg (fun h => hc h.2)]
      refine total_congr (fun c hc' => ?_) j
      by_cases hne : c = (t.x, t.z)
      · rw [hne, part_cons_self hg, if_neg hc, Nat.add_zero]
      · exact part_cons_of_ne fun h => hother c hc' hne h.1
  · rw [if_neg (fun h => ht h.1.2)]
    exact total_congr (fun c _ => part_cons_of_ne fun h => ht h.2.symm) j

end Total

/-! ## The invariant -/

structure MapInv (m₀ m : SBlockingMap) (ts : List (Take × Bool)) : Prop where
  size : SameSize m₀ m
  inBounds : ∀ t ∈ ts, t.1.x < m₀.columns ∧ t.1.z < m₀.rows
  cell (i : Nat) : CellInv m₀ m (ts.map Prod.fst) i
  low (j : Nat) (type : StructType) : Gate.At blockThreshold ((m₀.gridLow j).gate type)
    (total (cells m₀) (square m₀) (part m₀ ts type) j) ((m.gridLow j).gate type)
  spareLow (j : Nat) : spare (m.gridLow j).blockerMask = spare (m₀.gridLow j).blockerMask

namespace MapInv

variable {m₀ m : SBlockingMap} {ts ts' : List (Take × Bool)} {t : Take} {tag : Bool}

theorem start (m₀ : SBlockingMap) : MapInv m₀ m₀ [] where
  size := .refl m₀
  inBounds t h := by simp at h
  cell := CellInv.start m₀
  low j type := by
    rw [total_zero (part_nil m₀ type)]
    exact .zero
  spareLow _ := rfl

theorem eq_of_nil (h : MapInv m₀ m []) : m = m₀ := by
  have hlow (j : Nat) (type : StructType) := h.low j type
  simp only [total_zero (part_nil m₀ _)] at hlow
  exact SBlockingMap.eq_of_gate h.size.columns h.size.rows h.size.columnsLow h.size.rowsLow
    (fun i type => ((h.cell i).gate type).zero_eq) (fun i => (h.cell i).free rfl)
    (fun i => (h.cell i).spare)
    (fun j type => (hlow j type).zero_eq) h.spareLow

theorem perm (h : MapInv m₀ m ts) (hp : ts.Perm ts') : MapInv m₀ m ts' where
  size := h.size
  inBounds t ht := h.inBounds t (hp.mem_iff.2 ht)
  cell i := (h.cell i).perm (hp.map _)
  low j type := by
    have hpart : ∀ c, part m₀ ts' type c = part m₀ ts type c := fun c => by
      rw [part, part, blocks, blocks, counted, counted, (hp.map Prod.fst).countP_eq, hp.countP_eq]
    rw [total_congr fun c _ => hpart c]
    exact h.low j type
  spareLow := h.spareLow

theorem gate_eq (hsize : SameSize m₀ m) (t : Take) : t.gate m = (m.grid (t.index m₀)).gate t.type := by
  rw [Take.index, ← hsize.index]
  rfl

theorem gateLow_eq (hsize : SameSize m₀ m) (t : Take) :
    t.gateLow m = (m.gridLow (m₀.indexLow t.x t.z)).gate t.type := by
  rw [← hsize.indexLow]
  rfl

theorem add (h : MapInv m₀ m ts) (hin : t.x < m₀.columns ∧ t.z < m₀.rows)
    (hbare : (m₀.grid (t.index m₀)).structMask = 0)
    (hfree : t.struct → structs m₀ (ts.map Prod.fst) (t.index m₀) = 0) (hok : t.AddOk m) :
    MapInv m₀ (t.add m) ((t, decide (t.count m = 0)) :: ts) := by
  obtain ⟨hmark, hclean, hcleanLow⟩ := hok
  have hc := t.add_changes m
  have hcount : (t.gate m).count = t.count m := rfl
  refine ⟨h.size.step hc, fun t' ht' => ?_, fun i => ?_, fun j type => ?_, fun j => ?_⟩
  · rcases mem_cons.1 ht' with rfl | ht'
    exacts [hin, h.inBounds t' ht']
  · refine (h.cell i).add h.size (fun hs hi => ?_) fun hs _ h1 => hclean hs ?_
    · subst hi
      have hstart := (h.cell (t.index m₀)).free (hfree hs)
      have hcell : m.cell t.x t.z = m.grid (t.index m₀) := congrArg m.grid (h.size.index _ _)
      have hni := hmark hs
      rw [hcell] at hni
      refine ⟨hfree hs, Prod.ext ?_ hbare⟩
      rw [← hstart]
      exact hni
    · rw [hcount] at h1
      bv_omega
  · have hlow := h.low j type
    have hgate := (h.cell (t.index m₀)).gate t.type
    rw [← gate_eq h.size] at hgate
    rw [hc.gateLow, total_part_cons hin.1 hin.2 hgate, h.size.indexLow, gateLow_eq h.size]
    have hcon : t.contributes (decide (t.count m = 0)) (t.gate m) ↔ t.count m = 0 := by
      cases hs : t.struct <;> simp [Take.contributes, hs, hcount]
    simp only [hcount, hcon]
    by_cases hj : j = m₀.indexLow t.x t.z ∧ type = t.type
    · by_cases h0 : t.count m = 0
      · rw [if_pos hj, if_pos h0, if_pos ⟨hj, h0⟩]
        obtain ⟨rfl, rfl⟩ := hj
        refine hlow.succ fun h1 => ?_
        have hl := hcleanLow h0
        rw [h.size.indexLow] at hl
        exact hl h1
      · rw [if_pos hj, if_neg h0, if_neg (fun hh => h0 hh.2)]
        obtain ⟨rfl, rfl⟩ := hj
        exact hlow
    · rw [if_neg hj, if_neg (fun hh => hj hh.1)]
      exact hlow
  · rw [hc.spareLow]
    exact h.spareLow j

theorem del (h : MapInv m₀ m ((t, tag) :: ts)) (hok : t.struct → (t.count m = 0 ↔ tag = true)) :
    MapInv m₀ (t.del m) ts := by
  have hc := t.del_changes m
  have hcount : (t.gate m).count = t.count m := rfl
  obtain ⟨hx, hz⟩ := h.inBounds (t, tag) (mem_cons_self ..)
  have hcell (i : Nat) : CellInv m₀ (t.del m) (ts.map Prod.fst) i := (h.cell i).del h.size
  refine ⟨h.size.step hc, fun t' ht' => h.inBounds t' (mem_cons_of_mem _ ht'), hcell, fun j type => ?_,
    fun j => ?_⟩
  · have hgate := (hcell (t.index m₀)).gate t.type
    have hlow := h.low j type
    rw [total_part_cons hx hz hgate] at hlow
    rw [hc.gateLow, h.size.indexLow, gateLow_eq h.size, hcount]
    -- the square is lowered exactly if the take contributed to it
    have hiff : t.contributes tag (((t.del m).grid (t.index m₀)).gate t.type) ↔
        t.count m = if t.struct then 0 else 1 := by
      by_cases hs : t.struct
      · simp only [Take.contributes, hs, if_true]
        exact (hok hs).symm
      · have hnew := hc.gate (t.index m₀) t.type
        rw [h.size.index, Take.index, if_pos ⟨rfl, rfl⟩, if_neg hs] at hnew
        have hval : (((t.del m).grid (t.index m₀)).gate t.type).count = t.count m - 1 := by
          rw [Take.index, hnew]
          rfl
        simp only [Take.contributes, hs, Bool.false_eq_true, if_false, beq_iff_eq, hval]
        bv_omega
    simp only [hiff] at hlow
    by_cases hj : j = m₀.indexLow t.x t.z ∧ type = t.type
    · by_cases h0 : t.count m = if t.struct then 0 else 1
      · rw [if_pos ⟨hj, h0⟩] at hlow
        rw [if_pos hj, if_pos h0]
        obtain ⟨rfl, rfl⟩ := hj
        exact hlow.down
      · rw [if_neg (fun hh => h0 hh.2)] at hlow
        rw [if_pos hj, if_neg h0]
        obtain ⟨rfl, rfl⟩ := hj
        exact hlow
    · rw [if_neg (fun hh => hj hh.1)] at hlow
      rw [if_neg hj]
      exact hlow
  · rw [hc.spareLow]
    exact h.spareLow j

/-! ## Whole buildings -/

def tagged (before : SBlockingMap) (fp : List Take) : List (Take × Bool) :=
  fp.map fun t => (t, decide (t.count before = 0))

theorem map_fst_tagged (before : SBlockingMap) (fp : List Take) : (tagged before fp).map Prod.fst = fp := by
  rw [tagged, map_map]
  exact map_id fp

theorem tagged_add (hsize : SameSize m₀ m) {fp : List Take} (hx : t.x < m₀.columns)
    (hin : ∀ t' ∈ fp, t'.x < m₀.columns ∧ t'.z < m₀.rows) (hne : ∀ t' ∈ fp, ¬(t.x = t'.x ∧ t.z = t'.z)) :
    tagged (t.add m) fp = tagged m fp := by
  refine map_congr_left fun t' ht' => ?_
  have hsize' := hsize.step (t.add_changes m)
  have hcount : t'.count (t.add m) = t'.count m := by
    show (t'.gate (t.add m)).count = (t'.gate m).count
    rw [gate_eq hsize', gate_eq hsize, (t.add_changes m).gate, hsize.index, if_neg]
    rintro ⟨hi, -⟩
    obtain ⟨h1, h2⟩ := (index_inj (hin t' ht').1 hx).1 hi
    exact hne t' ht' ⟨h1.symm, h2.symm⟩
  rw [hcount]

theorem addAll (hbare : Bare m₀) {fp : List Take} (h : MapInv m₀ m ts)
    (hin : ∀ t ∈ fp, t.x < m₀.columns ∧ t.z < m₀.rows) (hdist : fp.Pairwise fun t t' => ¬(t.x = t'.x ∧ t.z = t'.z))
    (hfree : ∀ t ∈ fp, t.struct → structs m₀ (ts.map Prod.fst) (t.index m₀) = 0) (hok : AddsOk m fp) :
    MapInv m₀ (fp.foldl Take.add m) (tagged m fp ++ ts) := by
  induction fp generalizing m ts with
  | nil => exact h
  | cons t fp ih =>
    obtain ⟨hne, hdist⟩ := pairwise_cons.1 hdist
    have hint := hin t (mem_cons_self ..)
    have hin' : ∀ t' ∈ fp, t'.x < m₀.columns ∧ t'.z < m₀.rows := fun t' ht' => hin t' (mem_cons_of_mem _ ht')
    have h1 := h.add hint (hbare _) (hfree t (mem_cons_self ..)) hok.1
    have h2 := ih h1 hin' hdist (fun t' ht' hs' => ?_) hok.2
    · rw [tagged_add h.size hint.1 hin' hne] at h2
      exact h2.perm perm_middle
    · rw [map_cons, structs_cons_of_ne hint.1 (hin' t' ht').1 (hne t' ht')]
      exact hfree t' (mem_cons_of_mem _ ht') hs'

theorem delAll {before : SBlockingMap} {fp : List Take} (h : MapInv m₀ m (tagged before fp ++ ts))
    (hok : DelsOk before m fp) : MapInv m₀ (fp.foldl Take.del m) ts := by
  induction fp generalizing m with
  | nil => exact h
  | cons t fp ih =>
    refine ih (h.del fun hs => ?_) hok.2
    rw [decide_eq_true_eq]
    exact hok.1 hs

end MapInv

/-! ## Runs -/

def MayAdd (blockInfos : BlockInfos) (m₀ : SBlockingMap) (ps : List Present) (m : SBlockingMap) (b : SStructure) :
    Prop :=
  (∀ p ∈ ps, Apart blockInfos m₀ b p.building) ∧ AddsOk m (footprint blockInfos m₀ b)

def MayDel (blockInfos : BlockInfos) (m₀ : SBlockingMap) (m : SBlockingMap) (p : Present) : Prop :=
  DelsOk p.before m (footprint blockInfos m₀ p.building)

def takes (blockInfos : BlockInfos) (m₀ : SBlockingMap) (ps : List Present) : List (Take × Bool) :=
  ps.flatMap fun p => MapInv.tagged p.before (footprint blockInfos m₀ p.building)

theorem map_fst_takes (blockInfos : BlockInfos) (m₀ : SBlockingMap) (ps : List Present) :
    (takes blockInfos m₀ ps).map Prod.fst = standing blockInfos m₀ ps := by
  simp only [takes, standing, map_flatMap, MapInv.map_fst_tagged]

theorem run_mapInv {blockInfos : BlockInfos} {m₀ : SBlockingMap} (hbare : Bare m₀) {ps : List Present}
    {m : SBlockingMap} (h : Run blockInfos m₀ (MayAdd blockInfos m₀) (MayDel blockInfos m₀) ps m) :
    MapInv m₀ m (takes blockInfos m₀ ps) := by
  induction h with
  | start => exact .start m₀
  | @add ps m b _ hok ih =>
    rw [addBlocker_eq, ih.size.footprint]
    refine ih.addAll hbare (fun t ht => footprint_inBounds ht) footprint_pairwise (fun t ht hs => ?_) hok.2
    rw [map_fst_takes]
    exact structs_standing hok.1 ht hs
  | @del l₁ l₂ p m _ hok ih =>
    rw [delBlocker_eq, ih.size.footprint]
    refine MapInv.delAll (ih.perm ?_) hok
    simp only [takes, flatMap_append, flatMap_cons]
    exact (perm_append_comm_assoc ..)

/-- A run that ends with no building present ends on the map it started from. -/
theorem run_cancels (s : Setting) (m : SBlockingMap)
    (hrun : Run s.blockInfos s.start (MayAdd s.blockInfos s.start) (MayDel s.blockInfos s.start) [] m) : m = s.start :=
  (run_mapInv s.bare hrun).eq_of_nil

/-! ## On the small map -/

theorem run_cancels_generator :
    delBlocker sample.blockInfos (addBlocker sample.blockInfos sample.start (sampleBuilding 1 8 8))
      (sampleBuilding 1 8 8) = sample.start :=
  run_cancels sample _
    (.del [] [] (.add (sampleBuilding 1 8 8) .start
      ⟨by simp, show AddsOk sample.start (footprint sample.blockInfos sample.start (sampleBuilding 1 8 8)) by
        decide +kernel⟩)
      (show DelsOk sample.start (addBlocker sample.blockInfos sample.start (sampleBuilding 1 8 8))
        (footprint sample.blockInfos sample.start (sampleBuilding 1 8 8)) by decide +kernel))

/-- An extractor added on its metal spot and removed takes `Init`'s mark of the spot with it. -/
theorem run_cancels_mex :
    ∃ m, Run sample.blockInfos sample.start (fun ps _ b => ∀ p ∈ ps, Apart sample.blockInfos sample.start b p.building)
      (fun _ _ => True) [] m ∧ m ≠ sample.start := by
  refine ⟨_, .del [] [] (.add (sampleBuilding 0 9 9) .start (by simp)) trivial, fun h => ?_⟩
  have hcell : ((delBlocker sample.blockInfos (addBlocker sample.blockInfos sample.start (sampleBuilding 0 9 9))
      (sampleBuilding 0 9 9)).cell 9 9).notIgnoreMask ≠ (sample.start.cell 9 9).notIgnoreMask := by decide +kernel
  exact hcell (congrArg (fun m => (m.cell 9 9).notIgnoreMask) h)

theorem overlap_miscounted :
    ∃ m, Run sample.blockInfos sample.start (fun ps _ b => ∀ p ∈ ps, Apart sample.blockInfos sample.start b p.building)
      (fun _ _ => True) [] m ∧ (m.gridLow (m.indexLow 7 10)).blockerCounts .engyLow = 1 ∧
        (m.gridLow (m.indexLow 8 10)).blockerCounts .engyLow = 65535 := by
  have hapart : Apart sample.blockInfos sample.start (sampleBuilding 1 8 10) (sampleBuilding 1 7 10) := by decide +kernel
  exact ⟨_, .del [] [] (.del [_] [] (.add (sampleBuilding 1 8 10) (.add (sampleBuilding 1 7 10) .start (by simp))
    (forall_mem_singleton.2 hapart)) trivial) trivial, by decide +kernel, by decide +kernel⟩

end Circuit.Spec.Buildings
