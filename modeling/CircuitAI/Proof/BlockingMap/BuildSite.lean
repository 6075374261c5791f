import CircuitAI.Proof.BlockingMap.Present
import Mathlib.Data.Rat.Floor
import Mathlib.Tactic.Positivity

/-!
# Sites of the search

A site the search returns is free: the cells on which a building marked there stands lie on the map and
carried no structure mark (`findBuildSite_open`). The search works in offsets from a corner and
marking computes the corner anew from the returned position; `corner_centre` says that the two agree.
Since a structure mark stands for a building present (`StructInv`), buildings placed at such sites never
share a cell.
-/

namespace Circuit.Spec.Buildings

open Framework Impl.BlockingMap Impl.TerrainManager List

/-! ## Corners -/

variable {pos : AIFloat3} {y : ℚ}

theorem toInt_div {n : Int} (hn : 0 ≤ n) (d : Nat) : toInt ((n : ℚ) / (d : ℚ)) = n / d := by
  have hq : 0 ≤ (n : ℚ) / (d : ℚ) := div_nonneg (by exact_mod_cast hn) (by positivity)
  rw [← Rat.floor_intCast_div_natCast, Rat.floor_def', toInt]
  exact Int.tdiv_eq_ediv_of_nonneg (Rat.num_nonneg.2 hq)

theorem toInt_middle {a : Int} (ha : 0 ≤ a) (n : Nat) :
    toInt ((((a + (a + n)) * squareSize : Int) : ℚ) / ((squareSize * 2 : Nat) : ℚ)) - (n / 2 : Nat) = a := by
  rw [toInt_div (by positivity)]
  simp only [squareSize]
  omega

theorem corner_centre {s1 : Int × Int} (hx : 0 ≤ s1.1) (hz : 0 ≤ s1.2) (size : Nat × Nat)
    (hpx : pos.x = (centre s1 (opposite s1 size) y).x) (hpz : pos.z = (centre s1 (opposite s1 size) y).z) :
    corner pos size = s1 := by
  refine Prod.ext ?_ ?_
  · simp only [corner, hpx]
    exact toInt_middle hx size.1
  · simp only [corner, hpz]
    exact toInt_middle hz size.2

theorem bound_eq {m : SBlockingMap} {r1 r2 : Int × Int} (h : m.isInBounds r1 r2) : m.bound r1 r2 = (r1, r2) := by
  simp only [SBlockingMap.isInBounds, Bool.and_eq_true, decide_eq_true_eq] at h
  simp only [SBlockingMap.bound]
  refine Prod.ext (Prod.ext ?_ ?_) (Prod.ext ?_ ?_) <;> simp only <;> omega

/-! ## What a search returns -/

theorem foldlM_error {α : Type} {f : ℚ → α → Except AIFloat3 ℚ} {l : List α}
    (h : l.foldlM f y = .error pos) : ∃ y' a, f y' a = .error pos := by
  induction l generalizing y with
  | nil => cases h
  | cons a l ih =>
    rw [foldlM_cons] at h
    cases hf : f y a with
    | error p =>
      rw [hf] at h
      exact ⟨y, a, hf.trans h⟩
    | ok y' =>
      rw [hf] at h
      exact ih h

theorem returned_valid {r : Except AIFloat3 ℚ} (h : isValid (returned r)) : r = .error (returned r) := by
  cases r with
  | error pos => rfl
  | ok y => exact absurd h (show ¬isValid noPos = true by decide)

section Search

variable {env : SiteChecks} {m : SBlockingMap} {q : SiteQuery}

theorem accept_error {pos' : AIFloat3} (h : accept env q pos = .error pos') : pos'.x = pos.x ∧ pos'.z = pos.z := by
  unfold accept at h
  split at h
  · dsimp only at h
    split at h
    · cases h
      exact ⟨rfl, rfl⟩
    · cases h
  · cases h

theorem searchFine_error {f : ℚ → Int × Int → Except AIFloat3 ℚ} (h : isValid (searchFine env q f)) :
    ∃ y ofs, f y ofs = .error (searchFine env q f) := foldlM_error (returned_valid h)

theorem searchLow_error {mask : SM} {f : ℚ → Int × Int → Except AIFloat3 ℚ} (h : isValid (searchLow env m q mask f)) :
    ∃ y ofs, f y ofs = .error (searchLow env m q mask f) := by
  obtain ⟨y, e, he⟩ := foldlM_error (returned_valid h)
  unfold probeLow at he
  dsimp only at he
  split at he
  · cases he
  · split at he
    · cases he
    · exact foldlM_error he

theorem probe_error {ofs : Int × Int} (h : probe env m q y ofs = .error pos) :
    ∃ s1, m.isInBounds s1 (opposite s1 (q.cdef.size q.facing)) ∧
      isOpenSite m s1 (opposite s1 (q.cdef.size q.facing)) ∧ corner pos (q.cdef.size q.facing) = s1 := by
  unfold probe at h
  dsimp only at h
  split at h
  · cases h
  · rename_i hok
    simp only [Bool.or_eq_true, Bool.not_eq_true', not_or, Bool.not_eq_false] at hok
    split at h
    · obtain ⟨hx, hz⟩ := accept_error h
      have hin := hok.1
      simp only [SBlockingMap.isInBounds, Bool.and_eq_true, decide_eq_true_eq] at hin
      exact ⟨_, hok.1, hok.2, corner_centre hin.1.1.1 hin.1.1.2 _ hx hz⟩
    · cases h

theorem probeByMask_error {k : IBlockMask} {ofs : Int × Int} (h : probeByMask env m q k y ofs = .error pos) :
    isOpenMask m q k (corner pos (q.cdef.sizeByMask q.facing) - k.getStructOffset q.facing) := by
  unfold probeByMask at h
  dsimp only at h
  split at h
  · cases h
  · rename_i hin
    split at h
    · cases h
    · split at h
      · cases h
      · rename_i hopen
        simp only [Bool.not_eq_true', Bool.not_eq_false, SBlockingMap.isInBounds, Bool.and_eq_true,
          decide_eq_true_eq] at hin hopen
        obtain ⟨hx, hz⟩ := accept_error h
        rw [corner_centre hin.1.1.1 hin.1.1.2 _ hx hz, ← sub_add_eq_add_sub]
        exact hopen

theorem structMask_of_not_blocked {x z : Nat} {mask : SM} (h : m.isBlocked x z mask = false) :
    (m.cell x z).structMask = 0 := by
  simp only [SBlockingMap.isBlocked, Bool.or_eq_false_iff, bne_eq_false_iff_eq] at h
  exact h.2

theorem structMask_of_isOpenSite {s1 s2 : Int × Int} (hin : m.isInBounds s1 s2) (h : isOpenSite m s1 s2) {c : Nat × Nat}
    (hc : c ∈ columnCells s1 s2) : (m.cell c.1 c.2).structMask = 0 := by
  simp only [SBlockingMap.isInBounds, Bool.and_eq_true, decide_eq_true_eq] at hin
  have hrow : c ∈ rowCells s1 s2 := (mem_rowCells hin.1.1.1 hin.1.1.2).2 ((mem_columnCells hin.1.1.1 hin.1.1.2).1 hc)
  have hopen := all_eq_true.1 h c hrow
  rw [Bool.not_eq_true'] at hopen
  exact structMask_of_not_blocked hopen

end Search

def siteOf (blockInfos : BlockInfos) (env : SiteChecks) (m : SBlockingMap) (q : SiteQuery) : SStructure :=
  ⟨q.cdef, findBuildSite env m q blockInfos, q.facing⟩

theorem findBuildSite_open {blockInfos : BlockInfos} {env : SiteChecks} {m : SBlockingMap} {q : SiteQuery}
    (h : isValid (findBuildSite env m q blockInfos)) {t : Take}
    (ht : t ∈ footprint blockInfos m (siteOf blockInfos env m q)) (hs : t.struct) :
    (m.cell t.x t.z).structMask = 0 := by
  cases hinfo : blockInfos q.cdef.id with
  | none =>
    have hprobe : ∃ y ofs, probe env m q y ofs = .error (findBuildSite env m q blockInfos) := by
      simp only [findBuildSite, hinfo] at h ⊢
      split at h
      · rename_i hr
        rw [if_pos hr]
        exact searchLow_error h
      · rename_i hr
        rw [if_neg hr]
        exact searchFine_error h
    obtain ⟨y, ofs, he⟩ := hprobe
    obtain ⟨s1, hin, hopen, hcorner⟩ := probe_error he
    simp only [footprint, siteOf, hinfo, hcorner, bound_eq hin, mem_map] at ht
    obtain ⟨c, hc, rfl⟩ := ht
    exact structMask_of_isOpenSite hin hopen hc
  | some k =>
    have hprobe : ∃ y ofs, probeByMask env m q k y ofs = .error (findBuildSite env m q blockInfos) := by
      simp only [findBuildSite, hinfo, findBuildSiteByMask] at h ⊢
      split at h
      · rename_i hr
        rw [if_pos hr]
        exact searchLow_error h
      · rename_i hr
        rw [if_neg hr]
        exact searchFine_error h
    obtain ⟨y, ofs, he⟩ := hprobe
    have hopen := probeByMask_error he
    simp only [footprint, siteOf, hinfo, mem_filterMap] at ht
    obtain ⟨c, hc, ht⟩ := ht
    obtain ⟨hx, hz⟩ := maskTake_place ht
    have hcell := all_eq_true.1 hopen c hc
    -- of the three kinds of cells only a structure cell is a structure take
    cases htype : k.getType q.facing
        (c.1 - (corner (findBuildSite env m q blockInfos) (q.cdef.sizeByMask q.facing) -
          k.getStructOffset q.facing).1)
        (c.2 - (corner (findBuildSite env m q blockInfos) (q.cdef.sizeByMask q.facing) -
          k.getStructOffset q.facing).2) with
    | opn => rw [htype] at ht; cases ht
    | block => rw [htype] at ht; cases ht; cases hs
    | struct =>
      rw [htype, isOpenCell, Bool.not_eq_true'] at hcell
      rw [hx, hz]
      exact structMask_of_not_blocked hcell

/-! ## Structure marks stand for buildings -/

structure StructInv (m₀ m : SBlockingMap) (ts : List Take) (i : Nat) : Prop where
  structs_le : structs m₀ ts i ≤ 1
  mark_iff : (m.grid i).structMask ≠ 0 ↔ structs m₀ ts i ≠ 0

namespace StructInv

variable {m₀ m : SBlockingMap} {ts ts' fp : List Take} {t : Take} {i : Nat}

theorem perm (h : StructInv m₀ m ts i) (hp : ts.Perm ts') : StructInv m₀ m ts' i := by
  have he : structs m₀ ts' i = structs m₀ ts i := hp.symm.countP_eq _
  exact ⟨he ▸ h.structs_le, he ▸ h.mark_iff⟩

theorem add (hsize : SameSize m₀ m) (h : StructInv m₀ m ts i)
    (hfree : t.struct → t.index m₀ = i → structs m₀ ts i = 0) : StructInv m₀ (t.add m) (t :: ts) i := by
  have hmask := hsize.structMask_eq (t.add_changes m) i
  have hcons : structs m₀ (t :: ts) i = _ := structs_cons
  by_cases hi : i = t.index m₀
  · rw [if_pos (show i = m₀.index t.x t.z from hi)] at hmask
    by_cases hs : t.struct
    · rw [if_pos ⟨hs, hi.symm⟩, hfree hs hi.symm] at hcons
      rw [if_pos hs] at hmask
      refine ⟨hcons.le, ?_⟩
      rw [hmask, hcons]
      exact iff_of_true (getStructMask_ne_zero _) (by decide)
    · rw [if_neg (fun hh => hs hh.1), Nat.add_zero] at hcons
      rw [if_neg hs, show t.index m = i from (hsize.index t.x t.z).trans hi.symm] at hmask
      refine ⟨hcons ▸ h.structs_le, ?_⟩
      rw [hmask, hcons]
      exact h.mark_iff
  · rw [if_neg (fun hh => hi hh.2.symm), Nat.add_zero] at hcons
    rw [if_neg (show i ≠ m₀.index t.x t.z from hi)] at hmask
    refine ⟨hcons ▸ h.structs_le, ?_⟩
    rw [hmask, hcons]
    exact h.mark_iff

theorem del (hsize : SameSize m₀ m) (h : StructInv m₀ m (t :: ts) i) : StructInv m₀ (t.del m) ts i := by
  have hmask := hsize.structMask_eq (t.del_changes m) i
  obtain ⟨hle, hiff⟩ := h
  rw [structs_cons] at hle hiff
  by_cases hi : i = t.index m₀
  · rw [if_pos (show i = m₀.index t.x t.z from hi)] at hmask
    by_cases hs : t.struct
    · rw [if_pos ⟨hs, hi.symm⟩] at hle
      rw [if_pos hs] at hmask
      refine ⟨by omega, ?_⟩
      rw [hmask]
      exact iff_of_false (fun hn => hn rfl) (by omega)
    · rw [if_neg (fun hh => hs hh.1), Nat.add_zero] at hle hiff
      rw [if_neg hs, show t.index m = i from (hsize.index t.x t.z).trans hi.symm] at hmask
      exact ⟨hle, hmask ▸ hiff⟩
  · rw [if_neg (fun hh => hi hh.2.symm), Nat.add_zero] at hle hiff
    rw [if_neg (show i ≠ m₀.index t.x t.z from hi)] at hmask
    exact ⟨hle, hmask ▸ hiff⟩

theorem addAll (hsize : SameSize m₀ m) (h : StructInv m₀ m ts i) (hin : ∀ t ∈ fp, t.x < m₀.columns ∧ t.z < m₀.rows)
    (hdist : fp.Pairwise fun t t' => ¬(t.x = t'.x ∧ t.z = t'.z))
    (hfree : ∀ t ∈ fp, t.struct → t.index m₀ = i → structs m₀ ts i = 0) :
    StructInv m₀ (fp.foldl Take.add m) (fp ++ ts) i := by
  induction fp generalizing m ts with
  | nil => exact h
  | cons t fp ih =>
    obtain ⟨hne, hdist⟩ := pairwise_cons.1 hdist
    have hin' : ∀ t' ∈ fp, t'.x < m₀.columns ∧ t'.z < m₀.rows := fun t' ht' => hin t' (mem_cons_of_mem _ ht')
    have h1 := h.add hsize (hfree t (mem_cons_self ..))
    refine (ih (hsize.step (t.add_changes m)) h1 hin' hdist fun t' ht' hs' hi' => ?_).perm perm_middle
    subst hi'
    rw [structs_cons_of_ne (hin t (mem_cons_self ..)).1 (hin' t' ht').1 (hne t' ht')]
    exact hfree t' (mem_cons_of_mem _ ht') hs' rfl

theorem delAll (hsize : SameSize m₀ m) (h : StructInv m₀ m (fp ++ ts) i) : StructInv m₀ (fp.foldl Take.del m) ts i := by
  induction fp generalizing m with
  | nil => exact h
  | cons t fp ih => exact ih (hsize.step (t.del_changes m)) (h.del hsize)

end StructInv

/-! ## Runs at returned sites -/

def AtSite (blockInfos : BlockInfos) (_ : List Present) (m : SBlockingMap) (b : SStructure) : Prop :=
  ∃ env q, isValid (findBuildSite env m q blockInfos) ∧ b = siteOf blockInfos env m q

section Run

variable {blockInfos : BlockInfos} {m₀ m : SBlockingMap} {ps : List Present}

theorem AtSite.free {b : SStructure} (hsize : SameSize m₀ m) (hok : AtSite blockInfos ps m b)
    (hinv : ∀ i, StructInv m₀ m (standing blockInfos m₀ ps) i) {t : Take} (ht : t ∈ footprint blockInfos m₀ b)
    (hs : t.struct) : structs m₀ (standing blockInfos m₀ ps) (t.index m₀) = 0 := by
  obtain ⟨env, q, hvalid, rfl⟩ := hok
  rw [← hsize.footprint] at ht
  have hopen := findBuildSite_open hvalid ht hs
  by_contra hne
  refine (hinv (t.index m₀)).mark_iff.2 hne ?_
  rw [← hopen, SBlockingMap.cell, hsize.index]
  rfl

theorem run_structInv (hbare : Bare m₀) (h : Run blockInfos m₀ (AtSite blockInfos) (fun _ _ => True) ps m) (i : Nat) :
    StructInv m₀ m (standing blockInfos m₀ ps) i := by
  induction h generalizing i with
  | start => exact ⟨Nat.zero_le _, iff_of_false (fun hn => hn (hbare i)) (fun hn => hn rfl)⟩
  | @add ps m b hrun hok ih =>
    have hsize := run_sameSize hrun
    rw [addBlocker_eq, hsize.footprint]
    refine (ih i).addAll hsize (fun t ht => footprint_inBounds ht) footprint_pairwise fun t ht hs hi => ?_
    rw [← hi]
    exact hok.free hsize ih ht hs
  | @del l₁ l₂ p m hrun _ ih =>
    have hsize := run_sameSize hrun
    rw [delBlocker_eq, hsize.footprint]
    exact StructInv.delAll hsize ((ih i).perm (standing_perm ..))

theorem run_apart (hbare : Bare m₀) (h : Run blockInfos m₀ (AtSite blockInfos) (fun _ _ => True) ps m) :
    ps.Pairwise fun p p' => Apart blockInfos m₀ p.building p'.building := by
  induction h with
  | start => exact .nil
  | @add ps m b hrun hok ih =>
    refine .cons (fun p hp t ht t' ht' hs hs' hxz => ?_) ih
    have hfree := hok.free (run_sameSize hrun) (run_structInv hbare hrun) ht hs
    refine structs_eq_zero.1 hfree t' (mem_standing.2 ⟨p, hp, ht'⟩) hs' ?_
    rw [Take.index, Take.index, hxz.1, hxz.2]
  | del l₁ l₂ _ _ ih => exact ih.sublist (List.Sublist.append_left (sublist_cons_self ..) l₁)

end Run

/-- A returned site is free: every structure cell of a building marked there is on the map and carried no
structure mark. So buildings added at returned sites only never share a cell. -/
theorem findBuildSite_ok (s : Setting) :
    (∀ (env : SiteChecks) (m : SBlockingMap) (q : SiteQuery), isValid (findBuildSite env m q s.blockInfos) →
      ∀ t ∈ footprint s.blockInfos m (siteOf s.blockInfos env m q), t.struct →
        t.x < m.columns ∧ t.z < m.rows ∧ (m.cell t.x t.z).structMask = 0) ∧
    ∀ ps m, Run s.blockInfos s.start (AtSite s.blockInfos) (fun _ _ => True) ps m →
      ps.Pairwise fun p p' => Apart s.blockInfos s.start p.building p'.building := by
  refine ⟨fun env m q hvalid t ht hs => ?_, fun ps m hrun => run_apart s.bare hrun⟩
  obtain ⟨hx, hz⟩ := footprint_inBounds ht
  exact ⟨hx, hz, findBuildSite_open hvalid ht hs⟩

def openGround : SiteChecks where
  canBeBuiltAtSafe _ _ := true
  isPossibleToBuildAt _ _ _ := true
  getElevationAt _ _ := 0
  searchOffsets _ := [(0, 0), (1, 0)]
  searchOffsetsLow _ := []

def generatorQuery : SiteQuery := ⟨⟨1, 2, 2⟩, (sampleBuilding 1 3 3).pos, 32, 0, fun _ => true⟩

/-- After a generator was placed at the first site, the second goes to the cell next to it. -/
theorem findBuildSite_ok_generators : isValid (findBuildSite openGround sample.start generatorQuery sample.blockInfos) ∧
    ∃ ps m, Run sample.blockInfos sample.start (AtSite sample.blockInfos) (fun _ _ => True) ps m ∧
      ps.map (·.building.pos.x) = [4 * 16 + 8, 3 * 16 + 8] ∧
      ps.Pairwise fun p p' => Apart sample.blockInfos sample.start p.building p'.building := by
  have h1 : isValid (findBuildSite openGround sample.start generatorQuery sample.blockInfos) := by decide +kernel
  have hb1 : siteOf sample.blockInfos openGround sample.start generatorQuery = sampleBuilding 1 3 3 := by
    decide +kernel
  have h2 : isValid (findBuildSite openGround (addBlocker sample.blockInfos sample.start (sampleBuilding 1 3 3))
      generatorQuery sample.blockInfos) := by decide +kernel
  have hb2 : siteOf sample.blockInfos openGround (addBlocker sample.blockInfos sample.start (sampleBuilding 1 3 3))
      generatorQuery = sampleBuilding 1 4 3 := by decide +kernel
  have hrun : Run sample.blockInfos sample.start (AtSite sample.blockInfos) (fun _ _ => True) _ _ :=
    .add (sampleBuilding 1 4 3) (.add (sampleBuilding 1 3 3) .start ⟨openGround, generatorQuery, h1, hb1.symm⟩)
      ⟨openGround, generatorQuery, h2, hb2.symm⟩
  exact ⟨h1, _, _, hrun, by decide +kernel, (findBuildSite_ok sample).2 _ _ hrun⟩

end Circuit.Spec.Buildings
