import CircuitAI.Framework.SortedMerge
import CircuitAI.Spec.MetalClusters
import Mathlib.Algebra.Order.Ring.Int
import Mathlib.Tactic.Ring

/-!
# Counters of the metal clusters

* `mergeLoop_eq`: the loop of `MarkAllyMexes` carries out the edits of a sorted merge of the mexes with the previous list;
* `clusterInfos_foldl`: the counters then change by what comes and what goes;
* `filterMap_entry`: since there is one edit for an id, what was recorded stays as it was;
* `Counted.markAllyMexes`, `Counted.setOpenSpot`: so both calls keep the counters exact.
-/

namespace Circuit.Spec.MetalClusters

open Framework Impl.MetalManager List Option

variable {s : State} {metalInfos : List SMetalInfo} {mexes : AllyMexes} {lastFrame : ℤ}

/-! ## The loop as a merge -/

def applyEdit (metalInfos : List SMetalInfo) (out : Output) : Edit AllyMex SMex → Output
  | .add unit => addMex metalInfos out unit
  | .keep _ old => { out with markedMexes := out.markedMexes ++ [old] }
  | .drop old => delMex metalInfos out old

theorem mergeLoop_eq (mexes : List AllyMex) (prevUnits : List SMex) (out : Output) :
    mergeLoop metalInfos mexes prevUnits out =
      (edits AllyMex.id SMex.unitId mexes prevUnits).foldl (applyEdit metalInfos) out := by
  fun_induction mergeLoop metalInfos mexes prevUnits out with
  | case1 prevUnits out =>
    rw [edits, foldl_map]
    rfl
  | case2 out unit mexes =>
    rw [edits_nil, foldl_map]
    rfl
  | case3 out unit mexes old prevUnits hlt ih =>
    rw [ih, edits, if_pos hlt]
    rfl
  | case4 out unit mexes old prevUnits hle hlt ih =>
    rw [ih, edits, if_neg hle, if_pos hlt]
    rfl
  | case5 out unit mexes old prevUnits hle hle' ih =>
    rw [ih, edits, if_neg hle, if_neg hle']
    rfl

def entry : Edit AllyMex SMex → Option SMex
  | .add unit => unit.spot.map fun index => ⟨unit.id, index⟩
  | .keep _ old => some old
  | .drop _ => none

theorem markedMexes_foldl (es : List (Edit AllyMex SMex)) (out : Output) :
    (es.foldl (applyEdit metalInfos) out).markedMexes = out.markedMexes ++ es.filterMap entry := by
  induction es generalizing out with
  | nil => simp
  | cons e es ih =>
    rw [foldl_cons, ih]
    cases e with
    | add unit => cases hspot : unit.spot <;> simp [applyEdit, addMex, entry, hspot]
    | keep _ old => simp [applyEdit, entry]
    | drop old => simp [filterMap_cons, applyEdit, delMex, entry]

theorem getElem?_addFinished (index : ℕ) (n : ℤ) (infos : List SClusterInfo) (c : ℕ) :
    (addFinished metalInfos index n infos)[c]? = infos[c]?.map fun info =>
      { info with finishedCount := info.finishedCount + if clusterOf metalInfos index = c then n else 0 } := by
  unfold addFinished
  by_cases hc : clusterOf metalInfos index = c
  · rw [hc, getElem?_modify_eq]
    simp
  · rw [getElem?_modify_ne _ _ hc]
    simp [hc]

theorem clusterInfos_foldl (es : List (Edit AllyMex SMex)) (out : Output) (c : ℕ) :
    (es.foldl (applyEdit metalInfos) out).clusterInfos[c]? = out.clusterInfos[c]?.map fun info =>
      { info with finishedCount := info.finishedCount + (es.filterMap entry).countP (onCluster metalInfos c) -
          (es.filterMap Edit.old).countP (onCluster metalInfos c) } := by
  induction es generalizing out with
  | nil => simp
  | cons e es ih =>
    rw [foldl_cons, ih]
    cases e with
    | add unit =>
      rw [filterMap_cons_none (f := Edit.old) rfl]
      cases hspot : unit.spot with
      | none => rw [filterMap_cons_none (by simp [entry, hspot])]; simp [applyEdit, addMex, hspot]
      | some index =>
        rw [filterMap_cons_some (b := ⟨unit.id, index⟩) (by simp [entry, hspot]), countP_cons]
        simp only [applyEdit, addMex, hspot, getElem?_addFinished, Option.map_map]
        refine congrArg (Option.map · _) (funext fun info => congrArg (SClusterInfo.mk info.queuedCount) ?_)
        simp only [onCluster, decide_eq_true_eq]
        split_ifs <;> push_cast <;> ring
    | keep unit old =>
      rw [filterMap_cons_some (f := Edit.old) rfl, filterMap_cons_some (f := entry) rfl, countP_cons,
        countP_cons]
      simp only [applyEdit]
      refine congrArg (Option.map · _) (funext fun info => congrArg (SClusterInfo.mk info.queuedCount) ?_)
      push_cast
      ring
    | drop old =>
      rw [filterMap_cons_some (f := Edit.old) rfl, filterMap_cons_none (f := entry) rfl, countP_cons]
      simp only [applyEdit, delMex, getElem?_addFinished, Option.map_map]
      refine congrArg (Option.map · _) (funext fun info => congrArg (SClusterInfo.mk info.queuedCount) ?_)
      simp only [onCluster, decide_eq_true_eq]
      split_ifs <;> push_cast <;> ring

theorem markAllyMexes_of_lt (h : s.markFrame < lastFrame) : s.markAllyMexes lastFrame mexes = { s with
        markFrame := lastFrame
        markedMexes := (edits AllyMex.id SMex.unitId mexes.mexes s.markedMexes).filterMap entry
        clusterInfos := ((edits AllyMex.id SMex.unitId mexes.mexes s.markedMexes).foldl (applyEdit s.metalInfos)
          ⟨[], s.clusterInfos⟩).clusterInfos } := by
  rw [State.markAllyMexes, if_neg (not_le.2 h), mergeLoop_eq]
  dsimp only
  rw [markedMexes_foldl, nil_append]

theorem markAllyMexes_of_le (h : lastFrame ≤ s.markFrame) : s.markAllyMexes lastFrame mexes = s := if_pos h

/-! ## What is recorded -/

theorem find?_eq_some {markedMexes : List SMex} (hsorted : markedMexes.Pairwise fun mex mex' => mex.unitId < mex'.unitId)
    {old : SMex} (hold : old ∈ markedMexes) {id : ℤ} (hid : old.unitId = id) :
    markedMexes.find? (·.unitId == id) = some old := by
  have hnodup : (markedMexes.map SMex.unitId).Nodup := pairwise_map.2 (hsorted.imp ne_of_lt)
  cases hfind : markedMexes.find? (·.unitId == id) with
  | none => exact absurd hid (by simpa using find?_eq_none.1 hfind old hold)
  | some old' =>
    have hid' : old'.unitId = id := by simpa using find?_some hfind
    rw [inj_on_of_nodup_map hnodup (mem_of_find?_eq_some hfind) hold (hid'.trans hid.symm)]

theorem filterMap_entry (hsorted : s.markedMexes.Pairwise fun mex mex' => mex.unitId < mex'.unitId) :
    (edits AllyMex.id SMex.unitId mexes.mexes s.markedMexes).filterMap entry = mexes.mexes.filterMap (recorded s) := by
  have hentry : ∀ e ∈ edits AllyMex.id SMex.unitId mexes.mexes s.markedMexes, entry e = e.new.bind (recorded s) := by
    intro e he
    cases e with
    | add unit =>
      have hnone : s.markedMexes.find? (·.unitId == unit.id) = none :=
        find?_eq_none.2 fun old hold => by simpa using ne_of_add mexes.sorted hsorted he old hold
      simp only [entry, Edit.new, bind_some, recorded, hnone]
    | keep unit old =>
      have hsome : s.markedMexes.find? (·.unitId == unit.id) = some old :=
        find?_eq_some hsorted (mem_of_old he rfl) (key_eq_of_keep he).symm
      simp only [entry, Edit.new, bind_some, recorded, hsome]
    | drop old => rfl
  rw [filterMap_congr hentry, ← filterMap_filterMap, filterMap_new_edits]

theorem unitId_recorded {unit : AllyMex} {mex : SMex} (h : recorded s unit = some mex) : mex.unitId = unit.id := by
  unfold recorded at h
  split at h
  · rename_i old hfind
    cases h
    simpa using find?_some hfind
  · obtain ⟨index, -, rfl⟩ := map_eq_some_iff.1 h
    rfl

theorem pairwise_recorded (mexes : AllyMexes) :
    (mexes.mexes.filterMap (recorded s)).Pairwise fun mex mex' => mex.unitId < mex'.unitId :=
  mexes.sorted.filterMap _ fun u u' hlt mex hmex mex' hmex' => by
    rwa [unitId_recorded hmex, unitId_recorded hmex']

theorem updated (hsorted : s.markedMexes.Pairwise fun mex mex' => mex.unitId < mex'.unitId)
    (hlt : s.markFrame < lastFrame) : Updated s lastFrame mexes := by
  have hlisted : (s.markAllyMexes lastFrame mexes).markedMexes = mexes.mexes.filterMap (recorded s) := by
    rw [markAllyMexes_of_lt hlt]
    exact filterMap_entry hsorted
  refine ⟨hlisted, fun hsame => hlisted.trans (filterMap_congr fun unit hunit => ?_)⟩
  unfold recorded
  cases hfind : s.markedMexes.find? (·.unitId == unit.id) with
  | none => rfl
  | some old =>
    have hid : old.unitId = unit.id := by simpa using find?_some hfind
    rw [hsame unit hunit old (mem_of_find?_eq_some hfind) hid, map_some, ← hid]

/-! ## Counters -/

theorem Counted.markAllyMexes (hs : Counted s) (lastFrame : ℤ) (mexes : AllyMexes) :
    Counted (s.markAllyMexes lastFrame mexes) := by
  rcases lt_or_ge s.markFrame lastFrame with hlt | hle
  · rw [markAllyMexes_of_lt hlt]
    constructor
    · dsimp only
      rw [filterMap_entry hs.sorted]
      exact pairwise_recorded mexes
    · intro c info hinfo
      dsimp only at hinfo ⊢
      rw [clusterInfos_foldl, filterMap_old_edits] at hinfo
      obtain ⟨info', hinfo', rfl⟩ := map_eq_some_iff.1 hinfo
      dsimp only
      rw [hs.finishedCount c info' hinfo']
      ring
    · intro c info hinfo
      dsimp only at hinfo ⊢
      rw [clusterInfos_foldl] at hinfo
      obtain ⟨info', hinfo', rfl⟩ := map_eq_some_iff.1 hinfo
      exact hs.queuedCount c info' hinfo'
  · rw [markAllyMexes_of_le hle]
    exact hs

theorem clusterOf_set {info : SMetalInfo} {index : ℕ} (h : metalInfos[index]? = some info) (value : Bool) (i : ℕ) :
    clusterOf (metalInfos.set index { info with isOpen := value }) i = clusterOf metalInfos i := by
  unfold clusterOf
  rw [getD_eq_getElem?_getD, getD_eq_getElem?_getD]
  by_cases hi : index = i
  · subst hi
    rw [getElem?_set_self (List.getElem?_eq_some_iff.1 h).1, h]
    rfl
  · rw [getElem?_set_ne hi]

theorem countP_isClosed_set {info : SMetalInfo} {index : ℕ} (h : metalInfos[index]? = some info) {value : Bool}
    (hne : info.isOpen ≠ value) (c : ℕ) :
    ((metalInfos.set index { info with isOpen := value }).countP (isClosed c) : ℤ) =
      metalInfos.countP (isClosed c) + if info.clusterId = c then (if value then -1 else 1) else 0 := by
  obtain ⟨hlt, hinfo⟩ := List.getElem?_eq_some_iff.1 h
  have hopen : info.isOpen = !value := by
    cases value <;> simpa using hne
  have hpos : isClosed c info = true → 0 < metalInfos.countP (isClosed c) := fun hc =>
    countP_pos_iff.2 ⟨info, mem_of_getElem? h, hc⟩
  have hold : isClosed c info = (decide (info.clusterId = c) && value) := by
    rw [isClosed, hopen, Bool.not_not]
  have hnew : isClosed c { info with isOpen := value } = (decide (info.clusterId = c) && !value) := rfl
  rw [countP_set hlt, hinfo, hnew, hold]
  rw [hold] at hpos
  by_cases hc : info.clusterId = c
  · cases value with
    | false => simp [hc]
    | true =>
      have := hpos (by simp [hc])
      simp only [hc, decide_true, Bool.true_and, if_true, Bool.not_true, Bool.false_eq_true, if_false]
      omega
  · simp [hc]

theorem Counted.setOpenSpot (hs : Counted s) (index : ℕ) (value : Bool) : Counted (s.setOpenSpot index value) := by
  unfold State.setOpenSpot
  split
  · rename_i info hinfo
    by_cases hchange : (info.isOpen != value) = true
    · rw [if_pos hchange]
      have hne : info.isOpen ≠ value := by simpa using hchange
      have hmodify (c : ℕ) : (s.clusterInfos.modify info.clusterId fun c =>
          { c with queuedCount := c.queuedCount + if value then -1 else 1 })[c]? = s.clusterInfos[c]?.map fun i =>
            { i with queuedCount := i.queuedCount + if info.clusterId = c then (if value then -1 else 1) else 0 } := by
        by_cases hc : info.clusterId = c
        · rw [hc, getElem?_modify_eq]
          simp
        · rw [getElem?_modify_ne _ _ hc]
          simp [hc]
      constructor
      · exact hs.sorted
      · intro c i hi
        dsimp only at hi ⊢
        rw [hmodify] at hi
        obtain ⟨i', hi', rfl⟩ := map_eq_some_iff.1 hi
        unfold onCluster
        simp only [clusterOf_set hinfo]
        exact hs.finishedCount c i' hi'
      · intro c i hi
        dsimp only at hi ⊢
        rw [hmodify] at hi
        obtain ⟨i', hi', rfl⟩ := map_eq_some_iff.1 hi
        rw [countP_isClosed_set hinfo hne]
        dsimp only
        rw [hs.queuedCount c i' hi']
    · rw [if_neg hchange]
      exact hs
  · exact hs

theorem Counted.setOpenSpotAt (hs : Counted s) (nearest : Option ℕ) (value : Bool) :
    Counted (s.setOpenSpotAt nearest value) := by
  cases nearest with
  | none => exact hs
  | some index => exact hs.setOpenSpot index value

/-! ## Runs -/

theorem counted_new (clusterIds : List ℕ) (clusters : ℕ) : Counted (.new clusterIds clusters) := by
  have hzero : ∀ (c : ℕ) (info : SClusterInfo), (State.new clusterIds clusters).clusterInfos[c]? = some info →
      info = ⟨0, 0⟩ := fun c info h => by
    have hlt := getElem?_replicate (n := clusters) (a := (⟨0, 0⟩ : SClusterInfo)) (i := c)
    rw [show (State.new clusterIds clusters).clusterInfos[c]? = _ from hlt] at h
    split_ifs at h
    exact (some.inj h).symm
  refine ⟨.nil, fun c info h => ?_, fun c info h => ?_⟩
  · rw [hzero c info h]
    rfl
  · rw [hzero c info h]
    refine (Int.natCast_eq_zero.2 (countP_eq_zero.2 fun info hinfo => ?_)).symm
    obtain ⟨c', -, rfl⟩ := mem_map.1 hinfo
    simp [isClosed]

/-- In every state the counters are exact, and so not negative. The first call of `MarkAllyMexes` in a frame records the
listed mexes, and the others do nothing. -/
theorem Run.counted {clusterIds : List ℕ} {clusters : ℕ} (h : Run clusterIds clusters s) :
    Counted s ∧ (∀ info ∈ s.clusterInfos, 0 ≤ info.finishedCount ∧ 0 ≤ info.queuedCount) ∧ ∀ lastFrame mexes,
      (s.markFrame < lastFrame → Updated s lastFrame mexes) ∧
      (lastFrame ≤ s.markFrame → s.markAllyMexes lastFrame mexes = s) := by
  have hcounted : Counted s := by
    induction h with
    | start => exact counted_new clusterIds clusters
    | mark lastFrame mexes _ ih => exact ih.markAllyMexes lastFrame mexes
    | setOpen index value _ ih => exact ih.setOpenSpot index value
    | setOpenAt nearest value _ ih => exact ih.setOpenSpotAt nearest value
  refine ⟨hcounted, fun info hinfo => ?_, fun lastFrame mexes => ⟨updated hcounted.sorted, markAllyMexes_of_le⟩⟩
  obtain ⟨c, hc⟩ := getElem?_of_mem hinfo
  rw [hcounted.finishedCount c info hc, hcounted.queuedCount c info hc]
  exact ⟨Int.natCast_nonneg _, Int.natCast_nonneg _⟩

/-! ## Two frames -/

def before : AllyMexes := ⟨[⟨1, some 0⟩, ⟨4, none⟩, ⟨6, some 2⟩], by decide⟩

def after : AllyMexes := ⟨[⟨4, none⟩, ⟨6, some 2⟩], by decide⟩

def marked : State := ((State.new [0, 0, 1] 2).setOpenSpot 1 false).markAllyMexes 0 before

theorem run_marked : Run [0, 0, 1] 2 marked := .mark 0 before (.setOpen 1 false .start)

theorem counted_marked : Counted marked ∧ Updated marked 1 after := by
  have hframe : marked.markFrame < 1 := by
    rw [marked, markAllyMexes_of_lt (by decide)]
    decide
  exact ⟨run_marked.counted.1, (run_marked.counted.2.2 1 after).1 hframe⟩

/-- A second call in a frame does not record the mexes that it is handed. -/
theorem second_list_skipped : Run [0, 0, 1] 2 ((State.new [0, 0, 1] 2).markAllyMexes 0 ⟨[], .nil⟩) ∧
    (((State.new [0, 0, 1] 2).markAllyMexes 0 ⟨[], .nil⟩).markAllyMexes 0 before).markedMexes = [] ∧
    before.mexes.filterMap (fun unit => unit.spot.map fun index => (⟨unit.id, index⟩ : SMex)) ≠ [] := by
  have hlisted : ((State.new [0, 0, 1] 2).markAllyMexes 0 ⟨[], .nil⟩).markedMexes = [] :=
    (updated .nil (by decide)).listed
  have hframe : ((State.new [0, 0, 1] 2).markAllyMexes 0 ⟨[], .nil⟩).markFrame = 0 := by
    rw [markAllyMexes_of_lt (by decide)]
  refine ⟨.mark 0 _ .start, ?_, by decide⟩
  rw [markAllyMexes_of_le hframe.ge, hlisted]

end Circuit.Spec.MetalClusters
