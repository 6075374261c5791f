import CircuitAI.Framework.SortedMerge
import CircuitAI.Spec.AllyMarks
import Mathlib.Algebra.Order.Group.Multiset
import Mathlib.Algebra.Order.Ring.Int

/-!
# Marks of allied buildings

* `mergeLoop_eq`: the loop of `MarkAllyBuildings` carries out the edits of a sorted merge of the allied buildings with the
  previous list;
* `foldl_applyEdit`: what it writes, edit by edit;
* `settle_edits`: its calls take back the marks of the entries that go and make those of the entries that come;
* `Run.markedOnce`: so the marks are those of the list, whatever calls came before.
-/

namespace Circuit.Spec.AllyMarks

open Framework Impl.BlockingMap Impl.AllyMarks List State

variable {env : Env} {m : SBlockingMap} {s : State} {calls : List Call} {resigned live : Multiset Marked}
  {friendlies : AllyUnits} {lastFrame : ℤ}

/-! ## The loop as a merge -/

def applyEdit (env : Env) (out : Output) : Edit AllyUnit Marked → Output
  | .add unit => addStructure env out unit
  | .keep _ old => { out with markedAllies := out.markedAllies ++ [old] }
  | .drop old => delStructure env out old

def editsOf (env : Env) (friendlies : List AllyUnit) (prevUnits : List Marked) : List (Edit AllyUnit Marked) :=
  edits AllyUnit.id Marked.unitId (friendlies.filter fun unit => !env.skips unit) prevUnits

theorem mergeLoop_eq (friendlies : List AllyUnit) (prevUnits : List Marked) (out : Output) :
    mergeLoop env friendlies prevUnits out = (editsOf env friendlies prevUnits).foldl (applyEdit env) out := by
  unfold editsOf
  fun_induction mergeLoop env friendlies prevUnits out with
  | case1 prevUnits out =>
    rw [filter_nil, edits, foldl_map]
    rfl
  | case2 prevUnits out unit friendlies hskip ih =>
    rw [ih, filter_cons_of_neg (by simp [hskip])]
  | case3 unit friendlies out hskip =>
    rw [filter_cons_of_pos (by simp [hskip]), edits_nil, foldl_map, foldl_cons, foldl_filter]
    refine congrArg (friendlies.foldl · _) (funext fun out => funext fun unit => ?_)
    cases env.skips unit <;> rfl
  | case4 out unit friendlies hskip old prevUnits hlt ih =>
    rw [ih, filter_cons_of_pos (by simp [hskip]), edits, if_pos hlt]
    rfl
  | case5 out unit friendlies hskip old prevUnits hle hlt ih =>
    rw [ih, filter_cons_of_pos (by simp [hskip]), edits, if_neg hle, if_pos hlt]
    rfl
  | case6 out unit friendlies hskip old prevUnits hle hle' ih =>
    rw [ih, filter_cons_of_pos (by simp [hskip]), edits, if_neg hle, if_neg hle']
    rfl

def entry : Edit AllyUnit Marked → Option Marked
  | .add unit => some unit.structure
  | .keep _ old => some old
  | .drop _ => none

def call (env : Env) : Edit AllyUnit Marked → Option Call
  | .add unit => if !env.isMex unit.cdef then some ⟨unit.structure, true⟩ else none
  | .keep _ _ => none
  | .drop old => if !env.isMex old.building.cdef then some ⟨old, false⟩ else none

theorem foldl_applyEdit (es : List (Edit AllyUnit Marked)) (out : Output) :
    es.foldl (applyEdit env) out = ⟨out.markedAllies ++ es.filterMap entry, out.calls ++ es.filterMap (call env)⟩ := by
  induction es generalizing out with
  | nil => simp
  | cons e es ih =>
    rw [foldl_cons, ih]
    cases e with
    | add unit =>
      by_cases hmex : env.isMex unit.cdef = true <;>
        simp [applyEdit, addStructure, entry, call, hmex]
    | keep _ old => simp [filterMap_cons, applyEdit, entry, call]
    | drop old =>
      by_cases hmex : env.isMex old.building.cdef = true <;>
        simp [filterMap_cons, applyEdit, delStructure, entry, call, hmex]

theorem markAllyBuildings_of_lt (h : s.markFrame < lastFrame) : s.markAllyBuildings env lastFrame friendlies =
      (⟨lastFrame, (editsOf env friendlies.units s.markedAllies).filterMap entry,
        markBlockers env s.blockingMap ((editsOf env friendlies.units s.markedAllies).filterMap (call env))⟩,
        (editsOf env friendlies.units s.markedAllies).filterMap (call env)) := by
  rw [markAllyBuildings, if_neg (not_le.2 h), mergeLoop_eq, foldl_applyEdit]
  rfl

theorem markAllyBuildings_of_le (h : lastFrame ≤ s.markFrame) :
    s.markAllyBuildings env lastFrame friendlies = (s, []) := if_pos h

/-! ## Marks -/

theorem settle_append (calls calls' : List Call) :
    settle live (calls ++ calls') = (settle live calls).bind fun live => settle live calls' := by
  induction calls generalizing live with
  | nil => rfl
  | cons c calls ih =>
    rw [cons_append, settle, settle]
    split_ifs
    · exact ih
    · exact ih
    · rfl

theorem marksOf_cons_of_mex {b : Marked} (h : env.isMex b.building.cdef = true) (bs : List Marked) :
    marksOf env (b :: bs) = marksOf env bs := by
  rw [marksOf, filter_cons_of_neg (by simp [h]), marksOf]

theorem marksOf_cons {b : Marked} (h : ¬ env.isMex b.building.cdef = true) (bs : List Marked) :
    marksOf env (b :: bs) = b ::ₘ marksOf env bs := by
  rw [marksOf, filter_cons_of_pos (by simp [h]), marksOf, Multiset.cons_coe]

theorem marksOf_eraseP (p : Marked → Bool) (l : List Marked) :
    marksOf env l = marksOf env (l.find? p).toList + marksOf env (l.eraseP p) := by
  have hperm : l.Perm ((l.find? p).toList ++ l.eraseP p) := by
    induction l with
    | nil => exact .refl _
    | cons b l ih =>
      by_cases hp : p b = true
      · rw [find?_cons_of_pos hp, eraseP_cons_of_pos hp]
        exact .refl _
      · rw [find?_cons_of_neg hp, eraseP_cons_of_neg hp]
        exact (ih.cons b).trans perm_middle.symm
  unfold marksOf
  rw [Multiset.coe_add, ← filter_append]
  exact Multiset.coe_eq_coe.2 (hperm.filter _)

theorem settle_edits (es : List (Edit AllyUnit Marked)) (live : Multiset Marked) :
    settle (live + marksOf env (es.filterMap Edit.old)) (es.filterMap (call env)) =
      some (live + marksOf env (es.filterMap entry)) := by
  induction es generalizing live with
  | nil => rfl
  | cons e es ih =>
    cases e with
    | add unit =>
      rw [filterMap_cons_none (f := Edit.old) rfl, filterMap_cons_some (f := entry) rfl]
      by_cases hmex : env.isMex unit.cdef = true
      · rw [filterMap_cons_none (by simp [call, hmex]), marksOf_cons_of_mex hmex]
        exact ih live
      · rw [filterMap_cons_some (b := ⟨unit.structure, true⟩) (by simp [call, hmex]), marksOf_cons hmex, settle,
          if_pos rfl, ← Multiset.cons_add, ih, Multiset.cons_add, Multiset.add_cons]
    | keep unit old =>
      rw [filterMap_cons_some (f := Edit.old) rfl, filterMap_cons_some (f := entry) rfl,
        filterMap_cons_none (f := call env) rfl]
      by_cases hmex : env.isMex old.building.cdef = true
      · rw [marksOf_cons_of_mex hmex, marksOf_cons_of_mex hmex]
        exact ih live
      · rw [marksOf_cons hmex, marksOf_cons hmex, Multiset.add_cons, ← Multiset.cons_add, ih, Multiset.cons_add,
          Multiset.add_cons]
    | drop old =>
      rw [filterMap_cons_some (f := Edit.old) rfl, filterMap_cons_none (f := entry) rfl]
      by_cases hmex : env.isMex old.building.cdef = true
      · rw [filterMap_cons_none (by simp [call, hmex]), marksOf_cons_of_mex hmex]
        exact ih live
      · rw [filterMap_cons_some (b := ⟨old, false⟩) (by simp [call, hmex]), marksOf_cons hmex, settle,
          if_neg Bool.false_ne_true, Multiset.add_cons, if_pos (Multiset.mem_cons_self _ _), Multiset.erase_cons_head, ih]

/-! ## Runs -/

theorem filterMap_entry (h : SameBuildings env s friendlies) :
    (editsOf env friendlies.units s.markedAllies).filterMap entry = buildings env friendlies := by
  have hentry : ∀ e ∈ editsOf env friendlies.units s.markedAllies, entry e = e.new.map AllyUnit.structure := by
    intro e he
    cases e with
    | add unit => rfl
    | keep unit old =>
      have hunit := mem_of_new he rfl
      refine congrArg some (h _ (mem_map_of_mem hunit) old (mem_of_old he rfl) ?_)
      exact (key_eq_of_keep he).symm
    | drop old => rfl
  rw [filterMap_congr hentry, ← map_filterMap, editsOf, filterMap_new_edits]
  rfl

theorem pairwise_buildings (friendlies : AllyUnits) :
    (buildings env friendlies).Pairwise fun b b' => b.unitId < b'.unitId :=
  pairwise_map.2 (friendlies.sorted.filter _)

theorem updated (hsorted : s.markedAllies.Pairwise fun b b' => b.unitId < b'.unitId)
    (h : SameBuildings env s friendlies) (hlt : s.markFrame < lastFrame) : Updated env s lastFrame friendlies := by
  have hnew : (friendlies.units.filter fun unit => !env.skips unit).Pairwise fun u u' => u.id < u'.id :=
    friendlies.sorted.filter _
  constructor
  · rw [markAllyBuildings_of_lt hlt]
    exact filterMap_entry h
  · intro c hc b hb hb' heq
    rw [markAllyBuildings_of_lt hlt] at hc
    obtain ⟨e, he, hcall⟩ := mem_filterMap.1 hc
    cases e with
    | add unit =>
      obtain ⟨-, hc⟩ := (Option.ite_none_right_eq_some ..).1 hcall
      cases hc
      exact ne_of_add hnew hsorted he b hb heq.symm
    | keep unit old => cases hcall
    | drop old =>
      obtain ⟨-, hc⟩ := (Option.ite_none_right_eq_some ..).1 hcall
      cases hc
      obtain ⟨unit, hunit, rfl⟩ := mem_map.1 hb'
      exact ne_of_drop hnew hsorted he unit hunit heq.symm

theorem MarkedOnce.mark (hs : MarkedOnce env m s calls resigned) (lastFrame : ℤ) (h : SameBuildings env s friendlies) :
    MarkedOnce env m (s.markAllyBuildings env lastFrame friendlies).1
      (calls ++ (s.markAllyBuildings env lastFrame friendlies).2) resigned := by
  rcases lt_or_ge s.markFrame lastFrame with hlt | hle
  · have hold : (editsOf env friendlies.units s.markedAllies).filterMap Edit.old = s.markedAllies := filterMap_old_edits
    have hsettle : settle (resigned + marksOf env s.markedAllies)
        ((editsOf env friendlies.units s.markedAllies).filterMap (call env)) = _ :=
      (congrArg (fun l => settle (resigned + marksOf env l) _) hold.symm).trans (settle_edits _ resigned)
    rw [markAllyBuildings_of_lt hlt]
    refine ⟨?_, ?_, ?_⟩
    · dsimp only
      rw [filterMap_entry h]
      exact pairwise_buildings friendlies
    · rw [settle_append, hs.marks]
      exact hsettle
    · dsimp only
      rw [hs.blockingMap, markBlockers, markBlockers, markBlockers, foldl_append]
  · rw [markAllyBuildings_of_le hle, append_nil]
    exact hs

theorem MarkedOnce.resign (hs : MarkedOnce env m s calls resigned) (unitId : ℤ) :
    MarkedOnce env m (s.resignAllyBuilding unitId).2 calls
      (resigned + marksOf env (s.markedAllies.find? (·.unitId == unitId)).toList) := by
  refine ⟨hs.sorted.sublist (eraseP_sublist), ?_, hs.blockingMap⟩
  rw [hs.marks, add_assoc]
  exact congrArg (fun marks => some (resigned + marks)) (marksOf_eraseP _ _)

/-- In every state the list is sorted and the marks are those of its buildings. The first call in a frame brings the list up
to date, and the others do nothing. -/
theorem Run.markedOnce (h : Run env m s calls resigned) : MarkedOnce env m s calls resigned ∧ ∀ lastFrame friendlies,
      (s.markFrame < lastFrame → SameBuildings env s friendlies → Updated env s lastFrame friendlies) ∧
      (lastFrame ≤ s.markFrame → s.markAllyBuildings env lastFrame friendlies = (s, [])) := by
  have honce : MarkedOnce env m s calls resigned := by
    induction h with
    | start => exact ⟨.nil, rfl, rfl⟩
    | mark lastFrame friendlies hsame _ ih => exact ih.mark lastFrame hsame
    | resign unitId _ ih => exact ih.resign unitId
  exact ⟨honce, fun lastFrame friendlies =>
    ⟨fun hlt hsame => updated honce.sorted hsame hlt, markAllyBuildings_of_le⟩⟩

/-! ## Two frames -/

def camp : Env := ⟨fun _ => none, fun _ => false, fun d => d.id == 7, 0⟩

def ally (id : ℤ) (cdef : ℕ) : AllyUnit := ⟨id, ⟨cdef, 4, 4⟩, ⟨40 * id, 0, 40⟩, 0, 1⟩

def before : AllyUnits := ⟨[ally 1 3, ally 2 7, { ally 3 3 with team := 0 }], by decide⟩

def after : AllyUnits := ⟨[ally 2 7, ally 5 3], by decide⟩

def field : SBlockingMap := .empty 0 0 0 0

theorem run_first : Run camp field ((new field).markAllyBuildings camp 1 before).1
    ((new field).markAllyBuildings camp 1 before).2 0 :=
  .mark 1 before (fun _ _ _ hold => absurd hold not_mem_nil) .start

theorem markedOnce_second :
    Updated camp ((State.new field).markAllyBuildings camp 1 before).1 2 after ∧ (buildings camp after).length = 2 := by
  have hfirst : Updated camp (new field) 1 before :=
    updated .nil (fun _ _ _ hold => absurd hold not_mem_nil) (by decide)
  have hframe : ((new field).markAllyBuildings camp 1 before).1.markFrame < 2 := by
    rw [markAllyBuildings_of_lt (by decide)]
    decide
  refine ⟨(run_first.markedOnce.2 2 after).1 hframe ?_, by decide⟩
  rw [SameBuildings, hfirst.listed]
  decide +kernel

/-- A second call in a frame does not see a building that has come since the first. -/
theorem second_call_skipped : Run camp field ((State.new field).markAllyBuildings camp 1 ⟨[], .nil⟩).1
        ((State.new field).markAllyBuildings camp 1 ⟨[], .nil⟩).2 0 ∧
      SameBuildings camp ((State.new field).markAllyBuildings camp 1 ⟨[], .nil⟩).1 before ∧
      (((State.new field).markAllyBuildings camp 1 ⟨[], .nil⟩).1.markAllyBuildings camp 1 before).1.markedAllies ≠
        buildings camp before := by
  have hsame (friendlies : AllyUnits) : SameBuildings camp (.new field) friendlies :=
    fun _ _ _ hold => absurd hold not_mem_nil
  have hlisted : ((new field).markAllyBuildings camp 1 ⟨[], .nil⟩).1.markedAllies = [] :=
    (updated .nil (hsame _) (by decide)).listed
  have hframe : ((new field).markAllyBuildings camp 1 ⟨[], .nil⟩).1.markFrame = 1 := by
    rw [markAllyBuildings_of_lt (by decide)]
  refine ⟨.mark 1 _ (hsame _) .start, ?_, ?_⟩
  · rw [SameBuildings, hlisted]
    exact fun _ _ _ hold => absurd hold not_mem_nil
  · rw [markAllyBuildings_of_le hframe.ge, hlisted]
    decide

end Circuit.Spec.AllyMarks
