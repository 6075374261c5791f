import CircuitAI.Proof.RetreatTask
import CircuitAI.Spec.LineWalks
import Mathlib.Data.List.GetD

/-!
# Refined paths

* `refineLoop_ok`: the bisection ends with an index whose test succeeded, or with the one before its range. Nothing is
  asked of the test but that it answers;
* `line_inside`: the cells between two cells of the path map, which is where the pather's nodes know their path index;
* `clear_of_accepted`: what `IsStraightLine` accepts is clear;
* `lines_straight`: the three loops, and the refined path, for a pather with any history.
-/

namespace Circuit.Spec.LineWalks

open Circuit.Framework (Line Walk)
open Impl (QueryLineMap)
open Impl.SquadTask (HitTest)
open Impl.RetreatTask (PathFinder Pos)
open Impl.MicroPather Repairers CMicroPather Option List
open CMicroPather (refineLoop moveLine)

/-! ## Bisection -/

theorem refineLoop_ok (test : ℕ → Option Bool) {fuel l r : ℕ} (htest : ∀ m, l ≤ m → m ≤ r → ∃ ok, test m = some ok)
    (hl : 1 ≤ l) (hfuel : r + 1 - l < fuel) :
    ∃ k, refineLoop test fuel l r = some k ∧ (k = l - 1 ∨ (l ≤ k ∧ k ≤ r ∧ test k = some true)) := by
  induction fuel generalizing l r with
  | zero => exact absurd hfuel (Nat.not_lt_zero _)
  | succ fuel ih =>
    unfold refineLoop
    by_cases hlr : l ≤ r
    · rw [if_pos hlr]
      obtain ⟨m, hm⟩ : ∃ m, m = (l + r) / 2 := ⟨_, rfl⟩
      have hlm : l ≤ m := by omega
      have hmr : m ≤ r := by omega
      obtain ⟨ok, hok⟩ := htest m hlm hmr
      simp only [← hm, hok, bind_some]
      cases ok with
      | true =>
        obtain ⟨k, hk, hcases⟩ := ih (l := m + 1) (r := r) (fun i hi => htest i (by omega)) (by omega) (by omega)
        refine ⟨k, hk, .inr ?_⟩
        rcases hcases with rfl | ⟨hmk, hkr, hkt⟩
        · exact ⟨hlm, hmr, hok⟩
        · exact ⟨by omega, hkr, hkt⟩
      | false =>
        obtain ⟨k, hk, hcases⟩ := ih (l := l) (r := m - 1) (fun i hi hir => htest i hi (by omega)) hl (by omega)
        exact ⟨k, hk, hcases.imp_right fun ⟨hlk, hkm, hkt⟩ => ⟨hlk, by omega, hkt⟩⟩
    · rw [if_neg hlr]
      exact ⟨l - 1, rfl, .inl rfl⟩

/-! ## Cells of the path map -/

section Graph

variable {graph : PathFinder} {M : MapData} {p : CMicroPather} {i₀ i : ℤ} {c : ℤ × ℤ}

def Inside (graph : PathFinder) (c : ℤ × ℤ) : Prop :=
  (1 ≤ c.1 ∧ c.1 ≤ graph.pathMapXSize) ∧ 1 ≤ c.2 ∧ c.2 ≤ graph.pathMapYSize

theorem inside_pathIndex2MoveXY (h₀ : 0 ≤ i) (h : i < graph.pathMapXSize * graph.pathMapYSize) :
    Inside graph (graph.pathIndex2MoveXY i) := by
  have hX : (0 : ℤ) < graph.pathMapXSize := by
    rcases Nat.eq_zero_or_pos graph.pathMapXSize with hz | hpos
    · rw [hz, Nat.cast_zero, zero_mul] at h
      omega
    · exact_mod_cast hpos
  have hdiv : i / graph.pathMapXSize < graph.pathMapYSize := Int.ediv_lt_of_lt_mul hX (by rwa [mul_comm])
  have hdiv₀ : 0 ≤ i / graph.pathMapXSize := Int.ediv_nonneg h₀ hX.le
  have hmod : i - i / graph.pathMapXSize * graph.pathMapXSize = i % graph.pathMapXSize := by
    rw [mul_comm, Int.emod_def]
  have hlt := Int.emod_lt_of_pos i hX
  have hnn := Int.emod_nonneg i hX.ne'
  simp only [Inside, PathFinder.pathIndex2MoveXY, Int.tdiv_eq_ediv_of_nonneg h₀, hmod]
  omega

theorem line_inside (h₀ : Inside graph (graph.pathIndex2MoveXY i₀)) (h : Inside graph (graph.pathIndex2MoveXY i))
    (hc : (moveLine graph i₀ i).InBox c) : Inside graph c := by
  obtain ⟨⟨hx, hx'⟩, hy, hy'⟩ := hc
  simp only [moveLine] at hx hx' hy hy'
  exact ⟨⟨(le_min h₀.1.1 h.1.1).trans hx, hx'.trans (max_le h₀.1.2 h.1.2)⟩,
    (le_min h₀.2.1 h.2.1).trans hy, hy'.trans (max_le h₀.2.2 h.2.2)⟩

theorem turns_lt (h₀ : Inside graph (graph.pathIndex2MoveXY i₀)) (h : Inside graph (graph.pathIndex2MoveXY i)) :
    (moveLine graph i₀ i).turns < max graph.pathMapXSize graph.pathMapYSize := by
  obtain ⟨⟨hx, hx'⟩, hy, hy'⟩ := h
  obtain ⟨⟨hx₀, hx₀'⟩, hy₀, hy₀'⟩ := h₀
  have hdx : (moveLine graph i₀ i).dx < graph.pathMapXSize := by
    simp only [Line.dx, moveLine]
    exact abs_lt.2 ⟨by omega, by omega⟩
  have hdy : -(moveLine graph i₀ i).dy < graph.pathMapYSize := by
    simp only [Line.dy, moveLine, neg_neg]
    exact abs_lt.2 ⟨by omega, by omega⟩
  unfold Line.turns
  omega

theorem inPathMap_of_inside (hc : Inside graph c) : graph.isInPathMap (c.1 - 1, c.2 - 1) = true := by
  obtain ⟨⟨hx, hx'⟩, hy, hy'⟩ := hc
  simp only [PathFinder.isInPathMap, decide_eq_true_eq]
  omega

theorem moveXY2MoveNode_eq (graph : PathFinder) (c : ℤ × ℤ) :
    graph.moveXY2MoveNode c = moveNode graph.pathMapXSize (c.1 - 1, c.2 - 1) := by
  simp [PathFinder.moveXY2MoveNode, PathFinder.moveMapXSize, moveNode]

section

variable {sizeY : ℕ} (hp : Idle graph.pathMapXSize sizeY p)
include hp

theorem index2_node (hc : graph.isInPathMap (c.1 - 1, c.2 - 1) = true) :
    (p.pathNodeMem (graph.moveXY2MoveNode c)).index2 = graph.pathXY2PathIndex (c.1 - 1, c.2 - 1) := by
  rw [(hp.placed _).index2, moveXY2MoveNode_eq]
  exact (moveNode_interior hc).2

/-! ## What the loop of `RefinePath` accepts -/

theorem clear_of_accepted (hc : Inside graph c) (hacc : ¬ (p.canMoveNode2Index M (graph.moveXY2MoveNode c) < 0 ∨
      M.threatArray (p.canMoveNode2Index M (graph.moveXY2MoveNode c)) > THREAT_EPSILON ∨
      M.moveFun (p.canMoveNode2Index M (graph.moveXY2MoveNode c)) > M.moveFun i₀ + MOVE_EPSILON)) :
    Clear graph M i₀ c := by
  have hin := inPathMap_of_inside hc
  rw [not_or, not_or, not_lt, not_lt, not_lt] at hacc
  obtain ⟨hidx, hthreat, hmove⟩ := hacc
  have hcan : M.canMoveArray (graph.moveXY2MoveNode c) = true := by
    by_contra hno
    rw [canMoveNode2Index, if_neg hno] at hidx
    omega
  rw [canMoveNode2Index, if_pos hcan, index2_node hp hin] at hthreat hmove
  exact ⟨hin, hcan, hthreat, hmove⟩

theorem isStraightLine_ok
    (h₀ : Inside graph (graph.pathIndex2MoveXY i₀)) (h : Inside graph (graph.pathIndex2MoveXY i)) {fuel : ℕ}
    (hfuel : max graph.pathMapXSize graph.pathMapYSize ≤ fuel) : ∃ w, p.isStraightLine graph M fuel i₀ i = some w ∧
      (w.clear = true → (moveLine graph i₀ i).Straight w.visited ∧ ∀ c ∈ w.visited, Clear graph M i₀ c) := by
  obtain ⟨w, hw, hrun⟩ := (moveLine graph i₀ i).walked fun c =>
    !decide (p.canMoveNode2Index M (graph.moveXY2MoveNode c) < 0 ∨
      M.threatArray (p.canMoveNode2Index M (graph.moveXY2MoveNode c)) > THREAT_EPSILON ∨
      M.moveFun (p.canMoveNode2Index M (graph.moveXY2MoveNode c)) > M.moveFun i₀ + MOVE_EPSILON)
  refine ⟨w, hrun fuel ((turns_lt h₀ h).trans_le hfuel), fun hclear => ⟨hw.straight hclear, fun c hc => ?_⟩⟩
  have hacc := hw.accepted hclear c hc
  rw [Bool.not_eq_true', decide_eq_false_iff_not] at hacc
  exact clear_of_accepted hp (line_inside h₀ h (hw.box c hc)) hacc

end

end Graph

/-! ## The result -/

theorem straight_walk (l : Line) (accepts : ℤ × ℤ → Bool) : Straight l (l.walk accepts) := by
  obtain ⟨w, hw, hrun⟩ := l.walked accepts
  exact ⟨w, hrun, hw.straight, hw.box⟩

theorem IsPath.inside_getD {graph : PathFinder} {path : List ℤ} (h : IsPath graph path) {k : ℕ} (hk : k < path.length) :
    Inside graph (graph.pathIndex2MoveXY (path.getD k 0)) := by
  rw [getD_eq_getElem _ _ hk]
  obtain ⟨h₀, hlt⟩ := h.inside _ (getElem_mem hk)
  exact inside_pathIndex2MoveXY h₀ hlt

theorem refinePath_ok {graph : PathFinder} {p : CMicroPather} (hp : Idle graph.pathMapXSize graph.pathMapYSize p)
    (M : MapData) {path : List ℤ} (hpath : IsPath graph path) {fuel : ℕ}
    (hfuel : max (max graph.pathMapXSize graph.pathMapYSize) path.length ≤ fuel) :
    ∃ k, p.refinePath graph M fuel path = some k ∧ k < path.length ∧ (k = 0 ∨ Shortcut graph M p fuel path k) := by
  have hlen : 0 < path.length := length_pos_iff.2 hpath.ne_nil
  have hmax : max graph.pathMapXSize graph.pathMapYSize ≤ fuel := (le_max_left _ _).trans hfuel
  have hlf : path.length ≤ fuel := (le_max_right _ _).trans hfuel
  unfold refinePath
  by_cases hthreat : M.threatArray (path.getD 0 0) > THREAT_EPSILON
  · rw [if_pos hthreat]
    exact ⟨0, rfl, hlen, .inl rfl⟩
  rw [if_neg hthreat]
  have hline : ∀ m, m < path.length → ∃ w, p.isStraightLine graph M fuel (path.getD 0 0) (path.getD m 0) = some w ∧
      (w.clear = true → (moveLine graph (path.getD 0 0) (path.getD m 0)).Straight w.visited ∧
        ∀ c ∈ w.visited, Clear graph M (path.getD 0 0) c) :=
    fun m hm => isStraightLine_ok hp (hpath.inside_getD hlen) (hpath.inside_getD hm) hmax
  have hfuel' : path.length - 1 + 1 - 1 < fuel := by omega
  obtain ⟨k, hk, hcases⟩ := refineLoop_ok
    (fun m => (p.isStraightLine graph M fuel (path.getD 0 0) (path.getD m 0)).map (·.clear))
    (fun m _ hm => by
      obtain ⟨w, hw, -⟩ := hline m (by omega)
      exact ⟨w.clear, by rw [hw, map_some]⟩) le_rfl hfuel'
  refine ⟨k, hk, ?_⟩
  rcases hcases with rfl | ⟨hk₁, hkl, htest⟩
  · exact ⟨hlen, .inl rfl⟩
  · obtain ⟨w, hw, hclear⟩ := hline k (by omega)
    rw [hw, map_some, some_inj] at htest
    exact ⟨by omega, .inr ⟨w, hw, htest, hclear htest⟩⟩

/-- The three loops walk straight, and a refined path starts with a shortcut or is left as it is. -/
theorem lines_straight (graph : PathFinder) (M : MapData) (p : CMicroPather)
    (hp : Reachable graph.pathMapXSize graph.pathMapYSize p) :
    (∀ i₀ i, Straight (moveLine graph i₀ i) fun fuel => p.isStraightLine graph M fuel i₀ i) ∧
    (∀ (q : QueryLineMap) (startPos endPos : Pos),
      Straight (q.line startPos endPos) fun fuel => q.isSafeLine fuel startPos endPos) ∧
    (∀ (t : HitTest) (first last : ℤ × ℤ),
      Straight ⟨first.1, first.2, last.1, last.2⟩ fun fuel => t.losTest fuel first last) ∧
    ∀ path, IsPath graph path → ∀ fuel, max (max graph.pathMapXSize graph.pathMapYSize) path.length ≤ fuel →
      ∃ k, p.refinePath graph M fuel path = some k ∧ k < path.length ∧ (k = 0 ∨ Shortcut graph M p fuel path k) := by
  refine ⟨fun i₀ i => ?_, fun q startPos endPos => ?_, fun t first last => ?_, fun path hpath fuel hfuel => ?_⟩
  · exact straight_walk _ _
  · exact straight_walk _ _
  · exact straight_walk _ _
  · exact refinePath_ok hp.idle M hpath hfuel

def corridor : PathFinder := ⟨8, 3, 1, eight_pos⟩

def freeData : MapData := ⟨fun _ => true, fun _ => 0, fun _ => 0, fun _ => 0⟩

theorem lines_straight_corridor : (CMicroPather.new 3 1 fun _ => 0).refinePath corridor freeData 3 [0, 1, 2] = some 2 ∧
      Shortcut corridor freeData (.new 3 1 fun _ => 0) 3 [0, 1, 2] 2 := by
  have hrun : (new 3 1 fun _ => 0).refinePath corridor freeData 3 [0, 1, 2] = some 2 := by decide +kernel
  have hpath : IsPath corridor [0, 1, 2] := ⟨by decide, by decide⟩
  obtain ⟨k, hk, -, hcases⟩ :=
    (lines_straight corridor freeData (.new 3 1 fun _ => 0) (.new _)).2.2.2 [0, 1, 2] hpath 3 (by decide)
  obtain rfl : 2 = k := some_inj.1 (hrun.symm.trans hk)
  exact ⟨hrun, hcases.resolve_left (by decide)⟩

end Circuit.Spec.LineWalks
