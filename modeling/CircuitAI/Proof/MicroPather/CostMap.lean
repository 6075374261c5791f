import CircuitAI.Proof.MicroPather.Turns
import Mathlib.Algebra.Order.Ring.Star
import Mathlib.Data.Rat.Star

/-!
# The result of `MakeCostMap`

The rules of `MakeCostMap` suit every map (`costRules_charts`). Every node that its loop pops gets its cost written into
the map, and that is the cost of a cheapest path (`Searching.popped_cheapest`), so the entries of the closed cells are
right whenever a turn ends (`Filled.step`). `makeCostMap_ok` is what the whole search leaves.
-/

namespace Circuit.Impl.MicroPather

open Circuit.Framework.BestFirst Function
open Circuit.Spec.GridPath
open CMicroPather (costRules)

section

variable {sizeX sizeY : Nat}

theorem costRules_field (T : ThreatTerrain sizeX sizeY) : (costRules T.data).field sizeX = T.field := by
  simp only [Rules.field, Rules.Enters, costRules, ThreatTerrain.field, COST_BASE, and_true]

theorem costRules_charts (T : ThreatTerrain sizeX sizeY) : (costRules T.data).Charts sizeX sizeY where
  border := T.border
  nodeCost_nonneg i := add_nonneg zero_le_one (T.threat_nonneg i)
  consistent {u v} _ := by
    have hc : 0 ≤ T.field.cost v := add_nonneg zero_le_one (T.threat_nonneg _)
    rw [costRules_field]
    change (0 : ℚ) ≤ T.field.stepCost u v + 0
    rw [add_zero, Field.stepCost]
    split
    · exact mul_nonneg hc (by norm_num)
    · exact hc

theorem eq_of_row_eq {X a b c d : Int} (hX : 0 ≤ X) (hb : 1 ≤ b) (hb' : b ≤ X) (hd : 1 ≤ d) (hd' : d ≤ X)
    (h : (a - 1) * X + b - 1 = (c - 1) * X + d - 1) : a = c ∧ b = d := by
  rcases lt_trichotomy a c with hlt | rfl | hlt
  · have := mul_le_mul_of_nonneg_right (Int.add_one_le_iff.mpr hlt) hX
    linarith
  · exact ⟨rfl, by linarith⟩
  · have := mul_le_mul_of_nonneg_right (Int.add_one_le_iff.mpr hlt) hX
    linarith

theorem index2_injective {u v : Nat} (hu : Interior sizeX sizeY u) (hv : Interior sizeX sizeY v)
    (h : index2 sizeX u = index2 sizeX v) : u = v := by
  obtain ⟨hrow, hcol⟩ := eq_of_row_eq (Int.natCast_nonneg sizeX) (by exact_mod_cast hu.col_pos)
    (by exact_mod_cast hu.col_le) (by exact_mod_cast hv.col_pos) (by exact_mod_cast hv.col_le) h
  rw [← Nat.div_add_mod u (sizeX + 2), Int.ofNat.inj hrow, Int.ofNat.inj hcol, Nat.div_add_mod]

variable {R : Rules} {hR : R.Charts sizeX sizeY} {s frame : Nat} {endNodes : List Nat} {goal : Nat → Bool}
  {q : OpenQueueBH} {m : Int → ℚ}

theorem Searching.popped_cheapest (h : Searching hR s frame endNodes goal q) (h0 : 0 < q.size) :
    (R.field sizeX).Cheapest s q.pop.1 (q.pop.2.nodes q.pop.1).costFromStart := by
  have hu := h.least h0
  rw [h.popped_cost h0]
  obtain ⟨l, -, hw, -⟩ := h.inv.trace _ (h.inv.open_lt _ hu.mem)
  exact ⟨⟨l, walk_iff_path.mp hw⟩, fun l' a' hp => h.inv.least_le hu (walk_iff_path.mpr hp)⟩

variable (hR s frame) in
def Filled (q : OpenQueueBH) (m : Int → ℚ) : Prop :=
  ∀ i, (∃ v, (labels frame q).Closed (problem hR s) v ∧ index2 sizeX v = i ∧ (R.field sizeX).Cheapest s v (m i)) ∨
    (∀ v, (labels frame q).Closed (problem hR s) v → index2 sizeX v ≠ i) ∧ m i = -1

theorem Filled.step (hm : Filled hR s frame q m) (h : Searching hR s frame endNodes goal q) (hf : frame < 2 ^ 16)
    (hs : Interior sizeX sizeY s) (h0 : 0 < q.size) : Filled hR s frame (expand R (sizeX + 2) frame q.pop.1 q.pop.2)
      (update m (q.pop.2.nodes q.pop.1).index2 (q.pop.2.nodes q.pop.1).costFromStart) := by
  obtain ⟨-, hC⟩ := h.expand_inv hf hs h0
  have hidx : (q.pop.2.nodes q.pop.1).index2 = index2 sizeX q.pop.1 :=
    ((pop_labels h.live h0).2.2.1 _).index2.trans (h.placed _).index2
  intro i
  rw [hidx]
  by_cases hi : i = index2 sizeX q.pop.1
  · refine .inl ⟨q.pop.1, (hC _).mpr (.inr rfl), hi.symm, ?_⟩
    rw [hi, update_self]
    exact h.popped_cheapest h0
  · rw [update_of_ne hi]
    refine (hm i).imp ?_ ?_
    · rintro ⟨v, hv, hvi, hc⟩
      exact ⟨v, (hC v).mpr (.inl hv), hvi, hc⟩
    · rintro ⟨hn, hmi⟩
      refine ⟨fun v hv => ?_, hmi⟩
      rcases (hC v).mp hv with hv | rfl
      · exact hn v hv
      · exact Ne.symm hi

theorem Fresh.filled {p : CMicroPather} (h : Fresh sizeX sizeY p) :
    Filled hR s p.frame (startQueue R p s endNodes) fun _ => -1 := by
  refine fun i => .inr ⟨fun v hv => ?_, rfl⟩
  have := (h.searching hR s endNodes fun _ => true).not_goal v hv
  cases this

theorem Filled.costMap (hm : Filled hR s frame q m) (h : Searching hR s frame endNodes goal q)
    (hs : Interior sizeX sizeY s) (h0 : q.size = 0) : (R.field sizeX).CostMap unreached (index2 sizeX) s m := by
  have ho : ∀ v, v ∉ (labels frame q).opn := fun v ⟨i, h₁, hi, _⟩ => by omega
  refine ⟨fun v l a hp ha => ?_, fun i hi => ?_⟩
  · have hw : Walk (problem hR s) l v a := walk_iff_path.mpr hp
    have hc := h.inv.exhausted ho hw ha
    rcases hm (index2 sizeX v) with ⟨v', hv', hi, hch⟩ | ⟨hn, -⟩
    · obtain rfl := index2_injective (h.interior hs hv'.1) (interior_of_walk hs hw).1 hi
      exact hch
    · exact absurd rfl (hn v hc)
  · rcases hm i with ⟨v, hv, hvi, -⟩ | ⟨-, hmi⟩
    · obtain ⟨l, -, hw, -⟩ := h.inv.trace v hv.1
      exact absurd hvi (hi v l _ (walk_iff_path.mp hw) hv.1)
    · exact hmi

theorem Idle.makeCostMap (T : ThreatTerrain sizeX sizeY) {p : CMicroPather} (hi : Idle sizeX sizeY p) {startNode : Nat}
    (hs : startNode < (sizeX + 2) * (sizeY + 2)) {fuel : Nat} (hfuel : (sizeX + 2) * (sizeY + 2) ≤ fuel) :
    ∃ costMap p', p.makeCostMap T.data fuel startNode (fun _ => -1) = some (costMap, p') ∧
      T.field.CostMap (FLT_BIG / 2) (index2 sizeX) (p.fixNode startNode) costMap := by
  have hint := CMicroPather.fixNode_interior hi.mapSizeX hi.mapSizeY T.sizeX_pos T.sizeY_pos hs
  have hfresh := hi.nextFrame
  obtain ⟨⟨res, q, costMap⟩, hr, hst⟩ := hfresh.search (costRules_charts T) hint hfuel [] (fun _ _ _ => rfl)
    (fun m n => update m n.index2 n.costFromStart)
    (J := Filled (costRules_charts T) (p.fixNode startNode) p.nextFrame.frame) hfresh.filled
    fun q m hq hm h0 => hm.step hq hfresh.frame_lt hint h0
  rw [makeCostMap_eq, hi.isRunning, if_neg Bool.false_ne_true, hr]
  refine ⟨_, _, rfl, ?_⟩
  match res, hst with
  | none, ⟨⟨hq, hm⟩, h0⟩ =>
    rw [← costRules_field]
    exact hm.costMap hq hint h0

end

/-- `MakeCostMap` ends, and leaves the cost of a cheapest path for every cell that can be reached for less than the cost
that stands for an unreached node. -/
theorem makeCostMap_ok {sizeX sizeY : Nat} (T : ThreatTerrain sizeX sizeY) {p : CMicroPather}
    (h : Reachable sizeX sizeY p) {startNode : Nat} (hs : startNode < (sizeX + 2) * (sizeY + 2)) {fuel : Nat}
    (hfuel : (sizeX + 2) * (sizeY + 2) ≤ fuel) :
    ∃ costMap p', p.makeCostMap T.data fuel startNode (fun _ => -1) = some (costMap, p') ∧
      T.field.CostMap (FLT_BIG / 2) (index2 sizeX) (p.fixNode startNode) costMap :=
  h.idle.makeCostMap T hs hfuel

def threatRow (dear : ℚ) (h : 0 ≤ dear) : ThreatTerrain 3 1 where
  data :=
    { canMoveArray := fun v => decide (v = 6 ∨ v = 7 ∨ v = 8)
      threatArray := fun i => if i = 1 then 2 else if i = 2 then dear else 0
      moveFun := fun _ => 0
      threatFun := fun _ => 0 }
  sizeX_pos := by decide
  sizeY_pos := by decide
  border v _ hb := by
    rw [decide_eq_false_iff_not]
    omega
  threat_nonneg i := by
    dsimp only
    split_ifs
    · exact zero_le_two
    · exact h
    · exact le_rfl

theorem makeCostMap_threatRow : ∃ costMap p',
    (CMicroPather.new 3 1 id).makeCostMap (threatRow 5 (by norm_num)).data 15 6 (fun _ => -1) = some (costMap, p') ∧
      costMap 2 = 9 ∧ (threatRow 5 (by norm_num)).field.CostMap (FLT_BIG / 2) (index2 3) 6 costMap := by
  obtain ⟨costMap, p', hc, hm⟩ := makeCostMap_ok (threatRow 5 (by norm_num)) (.new id) (show 6 < 15 by decide)
    (show 15 ≤ 15 from le_rfl)
  have hentry : ((CMicroPather.new 3 1 id).makeCostMap (threatRow 5 (by norm_num)).data 15 6 (fun _ => -1)).map
      (·.1 2) = some 9 := by
    decide +kernel
  rw [hc] at hentry
  exact ⟨costMap, p', hc, Option.some.inj hentry, hm⟩

/-- A cell that costs more than an unreached node is never entered: there is a path to it, but its entry stays -1. -/
theorem makeCostMap_dear :
    ((CMicroPather.new 3 1 id).makeCostMap (threatRow (10 ^ 38) (by norm_num)).data 15 6 (fun _ => -1)).map (·.1 2) =
        some (-1) ∧
      (threatRow (10 ^ 38) (by norm_num)).field.Path 6 [6, 7, 8] 8 (4 + 10 ^ 38) := by
  let F := (threatRow (10 ^ 38) (by norm_num)).field
  have hp : F.Path 6 ([6] ++ [7] ++ [8]) 8 (0 + F.stepCost 6 7 + F.stepCost 7 8) :=
    .step (.step .start ⟨by decide, by decide, by decide⟩ rfl) ⟨by decide, by decide, by decide⟩ rfl
  have hc : 0 + F.stepCost 6 7 + F.stepCost 7 8 = 4 + 10 ^ 38 := by decide +kernel
  exact ⟨by decide +kernel, hc ▸ hp⟩

end Circuit.Impl.MicroPather
