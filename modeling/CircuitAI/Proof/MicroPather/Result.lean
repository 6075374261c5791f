import CircuitAI.Proof.MicroPather.Turns

/-!
# The results of the path searches

`Searching.reached` and `Searching.exhausted` say what a search knows when it pops a goal and when it runs out of
nodes, `solve_ok` what a path search finds. `findBestPathToPointOnRadius_ok` and
`findBestPathToAnyGivenPoint_ok` say it of the two queries.
-/

namespace Circuit.Impl.MicroPather

open Circuit.Framework.BestFirst Finset CMicroPather
open Circuit.Spec.GridPath
open CMicroPather (pathRules diagonalDistance chain goalReached PathResult)

section

variable {sizeX sizeY : Nat} {R : Rules} {hR : R.Charts sizeX sizeY} {s : Nat}

/-! ## The path -/

variable {l : List Nat} {v fuel : Nat}

theorem chain_of_trace {nodes : Nat → PathNode} (h : Trace (fun w => (nodes w).parent) s l v) (hl : l.length ≤ fuel) :
    chain nodes fuel v = some l.reverse := by
  induction h generalizing fuel with
  | root e =>
    obtain ⟨n, rfl⟩ := Nat.exists_eq_add_of_le' (show 1 ≤ fuel from hl)
    simp only [chain, e]
    rfl
  | step _ e ih =>
    rw [List.length_append, List.length_singleton] at hl
    obtain ⟨n, rfl⟩ := Nat.exists_eq_add_of_le' (show 1 ≤ fuel by omega)
    simp only [chain, e]
    rw [ih (by omega), List.reverse_append]
    rfl

theorem goalReached_of_trace {nodes : Nat → PathNode}
    (h : Trace (fun w => (nodes w).parent) s l v) (hn : l.Nodup) (hl : l.length ≤ fuel) :
    goalReached nodes fuel v s v = some (l.map fun w => (nodes w).index2) := by
  have hc := chain_of_trace h hl
  cases h with
  | root => simp [goalReached]
  | @step p u _ ht _ =>
    obtain ⟨t, rfl⟩ := ht.exists_cons
    have hne : s ≠ v := by
      rintro rfl
      simp at hn
    rw [goalReached, if_neg hne, hc]
    simp only [Option.map_some, List.reverse_append, List.reverse_cons, List.reverse_nil, List.nil_append,
      List.singleton_append, List.tail_cons, List.dropLast_concat, List.reverse_reverse]
    cases t with
    | nil => rfl
    | cons w t =>
      rw [if_neg (by simp)]
      simp

/-! ## The searches -/

theorem trace_parent {frame : Nat} {q : OpenQueueBH} {D : Nat → Nat → ℚ → Prop}
    (I : Inv (problem hR s) (labels frame q) D) (hs : Interior sizeX sizeY s) (hv : (labels frame q).g v < unreached) :
    ∃ l, Trace (fun w => (q.nodes w).parent) s l v ∧ (R.field sizeX).Path s l v (q.nodes v).costFromStart ∧
      l.Nodup ∧ l.length ≤ (sizeX + 2) * (sizeY + 2) := by
  have hfr : ∀ w, (labels frame q).g w < unreached → (q.nodes w).frame = frame := by
    intro w hw
    by_contra hn
    rw [labels_g, PathNode.cost, if_neg hn] at hw
    exact lt_irrefl _ hw
  obtain ⟨l, ht, hw, hc, hn⟩ := I.trace v hv
  refine ⟨l, ht.congr fun w hwl => ?_, ?_, hn, ?_⟩
  · have hw : (labels frame q).g w < unreached := (hc w hwl).elim (fun e => e ▸ hv) (·.1)
    rw [labels_parent, PathNode.origin, if_pos (hfr w hw)]
  · rw [walk_iff_path, labels_g, PathNode.cost, if_pos (hfr v hv)] at hw
    exact hw
  · have hsub : l.toFinset ⊆ range ((sizeX + 2) * (sizeY + 2)) := fun w hwl =>
      mem_range.mpr ((interior_of_walk hs hw).2 w (List.mem_toFinset.mp hwl)).lt
    have := card_le_card hsub
    rwa [List.toFinset_card_of_nodup hn, card_range] at this

section Ends

variable {frame : Nat} {endNodes : List Nat} {goal : Nat → Bool} {q : OpenQueueBH}

theorem Searching.exhausted (h : Searching hR s frame endNodes goal q) (h0 : q.size = 0)
    {n : Nat} {a : ℚ} (hn : goal n = true) (hp : (R.field sizeX).Path s l n a) : unreached ≤ a := by
  by_contra ha
  have ho : ∀ v, v ∉ (labels frame q).opn := fun v ⟨i, h₁, hi, _⟩ => by omega
  have hc := h.inv.exhausted ho (walk_iff_path.mpr hp) (not_le.mp ha)
  rw [h.not_goal n hc] at hn
  exact Bool.false_ne_true hn

theorem Searching.reached (h : Searching hR s frame endNodes goal q) (hs : Interior sizeX sizeY s)
    (h0 : 0 < q.size) (hg : goal q.pop.1 = true) (hfuel : (sizeX + 2) * (sizeY + 2) ≤ fuel) :
    ∃ l, goalReached q.pop.2.nodes fuel q.pop.1 s q.pop.1 = some (l.map (index2 sizeX)) ∧
      (R.field sizeX).Best unreached s (goal · = true) (R.est sizeX) l q.pop.1
        (q.pop.2.nodes q.pop.1).costFromStart := by
  have hu := h.least h0
  obtain ⟨-, hL, hk, hq, -⟩ := pop_labels h.live h0
  have hlt := h.inv.open_lt _ hq
  have hI := (h.inv.pop hu).toInv
  have hgu : (labels frame q.pop.2).g q.pop.1 = (labels frame q).g q.pop.1 := by rw [hL]; rfl
  have hcost := (h.popped_cost h0).symm
  rw [← hL] at hI
  obtain ⟨l, ht, hp, hn, hl⟩ := trace_parent hI hs (by rw [hgu]; exact hlt)
  have hidx : (fun w => (q.pop.2.nodes w).index2) = index2 sizeX :=
    funext fun v => (hk v).index2.trans (h.placed v).index2
  refine ⟨l, by rw [goalReached_of_trace ht hn (hl.trans hfuel), hidx], hp, hg, hcost ▸ hlt, fun l' a' hp' => ?_,
    fun n l' a' hn hp' ha' => ?_⟩
  · rw [← hcost]
    exact h.inv.least_le hu (walk_iff_path.mpr hp')
  · have hc : ¬ (labels frame q).Closed (problem hR s) n := fun hc => by
      rw [h.not_goal n hc] at hn
      exact Bool.false_ne_true hn
    rw [← hcost]
    exact h.inv.pop_goal hu hc (walk_iff_path.mpr hp') ha'

end Ends

theorem solve_ok (T : Terrain sizeX sizeY) (maxThreat : ℚ) {p : CMicroPather} (h : Idle sizeX sizeY p)
    (hs : Interior sizeX sizeY s) (hfuel : (sizeX + 2) * (sizeY + 2) ≤ fuel) (e : Nat)
    (endNodes : List Nat) (goal : Nat → PathNode → Bool) {G : Nat → Bool}
    (hG : ∀ v n, n.isEndNode = decide (v ∈ endNodes) → goal v n = G v) (path : List Int) :
    ∃ r p', p.solve T.data maxThreat fuel s e endNodes goal path = some (r, p') ∧
      (T.field maxThreat).Solves unreached (index2 sizeX) s (G · = true)
        (fun v => diagonalDistance ((T.field maxThreat).col v) ((T.field maxThreat).row v) (p.xy e).1 (p.xy e).2) r := by
  have hR := pathRules_charts T maxThreat (p.xy e).1 (p.xy e).2
  obtain ⟨⟨res, q, u⟩, hr, hst⟩ := h.nextFrame.search hR hs hfuel endNodes hG (fun _ _ => ()) (a := ())
    (J := fun _ _ => True) trivial fun _ _ _ _ _ => trivial
  simp only [solve_eq, hr]
  match res, hst with
  | none, ⟨⟨hq, _⟩, h0⟩ =>
    refine ⟨_, _, rfl, .inr rfl, (by cases ·), fun _ n l a hn hp => hq.exhausted h0 (l := l) hn ?_, fun _ => rfl⟩
    rw [pathRules_field]
    exact hp
  | some node, ⟨q₀, ⟨hq, _⟩, h0, he, hg⟩ =>
    obtain ⟨rfl, rfl⟩ := Prod.ext_iff.mp he.symm
    rw [hG _ _ (((pop_labels hq.live h0).2.2.1 _).isEndNode.trans (hq.isEndNode _))] at hg
    obtain ⟨l, hc, hb⟩ := hq.reached hs h0 hg hfuel
    rw [pathRules_field] at hb
    dsimp only
    rw [hc]
    refine ⟨_, _, rfl, .inl rfl, fun _ => ⟨l, q₀.pop.1, rfl, hb⟩, (by cases ·), fun hn => ?_⟩
    exact absurd hb.lt (not_lt.mpr (hn _ l _ hb.goal hb.path))

end

/-- `FindBestPathToPointOnRadius` finds a best path to the disc, of those that cost less than the
cost that stands for an unreached node. -/
theorem findBestPathToPointOnRadius_ok {sizeX sizeY : Nat} (T : Terrain sizeX sizeY) {p : CMicroPather}
    (h : Reachable sizeX sizeY p) {startNode : Nat} (hs : startNode < (sizeX + 2) * (sizeY + 2)) (maxThreat : ℚ)
    (path : List Int) {fuel : Nat} (hfuel : (sizeX + 2) * (sizeY + 2) ≤ fuel) (endNode : Nat)
    {radius : Int} (hr : 0 < radius) (hitTest : Int × Int → Int × Int → Bool) :
    ∃ r p', p.findBestPathToPointOnRadius T.data fuel startNode endNode radius maxThreat hitTest path = some (r, p') ∧
      (T.field maxThreat).Solves (FLT_BIG / 2) (index2 sizeX) (p.fixNode startNode)
        ((T.field maxThreat).Hit (p.fixNode endNode) radius hitTest)
        ((T.field maxThreat).distance (p.fixNode endNode)) r := by
  have hi := h.idle
  have hX := hi.mapSizeX
  have hsol := solve_ok T maxThreat hi
    (fixNode_interior hX hi.mapSizeY T.sizeX_pos T.sizeY_pos hs) hfuel (p.fixNode endNode) []
    (fun v _ => p.inRadius (p.fixNode endNode) radius hitTest v) (fun _ _ _ => rfl) path
  simp only [inRadius_iff T maxThreat hX hr, xy_fst T maxThreat hX, xy_snd T maxThreat hX] at hsol
  simp only [findBestPathToPointOnRadius, hi.isRunning, Bool.false_eq_true, if_false, not_le.mpr hr]
  exact hsol

theorem findBestPathToPointOnRadius_meadow :
    ∃ T : Terrain 2 1, ∃ r p', (CMicroPather.new 2 1 id).findBestPathToPointOnRadius T.data 12 5 6 1 0
        (fun a b => a == b) [] = some (r, p') ∧ r.status = .SOLVED ∧
      (T.field 0).Solves (FLT_BIG / 2) (index2 2) 5 ((T.field 0).Hit 6 1 fun a b => a == b) ((T.field 0).distance 6) r := by
  let T : Terrain 2 1 := .meadow (by decide) (by decide) (fun _ => 0) fun _ => le_rfl
  obtain ⟨r, p', hc, hs⟩ := findBestPathToPointOnRadius_ok T (.new id) (show 5 < 12 by decide) 0 []
    (show 12 ≤ 12 from le_rfl) 6 (show (0 : Int) < 1 by decide) (fun a b => a == b)
  have hst : ((new 2 1 id).findBestPathToPointOnRadius T.data 12 5 6 1 0 (fun a b => a == b) []).map
      (·.1.status) = some .SOLVED := by
    decide +kernel
  rw [hc] at hst
  exact ⟨T, r, p', hc, Option.some.inj hst, hs⟩

/-- A cell that costs more than an unreached node is never entered: there is a path to it, but no
solution. -/
theorem findBestPathToPointOnRadius_dear :
    ∃ T : Terrain 2 1, ((CMicroPather.new 2 1 id).findBestPathToPointOnRadius T.data 12 5 6 1 0 (fun a b => a == b)
        []).map (·.1.status) = some .NO_SOLUTION ∧
      (T.field 0).Path 5 [5, 6] 6 (1 + 10 ^ 38) ∧ (T.field 0).Hit 6 1 (fun a b => a == b) 6 := by
  let T : Terrain 2 1 := .meadow (by decide) (by decide) (fun i => if i = 1 then 10 ^ 38 else 0) fun i => by
    split <;> norm_num
  have hp : (T.field 0).Path 5 ([5] ++ [6]) 6 (0 + (T.field 0).stepCost 5 6) :=
    .step .start ⟨by decide, by decide, by decide⟩ ⟨by decide, by decide +kernel⟩
  have hc : 0 + (T.field 0).stepCost 5 6 = 1 + 10 ^ 38 := by decide +kernel
  exact ⟨T, by decide +kernel, hc ▸ hp, by unfold Field.Hit Field.InDisc; decide⟩

/-- `FindBestPathToAnyGivenPoint` finds a best path to one of the end nodes, with the distance from
there to the target that the search aims at counted in. -/
theorem findBestPathToAnyGivenPoint_ok {sizeX sizeY : Nat} (T : Terrain sizeX sizeY) {p : CMicroPather}
    (h : Reachable sizeX sizeY p) {startNode : Nat} (hs : startNode < (sizeX + 2) * (sizeY + 2)) (maxThreat : ℚ)
    (path : List Int) {fuel : Nat} (hfuel : (sizeX + 2) * (sizeY + 2) ≤ fuel)
    (endNode : Nat) (endNodes targets : List Nat) :
    ∃ r p', p.findBestPathToAnyGivenPoint T.data fuel startNode (endNode :: endNodes) targets maxThreat path =
        some (r, p') ∧ (T.field maxThreat).Solves (FLT_BIG / 2) (index2 sizeX) (p.fixNode startNode)
        (· ∈ (endNode :: endNodes).map p.fixNode)
        ((T.field maxThreat).distance (p.fixNode (p.bestGoal startNode endNode targets))) r := by
  have hi := h.idle
  have hX := hi.mapSizeX
  have hsol := solve_ok T maxThreat hi
    (fixNode_interior hX hi.mapSizeY T.sizeX_pos T.sizeY_pos hs) hfuel
    (p.fixNode (p.bestGoal startNode endNode targets)) ((endNode :: endNodes).map p.fixNode)
    (fun _ n => n.isEndNode) (fun _ _ hn => hn) path
  simp only [decide_eq_true_eq, xy_fst T maxThreat hX, xy_snd T maxThreat hX] at hsol
  simp only [findBestPathToAnyGivenPoint, hi.isRunning, Bool.false_eq_true, if_false]
  exact hsol

theorem findBestPathToAnyGivenPoint_meadow :
    ∃ T : Terrain 5 3, ∃ r p', (CMicroPather.new 5 3 id).findBestPathToAnyGivenPoint T.data 35 10 [8, 11] [8] 0 [] =
        some (r, p') ∧ r.status = .SOLVED ∧
      (T.field 0).Solves (FLT_BIG / 2) (index2 5) 10 (· ∈ [8, 11]) ((T.field 0).distance 8) r := by
  let T : Terrain 5 3 := .meadow (by decide) (by decide) (fun _ => 0) fun _ => le_rfl
  obtain ⟨r, p', hc, hs⟩ := findBestPathToAnyGivenPoint_ok T (.new id) (show 10 < 35 by decide) 0 []
    (show 35 ≤ 35 from le_rfl) 8 [11] [8]
  have haim : (new 5 3 id).bestGoal 10 8 [8] = 8 := by decide +kernel
  have hst : ((new 5 3 id).findBestPathToAnyGivenPoint T.data 35 10 [8, 11] [8] 0 []).map
      (·.1.status) = some .SOLVED := by
    decide +kernel
  rw [hc] at hst
  rw [haim] at hs
  exact ⟨T, r, p', hc, Option.some.inj hst, hs⟩

/-- The search aims at one target: it pays 2 for a path there, though an end node is one step away. -/
theorem findBestPathToAnyGivenPoint_detour :
    ∃ T : Terrain 5 3, ((CMicroPather.new 5 3 id).findBestPathToAnyGivenPoint T.data 35 10 [8, 11] [8] 0 []).map (·.1) =
        some ⟨.SOLVED, [2, 1, 0], 2⟩ ∧ (T.field 0).Path 10 [10, 11] 11 1 := by
  let T : Terrain 5 3 := .meadow (by decide) (by decide) (fun _ => 0) fun _ => le_rfl
  have hp : (T.field 0).Path 10 ([10] ++ [11]) 11 (0 + (T.field 0).stepCost 10 11) :=
    .step .start ⟨by decide, by decide, by decide⟩ ⟨by decide, by decide +kernel⟩
  have hc : 0 + (T.field 0).stepCost 10 11 = 1 := by decide +kernel
  exact ⟨T, by decide +kernel, hc ▸ hp⟩

end Circuit.Impl.MicroPather
