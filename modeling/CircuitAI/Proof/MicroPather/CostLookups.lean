import CircuitAI.Proof.RetreatTask
import CircuitAI.Spec.CostLookups

/-!
# Lookups in a cost map

* `Made.entry`: the entries of a cost map are -1 or costs of paths;
* `readMinCost_eq`: a point on the map is read, and by both functions alike;
* `Lowest.minCost`: one more point;
* `getCostAt_lowest`: the lookup of a ring.
-/

namespace Circuit.Spec.CostLookups

open Impl.MicroPather Impl.RetreatTask Spec.GridPath Spec.Repairers List Function Option Bool
open CMicroPather (costRules)

variable {P : PathFinder} {m : ℤ → ℚ} {l : List (ℤ × ℤ)} {v : ℚ} {c : ℤ × ℤ}

/-! ## Entries -/

variable {isInside : Bool}

def Entries (m : ℤ → ℚ) : Prop := ∀ i, m i = -1 ∨ 0 ≤ m i

theorem Entries.update {a : ℚ} (hm : Entries m) (ha : 0 ≤ a) (j : ℤ) : Entries (update m j a) := by
  intro i
  by_cases hi : i = j
  · rw [hi, update_self]
    exact .inr ha
  · rw [update_of_ne hi]
    exact hm i

theorem Entries.makeCostMap (T : ThreatTerrain P.pathMapXSize P.pathMapYSize) (hm : Entries m) {p p' : CMicroPather}
    (hp : Reachable P.pathMapXSize P.pathMapYSize p) {fuel startNode : ℕ} {m' : ℤ → ℚ}
    (hs : startNode < (P.pathMapXSize + 2) * (P.pathMapYSize + 2))
    (hrun : p.makeCostMap T.data fuel startNode m = some (m', p')) : Entries m' := by
  have hi := hp.idle
  have hint := CMicroPather.fixNode_interior hi.mapSizeX hi.mapSizeY T.sizeX_pos T.sizeY_pos hs
  rw [makeCostMap_eq, hi.isRunning, if_neg Bool.false_ne_true] at hrun
  have hstep : ∀ q (m : ℤ → ℚ), Searching (costRules_charts T) (p.fixNode startNode) p.nextFrame.frame [] (fun _ => false) q →
      Entries m → 0 < q.size →
      Entries (Function.update m (q.pop.2.nodes q.pop.1).index2 (q.pop.2.nodes q.pop.1).costFromStart) := by
    intro q m hq hm h0
    obtain ⟨⟨l, hl⟩, -⟩ := hq.popped_cheapest h0
    rw [costRules_field] at hl
    exact hm.update (path_nonneg hl) _
  cases hr : searchLoop (costRules T.data) p.nextFrame.mapSizeX p.nextFrame.frame (fun _ _ => false)
      (fun m n => Function.update m n.index2 n.costFromStart) fuel
      (startQueue (costRules T.data) p.nextFrame (p.fixNode startNode) []) m with
  | none =>
    rw [hr] at hrun
    cases hrun
  | some r =>
    obtain ⟨res, q, costMap⟩ := r
    have hst := hi.nextFrame.stops hint (fun _ _ _ => rfl) (J := fun _ m => Entries m) hstep hm hr
    rw [hr] at hrun
    obtain ⟨rfl, -⟩ : costMap = m' ∧ _ := Prod.mk.inj (Option.some.inj hrun)
    match res, hst with
    | none, ⟨⟨_, hm'⟩, _⟩ => exact hm'
    | some _, ⟨_, ⟨_, hm'⟩, _⟩ => exact hm'

theorem Made.entries (hm : Made P m) : Entries m := by
  induction hm with
  | prepared => exact fun _ => .inl rfl
  | run T _ hp hs hrun ih => exact ih.makeCostMap T hp hs hrun

/-! ## Reads -/

theorem minCost_eq (hc : isInside = true → P.isInPathMap c = true) (v : ℚ) :
    P.minCost isInside m v c = P.minCost false m v c := by
  cases isInside with
  | false => rfl
  | true => simp [PathFinder.minCost, hc rfl]

theorem readMinCost_eq (hc : isInside = true → P.isInPathMap c = true) (v : ℚ) :
    P.readMinCost isInside m v c = some (P.minCost false m v c) := by
  rw [← minCost_eq hc]
  by_cases hin : P.isInPathMap c = true
  · simp [PathFinder.readMinCost, PathFinder.minCost, PathFinder.readCost, hin]
  · have hout : isInside = false := eq_false_iff.2 fun h => hin (hc h)
    simp [PathFinder.readMinCost, PathFinder.minCost, hin, hout]

theorem foldlM_readMinCost (hl : ∀ c ∈ l, isInside = true → P.isInPathMap c = true) (v : ℚ) :
    l.foldlM (P.readMinCost isInside m) v = some (l.foldl (P.minCost false m) v) := by
  induction l generalizing v with
  | nil => rfl
  | cons c l ih =>
    rw [foldlM_cons, readMinCost_eq (hl c mem_cons_self)]
    exact ih (fun d hd => hl d (mem_cons_of_mem c hd)) _

theorem foldl_minCost (hl : ∀ c ∈ l, isInside = true → P.isInPathMap c = true) (v : ℚ) :
    l.foldl (P.minCost isInside m) v = l.foldl (P.minCost false m) v := by
  induction l generalizing v with
  | nil => rfl
  | cons c l ih =>
    rw [foldl_cons, foldl_cons, minCost_eq (hl c mem_cons_self)]
    exact ih (fun d hd => hl d (mem_cons_of_mem c hd)) _

/-! ## The lowest cost -/

theorem Lowest.skip (h : Lowest P m l v) (hc : P.isInPathMap c = true → m (P.pathXY2PathIndex c) < 0) :
    Lowest P m (l ++ [c]) v := by
  cases h with
  | none hnone =>
    refine .none fun d hd hin => ?_
    rcases mem_append.1 hd with hd | hd
    · exact hnone d hd hin
    · rw [mem_singleton] at hd
      exact hd ▸ hc (hd ▸ hin)
  | least hmem hin hpos hle =>
    refine .least (mem_append_left _ hmem) hin hpos fun d hd hdin hdpos => ?_
    rcases mem_append.1 hd with hd | hd
    · exact hle d hd hdin hdpos
    · rw [mem_singleton] at hd
      subst hd
      exact absurd (hc hdin) (not_lt.2 hdpos)

theorem Lowest.take (hin : P.isInPathMap c = true) (hpos : 0 ≤ m (P.pathXY2PathIndex c))
    (hle : ∀ d ∈ l, P.isInPathMap d = true → 0 ≤ m (P.pathXY2PathIndex d) →
      m (P.pathXY2PathIndex c) ≤ m (P.pathXY2PathIndex d)) : Lowest P m (l ++ [c]) (m (P.pathXY2PathIndex c)) := by
  refine .least (mem_append_right _ (mem_singleton_self c)) hin hpos fun d hd hdin hdpos => ?_
  rcases mem_append.1 hd with hd | hd
  · exact hle d hd hdin hdpos
  · rw [mem_singleton.1 hd]

theorem Lowest.minCost (h : Lowest P m l v) (hm : Entries m) (c : ℤ × ℤ) :
    Lowest P m (l ++ [c]) (P.minCost false m v c) := by
  by_cases hin : P.isInPathMap c = true
  swap
  · have hv : P.minCost false m v c = v := by simp [PathFinder.minCost, hin]
    rw [hv]
    exact h.skip fun hin' => absurd hin' hin
  have hcost : P.minCost false m v c =
      if v < 0 then m (P.pathXY2PathIndex c)
      else if m (P.pathXY2PathIndex c) < 0 then v else min v (m (P.pathXY2PathIndex c)) := by
    simp [PathFinder.minCost, hin]
  rw [hcost]
  rcases hm (P.pathXY2PathIndex c) with hentry | hentry
  · -- no cost at this point: the cost so far stays, and -1 is replaced by -1
    have hskip := h.skip (c := c) fun _ => by rw [hentry]; norm_num
    rw [hentry, if_pos (by norm_num : (-1 : ℚ) < 0)]
    cases h with
    | none hnone => simpa using hskip
    | least hmem hin' hpos hle => rwa [if_neg (not_lt.2 hpos)]
  · rw [if_neg (not_lt.2 hentry)]
    cases h with
    | none hnone =>
      rw [if_pos (by norm_num)]
      exact .take hin hentry fun d hd hdin hdpos => absurd (hnone d hd hdin) (not_lt.2 hdpos)
    | @least d hmem hin' hpos hle =>
      rw [if_neg (not_lt.2 hpos)]
      rcases le_total (m (P.pathXY2PathIndex d)) (m (P.pathXY2PathIndex c)) with hdc | hcd
      · rw [min_eq_left hdc]
        refine .least (mem_append_left _ hmem) hin' hpos fun e he hein hepos => ?_
        rcases mem_append.1 he with he | he
        · exact hle e he hein hepos
        · rw [mem_singleton.1 he]
          exact hdc
      · rw [min_eq_right hcd]
        exact .take hin hentry fun e he hein hepos => hcd.trans (hle e he hein hepos)

theorem Lowest.foldl (h : Lowest P m l v) (hm : Entries m) (l' : List (ℤ × ℤ)) :
    Lowest P m (l ++ l') (l'.foldl (P.minCost false m) v) := by
  induction l' generalizing l v with
  | nil => rwa [append_nil]
  | cons c l' ih =>
    have hrest := ih (h.minCost hm c)
    rwa [append_assoc, singleton_append] at hrest

/-! ## The lookup -/

/-- A lookup with a radius of a square or more reads the map inside only, whichever function `minCost` is, and finds the
lowest cost around the position. -/
theorem getCostAt_lowest (P : PathFinder) (m : ℤ → ℚ) (hm : Made P m) (endPos : Pos) (radius : ℤ)
    (hr : P.squareSize ≤ radius) :
    P.readCostAt (P.isWithin (P.pos2PathXY endPos) (radius.tdiv P.squareSize)) m endPos radius =
        some (P.getCostAt m endPos radius) ∧ P.readCostAt false m endPos radius = some (P.getCostAt m endPos radius) ∧
      Lowest P m (PathFinder.ring (P.pos2PathXY endPos) (radius.tdiv P.squareSize)) (P.getCostAt m endPos radius) := by
  have hsq : (0 : ℤ) < P.squareSize := by exact_mod_cast P.squareSize_pos
  have hr₁ : 1 ≤ radius.tdiv P.squareSize := by
    rw [Int.tdiv_eq_ediv_of_nonneg (hsq.le.trans hr)]
    exact Int.le_ediv_of_mul_le hsq (by rwa [one_mul])
  have hin : ∀ c ∈ PathFinder.ring (P.pos2PathXY endPos) (radius.tdiv P.squareSize),
      P.isWithin (P.pos2PathXY endPos) (radius.tdiv P.squareSize) = true → P.isInPathMap c = true :=
    fun c hc hwithin => isInPathMap_ring hr₁ hwithin c hc
  have hcost : P.getCostAt m endPos radius =
      (PathFinder.ring (P.pos2PathXY endPos) (radius.tdiv P.squareSize)).foldl (P.minCost false m) (-1) :=
    foldl_minCost hin (-1)
  have hempty : Lowest P m [] (-1) := .none fun c hc => absurd hc not_mem_nil
  rw [hcost]
  refine ⟨foldlM_readMinCost hin (-1), foldlM_readMinCost (fun c _ hf => absurd hf false_ne_true) (-1), ?_⟩
  exact hempty.foldl hm.entries _

def row : PathFinder := ⟨8, 3, 1, eight_pos⟩

theorem getCostAt_lowest_row : ∃ m, Made row m ∧ row.getCostAt m ⟨12, 4⟩ 8 = 0 ∧
    row.readCostAt (row.isWithin (row.pos2PathXY ⟨12, 4⟩) 1) m ⟨12, 4⟩ 8 = some 0 ∧
    Lowest row m (PathFinder.ring (row.pos2PathXY ⟨12, 4⟩) 1) 0 := by
  obtain ⟨m, p', hrun, -⟩ := (Reachable.new id).idle.makeCostMap (threatRow 5 (by norm_num)) (show 6 < 15 by decide)
    (show 15 ≤ 15 from le_rfl)
  have hm : Made row m := .run (threatRow 5 (by norm_num)) .prepared (.new id) (show 6 < 15 by decide) hrun
  have hcost : ((CMicroPather.new 3 1 id).makeCostMap (threatRow 5 (by norm_num)).data 15 6 fun _ => -1).map
      (fun r => row.getCostAt r.1 ⟨12, 4⟩ 8) = some 0 := by
    decide +kernel
  rw [hrun, map_some, some_inj] at hcost
  obtain ⟨hread, -, hlow⟩ := getCostAt_lowest row m hm ⟨12, 4⟩ 8 (by decide)
  rw [hcost] at hread hlow
  exact ⟨m, hm, hcost, hread, hlow⟩

end Circuit.Spec.CostLookups
