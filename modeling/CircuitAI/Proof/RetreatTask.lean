import CircuitAI.Proof.MicroPather.CostMap
import CircuitAI.Spec.Repairers

/-!
# When a switch of the repairer is to the unit's advantage

* `entry_code`: what an exact cost map says of one point;
* `getCostAt_code`: `GetCostAt` codes the lowest cost to the ring, with -1 for a ring that cannot be reached;
* `applyCostMap_iff`: the switch compares the cost around the unit with that of its destination.
-/

namespace Circuit.Spec.Repairers

open Impl.MicroPather Impl.RetreatTask Spec.GridPath Framework.BestFirst List CMicroPather
open CMicroPather (costRules)
open Impl.ThreatMap (toInt)

/-! ## Codes -/

variable {w : WithTop ℚ}

def code (isMobile : Bool) (c : WithTop ℚ) : ℚ := if isMobile then (c.untopD (-1)) / 2 else c.untopD (-1)

@[simp]
theorem code_top_false : code false ⊤ = -1 := rfl

@[simp]
theorem code_coe_false (a : ℚ) : code false (a : WithTop ℚ) = a := rfl

theorem min_code {c : WithTop ℚ} (hc : 0 ≤ c) (hw : 0 ≤ w) :
    (if code false c < 0 then code false w else if code false w < 0 then code false c
      else min (code false c) (code false w)) = code false (c ⊓ w) := by
  induction c using WithTop.recTopCoe with
  | top => simp
  | coe a =>
    have ha : (0 : ℚ) ≤ a := by exact_mod_cast hc
    induction w using WithTop.recTopCoe with
    | top => simp [not_lt.mpr ha]
    | coe b =>
      have hb : (0 : ℚ) ≤ b := by exact_mod_cast hw
      rw [code_coe_false, code_coe_false, if_neg (not_lt.mpr ha), if_neg (not_lt.mpr hb), ← WithTop.coe_min,
        code_coe_false]

section Ring

variable {P : PathFinder} {T : ThreatTerrain P.pathMapXSize P.pathMapYSize} {s : ℕ} {m : ℤ → ℚ} {limit : ℚ}

/-! ## One point -/

variable {c : ℤ × ℤ} {v : ℕ} {a : ℚ} {radius : ℤ}

theorem moveNode_interior (hc : P.isInPathMap c = true) :
    Interior P.pathMapXSize P.pathMapYSize (moveNode P.pathMapXSize c) ∧
      index2 P.pathMapXSize (moveNode P.pathMapXSize c) = P.pathXY2PathIndex c := by
  obtain ⟨x, y⟩ := c
  simp only [PathFinder.isInPathMap, decide_eq_true_eq] at hc
  obtain ⟨a, rfl⟩ := Int.eq_ofNat_of_zero_le hc.1.1
  obtain ⟨b, rfl⟩ := Int.eq_ofNat_of_zero_le hc.2.1
  have hv : moveNode P.pathMapXSize ((a : ℤ), (b : ℤ)) = (b + 1) * (P.pathMapXSize + 2) + (a + 1) := by
    rw [moveNode]
    exact_mod_cast Int.toNat_natCast ((b + 1) * (P.pathMapXSize + 2) + (a + 1))
  obtain ⟨hm, hd⟩ := mod_div_of_eq (W := P.pathMapXSize + 2) (x := a + 1) (y := b + 1) (by omega) hv
  refine ⟨⟨by omega, by omega, by omega, by omega⟩, ?_⟩
  rw [index2, hm, hd, PathFinder.pathXY2PathIndex]
  push_cast
  ring

theorem path_nonneg {l : List ℕ} (h : T.field.Path s l v a) : 0 ≤ a := by
  rw [← costRules_field T] at h
  have hw : Walk (problem (costRules_charts T) s) l v a := walk_iff_path.mpr h
  exact hw.nonneg

theorem path_interior (hs : Interior P.pathMapXSize P.pathMapYSize s) {l : List ℕ}
    (h : T.field.Path s l v a) : Interior P.pathMapXSize P.pathMapYSize v := by
  rw [← costRules_field T] at h
  have hw : Walk (problem (costRules_charts T) s) l v a := walk_iff_path.mpr h
  exact (interior_of_walk hs hw).1

theorem cheapest_unique {F : Field} {b : ℚ} (ha : F.Cheapest s v a) (hb : F.Cheapest s v b) : a = b := by
  obtain ⟨l, hl⟩ := ha.1
  obtain ⟨l', hl'⟩ := hb.1
  exact le_antisymm (ha.2 l' b hl') (hb.2 l a hl)

theorem reachCosts_nonneg {cells : List (ℤ × ℤ)} {b : WithTop ℚ} (hb : b ∈ reachCosts T.field limit s P cells) :
    0 ≤ b := by
  obtain ⟨c, -, -, a, ha, -, rfl⟩ := hb
  obtain ⟨l, hl⟩ := ha.1
  exact_mod_cast path_nonneg hl

theorem reachCosts_append (l l' : List (ℤ × ℤ)) :
    reachCosts T.field limit s P (l ++ l') = reachCosts T.field limit s P l ∪ reachCosts T.field limit s P l' := by
  ext b
  simp only [reachCosts, mem_append, Set.mem_union, Set.mem_ofPred_eq]
  grind

section

variable (hs : Interior P.pathMapXSize P.pathMapYSize s) (hm : T.field.CostMap limit (index2 P.pathMapXSize) s m)
include hs hm

theorem entry_code (hc : P.isInPathMap c = true) :
    ∃ w : WithTop ℚ, IsGLB (reachCosts T.field limit s P [c]) w ∧ m (P.pathXY2PathIndex c) = code false w := by
  obtain ⟨hint, hidx⟩ := moveNode_interior hc
  by_cases hr : ∃ l a, T.field.Path s l (moveNode P.pathMapXSize c) a ∧ a < limit
  · obtain ⟨l, a, hp, ha⟩ := hr
    have hch := hm.reached _ l a hp ha
    rw [hidx] at hch
    refine ⟨(m (P.pathXY2PathIndex c) : ℚ), ?_, (code_coe_false _).symm⟩
    have hset : reachCosts T.field limit s P [c] = {((m (P.pathXY2PathIndex c) : ℚ) : WithTop ℚ)} := by
      ext b
      simp only [reachCosts, mem_singleton, Set.mem_ofPred_eq, Set.mem_singleton_iff, exists_eq_left, hc, true_and]
      constructor
      · rintro ⟨a', ha', -, rfl⟩
        rw [cheapest_unique ha' hch]
      · rintro rfl
        exact ⟨_, hch, (hch.2 l a hp).trans_lt ha, rfl⟩
    rw [hset]
    exact isGLB_singleton
  · have hnone : m (P.pathXY2PathIndex c) = -1 := by
      refine hm.other _ fun v l a hp ha hv => hr ⟨l, a, ?_, ha⟩
      have hvc := index2_injective (path_interior hs hp) hint (hv.trans hidx.symm)
      exact hvc ▸ hp
    refine ⟨⊤, ?_, hnone.trans code_top_false.symm⟩
    have hset : reachCosts T.field limit s P [c] = ∅ := by
      refine Set.eq_empty_of_forall_notMem ?_
      rintro b ⟨c', hc', -, a, ha, hlt, -⟩
      rw [mem_singleton] at hc'
      subst hc'
      obtain ⟨l, hl⟩ := ha.1
      exact hr ⟨l, a, hl, hlt⟩
    rw [hset]
    exact isGLB_empty

/-! ## The ring -/

theorem minCost_code {isInside : Bool} {l : List (ℤ × ℤ)}
    (hw : IsGLB (reachCosts T.field limit s P l) w) (hc : isInside = true → P.isInPathMap c = true) :
    ∃ w', IsGLB (reachCosts T.field limit s P (l ++ [c])) w' ∧
      P.minCost isInside m (code false w) c = code false w' := by
  rw [reachCosts_append, PathFinder.minCost]
  have hw0 : 0 ≤ w := hw.2 fun b hb => reachCosts_nonneg hb
  by_cases hin : P.isInPathMap c = true
  · obtain ⟨v, hv, hmv⟩ := entry_code hs hm hin
    have hv0 : 0 ≤ v := hv.2 fun b hb => reachCosts_nonneg hb
    refine ⟨w ⊓ v, hw.union hv, ?_⟩
    rw [hin, Bool.not_true, Bool.and_false, if_neg Bool.false_ne_true, hmv]
    exact min_code hw0 hv0
  · have hout : isInside = false := Bool.eq_false_iff.mpr fun h => hin (hc h)
    have hempty : reachCosts T.field limit s P [c] = ∅ := by
      refine Set.eq_empty_of_forall_notMem ?_
      rintro b ⟨c', hc', hin', -⟩
      rw [mem_singleton] at hc'
      exact hin (hc' ▸ hin')
    refine ⟨w, by rwa [hempty, Set.union_empty], ?_⟩
    rw [hout, Bool.eq_false_iff.mpr hin]
    rfl

theorem foldl_minCost_code (isInside : Bool) (l l' : List (ℤ × ℤ))
    (hw : IsGLB (reachCosts T.field limit s P l) w) (hl' : ∀ c ∈ l', isInside = true → P.isInPathMap c = true) :
    ∃ w', IsGLB (reachCosts T.field limit s P (l ++ l')) w' ∧
      l'.foldl (P.minCost isInside m) (code false w) = code false w' := by
  induction l' generalizing l w with
  | nil => exact ⟨w, by rwa [append_nil], rfl⟩
  | cons c l' ih =>
    obtain ⟨w₁, hw₁, hc₁⟩ := minCost_code hs hm hw (hl' c mem_cons_self)
    obtain ⟨w₂, hw₂, hc₂⟩ := ih (l ++ [c]) hw₁ fun c' hc' => hl' c' (mem_cons_of_mem c hc')
    refine ⟨w₂, ?_, ?_⟩
    · rwa [append_assoc, singleton_append] at hw₂
    · rw [foldl_cons, hc₁, hc₂]

end

theorem corner_le (hr : 1 ≤ radius) : 0 ≤ toInt (radius * ISQRT_2 + 1) ∧ toInt (radius * ISQRT_2 + 1) ≤ radius := by
  have hr' : (1 : ℚ) ≤ radius := by exact_mod_cast hr
  have h0 : (0 : ℚ) ≤ radius * ISQRT_2 + 1 := by
    rw [ISQRT_2, SQRT_2]
    linarith
  rw [toInt, if_pos h0]
  refine ⟨Int.floor_nonneg.mpr h0, Int.le_of_lt_add_one (Int.floor_lt.mpr ?_)⟩
  push_cast
  rw [ISQRT_2, SQRT_2]
  linarith

theorem isInPathMap_ring (hr : 1 ≤ radius) (hc : P.isWithin c radius = true) :
    ∀ c' ∈ PathFinder.ring c radius, P.isInPathMap c' = true := by
  obtain ⟨h0, hle⟩ := corner_le hr
  intro c' hc'
  simp only [PathFinder.isWithin, PathFinder.isInPathMap, decide_eq_true_eq] at hc ⊢
  simp only [PathFinder.ring, mem_cons, not_mem_nil, or_false] at hc'
  rcases hc' with rfl | rfl | rfl | rfl | rfl | rfl | rfl | rfl <;> dsimp only <;> omega

theorem getCostAt_code (hs : Interior P.pathMapXSize P.pathMapYSize s)
    (hm : T.field.CostMap limit (index2 P.pathMapXSize) s m) (pos : Pos) (hr : 1 ≤ radius.tdiv P.squareSize) :
    ∃ w, RingCost T.field limit s P pos (radius.tdiv P.squareSize) w ∧ P.getCostAt m pos radius = code false w := by
  have hempty : IsGLB (reachCosts T.field limit s P []) ⊤ := by
    have hset : reachCosts T.field limit s P [] = ∅ := by simp [reachCosts]
    rw [hset]
    exact isGLB_empty
  obtain ⟨w, hw, hc⟩ := foldl_minCost_code hs hm (P.isWithin (P.pos2PathXY pos) (radius.tdiv P.squareSize)) []
    (PathFinder.ring (P.pos2PathXY pos) (radius.tdiv P.squareSize)) hempty
    fun c hc hin => isInPathMap_ring hr hin c hc
  exact ⟨w, hw, hc⟩

theorem ringCost_nonneg {pos : Pos} (hw : RingCost T.field limit s P pos radius w) : 0 ≤ w :=
  hw.2 fun _ hb => reachCosts_nonneg hb

end Ring

/-! ## The switch -/

theorem code_halved (isMobile : Bool) (w : WithTop ℚ) :
    (if isMobile then code false w / 2 else code false w) = code isMobile w := by
  cases isMobile <;> rfl

theorem code_lt_code_iff {prev own : WithTop ℚ} (hprev : 0 ≤ prev) (hown : 0 ≤ own) (b b' : Bool) :
    code b' own < code b prev ↔
      (prev ≠ ⊤ ∧ ¬ (own ≠ ⊤ ∧ halved b prev ≤ halved b' own)) ∨ (prev = ⊤ ∧ own = ⊤ ∧ b' = false ∧ b = true) := by
  induction prev using WithTop.recTopCoe with
  | top =>
    induction own using WithTop.recTopCoe with
    | top => cases b <;> cases b' <;> norm_num [code]
    | coe o =>
      have ho : (0 : ℚ) ≤ o := by exact_mod_cast hown
      cases b <;> cases b' <;> simp [code] <;> linarith
  | coe a =>
    have ha : (0 : ℚ) ≤ a := by exact_mod_cast hprev
    induction own using WithTop.recTopCoe with
    | top => cases b <;> cases b' <;> simp [code] <;> linarith
    | coe o => cases b <;> cases b' <;> simp [code, halved]

theorem halved_eq_top (b : Bool) (w : WithTop ℚ) : halved b w = ⊤ ↔ w = ⊤ := by
  induction w using WithTop.recTopCoe with
  | top => exact iff_of_true rfl rfl
  | coe a => cases b <;> simp [halved]

section Switch

variable {U : Type*} {g : Game U} {t : CRetreatTask U} {unit newRep : U}

def ringRadius (g : Game U) (t : CRetreatTask U) (unit : U) : ℤ :=
  (toInt (t.destination g unit).2).tdiv g.pathfinder.squareSize

theorem one_le_ringRadius (g : Game U) (t : CRetreatTask U) (unit : U) : 1 ≤ ringRadius g t unit := by
  have hsq : (0 : ℤ) < g.pathfinder.squareSize := by exact_mod_cast g.pathfinder.squareSize_pos
  have hrange : (g.pathfinder.squareSize : ℚ) ≤ (t.destination g unit).2 := by
    have := g.buildDistance_nonneg
    rw [CRetreatTask.destination]
    split
    · exact le_rfl
    · dsimp only
      linarith
  have hint : (g.pathfinder.squareSize : ℤ) ≤ toInt (t.destination g unit).2 := by
    rw [toInt, if_pos ((Nat.cast_nonneg _).trans hrange)]
    exact Int.le_floor.mpr (by exact_mod_cast hrange)
  rw [ringRadius, Int.tdiv_eq_ediv_of_nonneg (hsq.le.trans hint)]
  exact (Int.le_ediv_iff_mul_le hsq).mpr (by rwa [one_mul])

theorem applyCostMap_iff (m : ℤ → ℚ) (hne : t.repairer ≠ some newRep) {prev own : WithTop ℚ}
    (hprev : g.pathfinder.getCostAt m (t.destination g unit).1 (toInt (t.destination g unit).2) = code false prev)
    (hown : g.pathfinder.getCostAt m (g.pos unit) (toInt (t.destination g unit).2) = code false own) :
    (t.applyCostMap g m unit newRep).repairer = some newRep ↔
      code (g.isMobile unit) own < code (t.repairer.any g.isMobile) prev := by
  simp only [CRetreatTask.applyCostMap, hprev, hown, code_halved]
  split
  · rename_i h
    exact iff_of_true rfl h
  · rename_i h
    exact iff_of_false hne h

/-- On the cost map of a unit, a switch to a new repairer is to the unit's advantage exactly where the cost around the
unit itself decides as the cost of the new repairer would. -/
theorem switch_advantageous_iff (g : Game U)
    (T : ThreatTerrain g.pathfinder.pathMapXSize g.pathfinder.pathMapYSize) {p p' : CMicroPather}
    (h : Reachable g.pathfinder.pathMapXSize g.pathfinder.pathMapYSize p) (startPos : Pos)
    (hs : g.pathfinder.pos2MoveNode startPos <
      (g.pathfinder.pathMapXSize + 2) * (g.pathfinder.pathMapYSize + 2)) {fuel : ℕ}
    (hfuel : (g.pathfinder.pathMapXSize + 2) * (g.pathfinder.pathMapYSize + 2) ≤ fuel) {costMap : ℤ → ℚ}
    (hmap : p.makeCostMap T.data fuel (g.pathfinder.pos2MoveNode startPos) (fun _ => -1) = some (costMap, p'))
    (t : CRetreatTask U) (unit newRep : U) (hne : t.repairer ≠ some newRep) : ∃ prev own new,
      RingCost T.field (FLT_BIG / 2) (p.fixNode (g.pathfinder.pos2MoveNode startPos)) g.pathfinder
        (t.destination g unit).1 (ringRadius g t unit) prev ∧
      RingCost T.field (FLT_BIG / 2) (p.fixNode (g.pathfinder.pos2MoveNode startPos)) g.pathfinder
        (g.pos unit) (ringRadius g t unit) own ∧
      RingCost T.field (FLT_BIG / 2) (p.fixNode (g.pathfinder.pos2MoveNode startPos)) g.pathfinder
        (g.pos newRep) (ringRadius g t unit) new ∧
      (Advantageous (halved (t.repairer.any g.isMobile) prev) (halved (g.isMobile newRep) new)
          ((t.applyCostMap g costMap unit newRep).repairer = some newRep) ↔
        Decides (halved (t.repairer.any g.isMobile) prev) (halved (g.isMobile unit) own)
          (halved (g.isMobile newRep) new) (t.repairer.any g.isMobile) (g.isMobile unit)) := by
  have hi := h.idle
  have hint := fixNode_interior hi.mapSizeX hi.mapSizeY T.sizeX_pos T.sizeY_pos hs
  obtain ⟨m, p₁, hmap₁, hm⟩ := hi.makeCostMap T hs hfuel
  obtain ⟨rfl, rfl⟩ := Prod.mk.inj (Option.some.inj (hmap₁.symm.trans hmap))
  have hr := one_le_ringRadius g t unit
  obtain ⟨prev, hprev, hprevc⟩ := getCostAt_code hint hm (t.destination g unit).1 hr
  obtain ⟨own, hown, hownc⟩ := getCostAt_code hint hm (g.pos unit) hr
  obtain ⟨new, hnew, -⟩ := getCostAt_code hint hm (g.pos newRep) hr
  refine ⟨prev, own, new, hprev, hown, hnew, ?_⟩
  rw [applyCostMap_iff m hne hprevc hownc, code_lt_code_iff (ringCost_nonneg hprev) (ringCost_nonneg hown)]
  simp only [Advantageous, Decides, ne_eq, halved_eq_top]
  by_cases hp : prev = ⊤
  · subst hp
    simp only [show halved (t.repairer.any g.isMobile) ⊤ = ⊤ from rfl, lt_top_iff_ne_top, ne_eq, halved_eq_top,
      not_true_eq_false, false_and, true_and, false_or, forall_const, false_imp_iff]
    exact ⟨fun hadv => ⟨hadv.2, hadv.1⟩, fun hdec => ⟨hdec.2, hdec.1⟩⟩
  · simp only [hp, not_false_eq_true, true_and, false_and, or_false, forall_const, false_imp_iff, and_true]
    exact or_iff_not_imp_left.symm

end Switch

/-! ## A corridor -/

theorem eight_pos : 0 < 8 := by decide

theorem calm_nonneg (_ : ℤ) : (0 : ℚ) ≤ 0 := le_rfl

def corridorTerrain : ThreatTerrain 8 1 where
  data :=
    { canMoveArray := fun v => decide (11 ≤ v ∧ v ≤ 14)
      threatArray := fun _ => 0
      moveFun := fun _ => 0
      threatFun := fun _ => 0 }
  sizeX_pos := eight_pos
  sizeY_pos := Nat.one_pos
  border v _ hb := by
    rw [decide_eq_false_iff_not]
    omega
  threat_nonneg := calm_nonneg

def corridor (haven rep : ℚ) : Game (Fin 2) where
  pathfinder := ⟨8, 8, 1, eight_pos⟩
  pos u := if u = 0 then ⟨4, 4⟩ else ⟨rep, 4⟩
  isMobile _ := true
  closestHaven _ := some ⟨haven, 4⟩
  basePos := ⟨4, 4⟩
  buildDistance := 0
  buildDistance_nonneg := le_rfl

theorem switch_advantageous_iff_corridor : ∃ costMap p',
    (CMicroPather.new 8 1 id).makeCostMap corridorTerrain.data 30 11 (fun _ => -1) = some (costMap, p') ∧
    ∃ prev own new, RingCost corridorTerrain.field (FLT_BIG / 2) 11 (corridor 28 20).pathfinder ⟨28, 4⟩ 1 prev ∧
      RingCost corridorTerrain.field (FLT_BIG / 2) 11 (corridor 28 20).pathfinder ⟨4, 4⟩ 1 own ∧
      RingCost corridorTerrain.field (FLT_BIG / 2) 11 (corridor 28 20).pathfinder ⟨20, 4⟩ 1 new ∧
      (Advantageous (halved false prev) (halved true new)
          ((CRetreatTask.applyCostMap (corridor 28 20) costMap 0 1 ⟨none⟩).repairer = some 1) ↔
        Decides (halved false prev) (halved true own) (halved true new) false true) := by
  have hi : Idle 8 1 (new 8 1 id) := (Reachable.new id).idle
  obtain ⟨costMap, p', hmap, -⟩ := hi.makeCostMap corridorTerrain (show 11 < 30 by decide) (show 30 ≤ 30 from le_rfl)
  have hstart : (corridor 28 20).pathfinder.pos2MoveNode ⟨4, 4⟩ = 11 := by decide +kernel
  have hradius : ringRadius (corridor 28 20) ⟨none⟩ 0 = 1 := by decide +kernel
  have hfix : (new (corridor 28 20).pathfinder.pathMapXSize (corridor 28 20).pathfinder.pathMapYSize
      id).fixNode 11 = 11 := by
    decide
  have h := switch_advantageous_iff (corridor 28 20) corridorTerrain (Reachable.new id) ⟨4, 4⟩
    (by rw [hstart]; decide) (show 30 ≤ 30 from le_rfl) (by rw [hstart]; exact hmap) ⟨none⟩ 0 1 (by decide)
  rw [hstart, hradius, hfix] at h
  exact ⟨costMap, p', hmap, h⟩

/-- The costs that the decision should be about are not those it is about. A candidate that cannot be reached becomes the
repairer of a unit whose haven is near; and the candidate two cells away does not, though the haven cannot be reached. -/
theorem corridor_switches :
    ((CMicroPather.new 8 1 id).makeCostMap corridorTerrain.data 30 11 (fun _ => -1)).map (fun r =>
      ((CRetreatTask.applyCostMap (corridor 28 52) r.1 0 1 ⟨none⟩).repairer,
        (corridor 28 52).pathfinder.getCostAt r.1 ⟨28, 4⟩ 8, (corridor 28 52).pathfinder.getCostAt r.1 ⟨52, 4⟩ 8)) =
      some (some 1, 2, -1) ∧
    ((CMicroPather.new 8 1 id).makeCostMap corridorTerrain.data 30 11 (fun _ => -1)).map (fun r =>
      ((CRetreatTask.applyCostMap (corridor 52 20) r.1 0 1 ⟨none⟩).repairer,
        (corridor 52 20).pathfinder.getCostAt r.1 ⟨52, 4⟩ 8, (corridor 52 20).pathfinder.getCostAt r.1 ⟨20, 4⟩ 8)) =
      some (none, -1, 1) :=
  ⟨by decide +kernel, by decide +kernel⟩

end Circuit.Spec.Repairers
