import CircuitAI.Proof.MicroPather.Grid
import CircuitAI.Proof.MicroPather.Idle

/-!
# The turns of a search

The loop of a search whose rules suit the map (`Rules.Charts`) is a best-first search (`problem`), whose walks are the
paths of the move map (`walk_iff_path`): `Searching` is its invariant, kept by each turn (`Searching.step`). A turn
closes one cell (`Searching.expand_inv`), so the loop ends (`Fresh.search`).
-/

namespace Circuit.Impl.MicroPather

open Circuit.Framework.BestFirst Finset
open Circuit.Spec.GridPath

section

variable {sizeX sizeY : Nat} {R : Rules} {v : Nat}

def Rules.est (R : Rules) (sizeX v : Nat) : ℚ := R.estimate ((R.field sizeX).col v) ((R.field sizeX).row v)

def problem (hR : R.Charts sizeX sizeY) (s : Nat) : Problem Nat ℚ where
  edge u v c := (R.field sizeX).KingStep u v ∧ (R.field sizeX).Enterable v ∧ c = (R.field sizeX).stepCost u v
  start := s
  est := R.est sizeX
  big := unreached
  nonneg := by
    rintro u v c ⟨-, -, rfl⟩
    exact hR.stepCost_nonneg u v
  consistent := by
    rintro u v c ⟨h, -, rfl⟩
    exact hR.consistent h
  big_pos := unreached_pos

variable {hR : R.Charts sizeX sizeY} {s : Nat}

theorem walk_iff_path {l : List Nat} {a : ℚ} : Walk (problem hR s) l v a ↔ (R.field sizeX).Path s l v a := by
  constructor
  · intro h
    induction h with
    | nil => exact .start
    | snoc _ e ih =>
      obtain ⟨hk, he, rfl⟩ := e
      exact .step ih hk he
  · intro h
    induction h with
    | start => exact .nil
    | step _ hk he ih => exact .snoc ih ⟨hk, he, rfl⟩

theorem interior_of_walk (hs : Interior sizeX sizeY s) {l : List Nat} {a : ℚ}
    (h : Walk (problem hR s) l v a) : Interior sizeX sizeY v ∧ ∀ w ∈ l, Interior sizeX sizeY w := by
  induction h with
  | nil => exact ⟨hs, fun w hw => List.mem_singleton.mp hw ▸ hs⟩
  | snoc _ e ih =>
    have hv := hR.interior ih.1 e.1 e.2.1
    refine ⟨hv, fun w hw => ?_⟩
    rcases List.mem_append.mp hw with hw | hw
    · exact ih.2 w hw
    · exact List.mem_singleton.mp hw ▸ hv

/-! ## One turn of the loop -/

theorem expanding_relaxTo {L : Labels Nat ℚ} {u : Nat} {D : Nat → Nat → ℚ → Prop} (hu : Interior sizeX sizeY u)
    (I : Expanding (problem hR s) L u D) (i : Fin 8) : Expanding (problem hR s)
        (relaxTo R (index2 sizeX) (sizeX + 2) u (L.g u) L i) u
        (fun w x c => D w x c ∨ w = u ∧ x = neighbour (sizeX + 2) u i) ∧
      (∀ w, (relaxTo R (index2 sizeX) (sizeX + 2) u (L.g u) L i).Closed (problem hR s) w ↔ L.Closed (problem hR s) w) ∧
      (relaxTo R (index2 sizeX) (sizeX + 2) u (L.g u) L i).g u = L.g u := by
  have hk := (kingStep_neighbour R hu i).1
  simp only [relaxTo]
  rw [stepCost_neighbour R hu i]
  split
  · rename_i h
    have e : (problem hR s).edge u (neighbour (sizeX + 2) u i) _ := ⟨hk, h.1, rfl⟩
    have hc := I.not_closed e h.2
    refine ⟨(I.relax e h.2).mono fun w x c he hD => hD.imp_right ?_, Labels.closed_relabel hc,
      Labels.relabel_g_of_ne (fun e => hc (by rw [← e]; exact I.closed)) _ _⟩
    rintro ⟨rfl, rfl⟩
    exact ⟨rfl, rfl, he.2.2⟩
  · rename_i h
    refine ⟨?_, fun w => .rfl, rfl⟩
    by_cases he : (R.field sizeX).Enterable (neighbour (sizeX + 2) u i)
    · have hle := not_lt.mp fun hlt => h ⟨he, hlt⟩
      refine (I.skip hle).mono fun w x c he' hD => hD.imp_right ?_
      rintro ⟨rfl, rfl⟩
      exact ⟨rfl, rfl, he'.2.2⟩
    · refine I.mono fun w x c he' hD => hD.resolve_right ?_
      rintro ⟨rfl, rfl⟩
      exact he he'.2.1

theorem expanding_foldl_relaxTo {u : Nat} (hu : Interior sizeX sizeY u) :
    ∀ (l : List (Fin 8)) {L : Labels Nat ℚ} {D : Nat → Nat → ℚ → Prop}, Expanding (problem hR s) L u D →
      Expanding (problem hR s) (l.foldl (relaxTo R (index2 sizeX) (sizeX + 2) u (L.g u)) L) u
          (fun w x c => D w x c ∨ w = u ∧ ∃ i ∈ l, x = neighbour (sizeX + 2) u i) ∧
        ∀ w, (l.foldl (relaxTo R (index2 sizeX) (sizeX + 2) u (L.g u)) L).Closed
          (problem hR s) w ↔ L.Closed (problem hR s) w
  | [], L, D, I => ⟨I.mono fun w x c _ hD => hD.elim id fun h => by simp at h, fun w => .rfl⟩
  | i :: l, L, D, I => by
    obtain ⟨h₁, hc₁, hg₁⟩ := expanding_relaxTo hu I i
    obtain ⟨h₂, hc₂⟩ := expanding_foldl_relaxTo hu l h₁
    rw [hg₁] at h₂ hc₂
    refine ⟨h₂.mono fun w x c _ hD => ?_, fun w => (hc₂ w).trans (hc₁ w)⟩
    rcases hD with hD | ⟨hw, j, hj, hx⟩
    · exact .inl (.inl hD)
    · rcases List.mem_cons.mp hj with rfl | hj
      · exact .inl (.inr ⟨hw, hx⟩)
      · exact .inr ⟨hw, j, hj, hx⟩

variable (hR s) in
structure Searching (frame : Nat) (endNodes : List Nat) (goal : Nat → Bool) (q : OpenQueueBH) : Prop where
  live : Live R frame q
  placed : ∀ v, (q.nodes v).Placed sizeX v
  isEndNode : ∀ v, (q.nodes v).isEndNode = decide (v ∈ endNodes)
  inv : Inv (problem hR s) (labels frame q) (problem hR s).edge
  not_goal : ∀ v, (labels frame q).Closed (problem hR s) v → goal v = false

section Turn

variable {frame : Nat} {endNodes : List Nat} {goal : Nat → Bool} {q : OpenQueueBH}

section

variable (h : Searching hR s frame endNodes goal q)
include h

theorem Searching.f_eq (hv : q.Queued v) : (labels frame q).f (problem hR s) v = (q.nodes v).totalCost := by
  rw [h.live.total v hv, Labels.f, labels_g, PathNode.cost, if_pos ((h.live.queued v).mp hv).1, (h.placed v).x2,
    (h.placed v).y2]
  rfl

theorem Searching.least (h0 : 0 < q.size) : Least (problem hR s) (labels frame q) q.pop.1 := by
  obtain ⟨-, -, -, hq, hmin⟩ := pop_labels h.live h0
  refine ⟨hq, fun v hv => ?_⟩
  rw [h.f_eq hq, h.f_eq hv]
  exact hmin v hv

theorem Searching.interior (hs : Interior sizeX sizeY s)
    (hv : (labels frame q).g v < unreached) : Interior sizeX sizeY v := by
  obtain ⟨l, -, hw, -⟩ := h.inv.trace v hv
  exact (interior_of_walk hs hw).1

theorem Searching.popped_cost (h0 : 0 < q.size) :
    (q.pop.2.nodes q.pop.1).costFromStart = (labels frame q).g q.pop.1 := by
  obtain ⟨-, hL, hk, hq, -⟩ := pop_labels h.live h0
  have hfr : (q.pop.2.nodes q.pop.1).frame = frame := by
    rcases (hk q.pop.1).frame with e | e
    · rw [e]; exact ((h.live.queued _).mp hq).1
    · exact e
  have hg : (labels frame q.pop.2).g q.pop.1 = (labels frame q).g q.pop.1 := by rw [hL]; rfl
  rw [← hg, labels_g, PathNode.cost, if_pos hfr]

theorem Searching.expand_inv (hf : frame < 2 ^ 16) (hs : Interior sizeX sizeY s) (h0 : 0 < q.size) : Inv (problem hR s)
        (labels frame (expand R (sizeX + 2) frame q.pop.1 q.pop.2)) (problem hR s).edge ∧
      ∀ w, (labels frame (expand R (sizeX + 2) frame q.pop.1 q.pop.2)).Closed (problem hR s) w ↔
          (labels frame q).Closed (problem hR s) w ∨ w = q.pop.1 := by
  obtain ⟨hl, hL, hk, hq, -⟩ := pop_labels h.live h0
  obtain ⟨-, hE, -⟩ := expand_ok hl hf (sizeX + 2) q.pop.1
  have hlt := h.inv.open_lt _ hq
  have hu := h.interior hs hlt
  have hidx : (fun v => (q.pop.2.nodes v).index2) = index2 sizeX :=
    funext fun v => (hk v).index2.trans (h.placed v).index2
  have hg : (q.pop.2.nodes q.pop.1).costFromStart = (labels frame q.pop.2).g q.pop.1 := by
    rw [hL]
    exact h.popped_cost h0
  have hI := h.inv.pop (h.least h0)
  rw [← hL] at hI
  obtain ⟨hX, hC⟩ := expanding_foldl_relaxTo hu (List.finRange 8) hI
  rw [hE, hidx, hg]
  refine ⟨hX.finish fun w x c e => ?_, fun w => (hC w).trans ?_⟩
  · by_cases hw : w = q.pop.1
    · obtain ⟨i, hi⟩ := exists_neighbour R e.1
      exact .inr ⟨hw, i, List.mem_finRange i, by rw [← hw, hi]⟩
    · exact .inl hw
  · rw [hL]
    exact Labels.closed_remove hlt w

theorem Searching.step (hf : frame < 2 ^ 16)
    (hs : Interior sizeX sizeY s) (h0 : 0 < q.size) (hg : goal q.pop.1 = false) : Searching hR s frame endNodes goal
      (expand R (sizeX + 2) frame q.pop.1 q.pop.2) := by
  obtain ⟨hl, -, hk, -⟩ := pop_labels h.live h0
  obtain ⟨hl', -, hk'⟩ := expand_ok hl hf (sizeX + 2) q.pop.1
  obtain ⟨hI, hC⟩ := h.expand_inv hf hs h0
  have hK := hk.trans hk'
  refine ⟨hl', fun v => ?_, fun v => (hK v).isEndNode.trans (h.isEndNode v), hI, fun v hv => ?_⟩
  · exact ⟨(hK v).x2.trans (h.placed v).x2, (hK v).y2.trans (h.placed v).y2, (hK v).index2.trans (h.placed v).index2⟩
  · rcases (hC v).mp hv with hv | rfl
    · exact h.not_goal v hv
    · exact hg

end

variable (hR s frame) in
open Classical in
noncomputable def unclosed (q : OpenQueueBH) : Finset Nat :=
  (range ((sizeX + 2) * (sizeY + 2))).filter fun v =>
    ¬ (labels frame q).Closed (problem hR s) v

theorem card_unclosed_le (q : OpenQueueBH) : (unclosed hR s frame q).card ≤ (sizeX + 2) * (sizeY + 2) := by
  classical
  exact (card_filter_le _ _).trans_eq (card_range _)

theorem Searching.card_unclosed_lt (h : Searching hR s frame endNodes goal q) (hf : frame < 2 ^ 16)
    (hs : Interior sizeX sizeY s) (h0 : 0 < q.size) : (unclosed hR s frame
      (expand R (sizeX + 2) frame q.pop.1 q.pop.2)).card < (unclosed hR s frame q).card := by
  obtain ⟨-, hC⟩ := h.expand_inv hf hs h0
  obtain ⟨-, -, -, hq, -⟩ := pop_labels h.live h0
  refine card_lt_card ((ssubset_iff_of_subset fun v hv => ?_).mpr ⟨q.pop.1, ?_, ?_⟩)
  · simp only [unclosed, mem_filter] at hv ⊢
    exact ⟨hv.1, fun hc => hv.2 ((hC v).mpr (.inl hc))⟩
  · simp only [unclosed, mem_filter, mem_range]
    exact ⟨(h.interior hs (h.inv.open_lt _ hq)).lt, fun hc => hc.2 hq⟩
  · simp only [unclosed, mem_filter, not_and, not_not]
    exact fun _ => (hC _).mpr (.inr rfl)

end Turn

/-! ## Whole searches -/

variable (hR s) in
theorem Fresh.searching {p : CMicroPather} (h : Fresh sizeX sizeY p) (endNodes : List Nat) (goal : Nat → Bool) :
    Searching hR s p.frame endNodes goal (startQueue R p s endNodes) := by
  obtain ⟨hl, hL, hs⟩ := startQueue_ok h R s endNodes
  refine ⟨hl, fun v => ?_, fun v => (hs v).isEndNode, ?_, fun v hv => ?_⟩
  · exact ⟨(hs v).x2.trans (h.placed v).x2, (hs v).y2.trans (h.placed v).y2, (hs v).index2.trans (h.placed v).index2⟩
  · rw [hL]
    exact .init (fun v => rfl) rfl rfl
  · rw [hL] at hv
    obtain ⟨hlt, ho⟩ := hv
    have hg : (startLabels s).g v = unreached := if_neg ho
    rw [hg] at hlt
    exact absurd hlt (lt_irrefl _)

section

variable {α : Type} {p : CMicroPather} (h : Fresh sizeX sizeY p) (hs : Interior sizeX sizeY s) {endNodes : List Nat}
  {goal : Nat → PathNode → Bool} {G : Nat → Bool} (hG : ∀ v n, n.isEndNode = decide (v ∈ endNodes) → goal v n = G v)
  {onPop : α → PathNode → α} {J : OpenQueueBH → α → Prop}
  (hkeep : ∀ q a, Searching hR s p.frame endNodes G q → J q a → 0 < q.size →
    J (expand R (sizeX + 2) p.frame q.pop.1 q.pop.2) (onPop a (q.pop.2.nodes q.pop.1)))
include h hs hG hkeep

theorem Fresh.turn (q : OpenQueueBH) (a : α) (hq : Searching hR s p.frame endNodes G q ∧ J q a) (h0 : 0 < q.size)
    (hg : goal q.pop.1 (q.pop.2.nodes q.pop.1) = false) :
    Searching hR s p.frame endNodes G (expand R p.mapSizeX p.frame q.pop.1 q.pop.2) ∧
      J (expand R p.mapSizeX p.frame q.pop.1 q.pop.2) (onPop a (q.pop.2.nodes q.pop.1)) := by
  obtain ⟨hq, hj⟩ := hq
  rw [hG _ _ (((pop_labels hq.live h0).2.2.1 _).isEndNode.trans (hq.isEndNode _))] at hg
  rw [h.mapSizeX]
  exact ⟨hq.step h.frame_lt hs h0 hg, hkeep q a hq hj h0⟩

theorem Fresh.stops {a : α} (hJ : J (startQueue R p s endNodes) a) {fuel : Nat} {r : Option Nat × OpenQueueBH × α}
    (hr : searchLoop R p.mapSizeX p.frame goal onPop fuel (startQueue R p s endNodes) a = some r) :
    Stops (fun q a => Searching hR s p.frame endNodes G q ∧ J q a) goal r :=
  searchLoop_ok (h.turn hs hG hkeep) fuel ⟨h.searching hR s endNodes G, hJ⟩ hr

end

variable (hR) in
theorem Fresh.search {α : Type} {p : CMicroPather} (h : Fresh sizeX sizeY p) (hs : Interior sizeX sizeY s) {fuel : Nat}
    (hfuel : (sizeX + 2) * (sizeY + 2) ≤ fuel) (endNodes : List Nat) {goal : Nat → PathNode → Bool} {G : Nat → Bool}
    (hG : ∀ v n, n.isEndNode = decide (v ∈ endNodes) → goal v n = G v) (onPop : α → PathNode → α) {a : α}
    {J : OpenQueueBH → α → Prop} (hJ : J (startQueue R p s endNodes) a)
    (hkeep : ∀ q a, Searching hR s p.frame endNodes G q → J q a → 0 < q.size →
      J (expand R (sizeX + 2) p.frame q.pop.1 q.pop.2) (onPop a (q.pop.2.nodes q.pop.1))) :
    ∃ r, searchLoop R p.mapSizeX p.frame goal onPop fuel (startQueue R p s endNodes) a = some r ∧
      Stops (fun q a => Searching hR s p.frame endNodes G q ∧ J q a) goal r := by
  obtain ⟨r, hr⟩ := searchLoop_ends (m := fun q => (unclosed hR s p.frame q).card) (h.turn hs hG hkeep)
    (fun q _ hq h0 => by
      have := hq.1.card_unclosed_lt h.frame_lt hs h0
      rw [h.mapSizeX]
      exact ⟨by omega, this⟩) fuel ⟨h.searching hR s endNodes G, hJ⟩ ((card_unclosed_le _).trans hfuel)
  exact ⟨r, hr, h.stops hs hG hkeep hJ hr⟩

end

end Circuit.Impl.MicroPather
