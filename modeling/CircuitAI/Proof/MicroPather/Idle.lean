import CircuitAI.Proof.MicroPather.Search
import CircuitAI.Spec.GridPath

/-!
# Between searches

A pather that runs no search is `Idle`: the nodes know where they are, none is marked as an end,
and none has a frame that is yet to come. `nextFrame` makes every node stale (`Fresh`),
`startQueue_ok` is the state a search starts its loop from, and `Reachable.idle` says that every
search, however it ends, leaves the pather idle.
-/

namespace Circuit.Impl.MicroPather

open Circuit.Spec Function Option
open Circuit.Framework.BestFirst (Labels)
open CMicroPather (markEnds PathResult)

variable {goal : Nat → PathNode → Bool} {fuel : Nat} {p' : CMicroPather}

structure PathNode.Placed (sizeX v : Nat) (n : PathNode) : Prop where
  x2 : n.x2 = (v % (sizeX + 2) : Nat)
  y2 : n.y2 = (v / (sizeX + 2) : Nat)
  index2 : n.index2 = GridPath.index2 sizeX v

structure Idle (sizeX sizeY : Nat) (p : CMicroPather) : Prop where
  mapSizeX : p.mapSizeX = sizeX + 2
  mapSizeY : p.mapSizeY = sizeY + 2
  isRunning : p.isRunning = false
  frame_le : p.frame ≤ 65534
  placed : ∀ v, (p.pathNodeMem v).Placed sizeX v
  isEndNode : ∀ v, (p.pathNodeMem v).isEndNode = false
  node_frame_le : ∀ v, (p.pathNodeMem v).frame ≤ p.frame

structure Fresh (sizeX sizeY : Nat) (p : CMicroPather) : Prop extends Idle sizeX sizeY p where
  stale : ∀ v, (p.pathNodeMem v).frame ≠ p.frame

variable {sizeX sizeY : Nat} {p : CMicroPather}

theorem idle_new (sizeX sizeY : Nat) (junk : Nat → Nat) : Idle sizeX sizeY (.new sizeX sizeY junk) where
  mapSizeX := rfl
  mapSizeY := rfl
  isRunning := rfl
  frame_le := Nat.zero_le _
  placed v := by
    have hx : (v : Int) - (v / (sizeX + 2) : Nat) * (sizeX + 2 : Nat) = (v % (sizeX + 2) : Nat) := by
      have : (v : Int) = (v / (sizeX + 2) : Nat) * (sizeX + 2 : Nat) + (v % (sizeX + 2) : Nat) := by
        exact_mod_cast (Nat.div_add_mod' v (sizeX + 2)).symm
      omega
    refine ⟨hx, rfl, ?_⟩
    show _ * (((sizeX + 2 : Nat) : Int) - 2) + (_ - _) - 1 = _
    rw [hx, GridPath.index2]
    push_cast
    rw [add_sub_cancel_right]
  isEndNode _ := rfl
  node_frame_le _ := Nat.zero_le _

theorem Idle.nextFrame (h : Idle sizeX sizeY p) : Fresh sizeX sizeY p.nextFrame := by
  have hf := h.frame_le
  have hm : (p.frame + 1) % 2 ^ 32 = p.frame + 1 := Nat.mod_eq_of_lt (by omega)
  simp only [CMicroPather.nextFrame, hm]
  split
  · exact ⟨⟨h.mapSizeX, h.mapSizeY, h.isRunning, (by decide : 1 ≤ 65534), fun v => ⟨(h.placed v).x2, (h.placed v).y2, (h.placed v).index2⟩,
      h.isEndNode, fun v => Nat.zero_le _⟩, fun v => by show 0 % 2 ^ 16 ≠ 1; decide⟩
  · refine ⟨⟨h.mapSizeX, h.mapSizeY, h.isRunning, by simp only; omega, h.placed, h.isEndNode, fun v => ?_⟩, fun v => ?_⟩
    · exact (h.node_frame_le v).trans (Nat.le_succ _)
    · have := h.node_frame_le v
      simp only
      omega

theorem Fresh.frame_lt (h : Fresh sizeX sizeY p) : p.frame < 2 ^ 16 := by
  have := h.frame_le
  omega

/-! ## End marks -/

theorem markEnds_eq (m : Nat → PathNode) (b : Bool) : ∀ (l : List Nat) (v : Nat),
    markEnds m l b v = { m v with isEndNode := if v ∈ l then b else (m v).isEndNode } := by
  intro l
  induction l generalizing m with
  | nil => intro v; simp [markEnds]
  | cons u l ih =>
    intro v
    rw [markEnds, List.foldl_cons, ← markEnds, ih]
    by_cases e : v = u
    · subst e; simp
    · simp [e]

theorem sameLabels_markEnds (m : Nat → PathNode) (l : List Nat) (b : Bool) : SameLabels m (markEnds m l b) :=
  fun v => by rw [markEnds_eq]

/-! ## The start of a search -/

def startQueue (R : Rules) (p : CMicroPather) (startNode : Nat) (endNodes : List Nat) : OpenQueueBH :=
  let q := p.openStart startNode (R.estimate (p.xy startNode).1 (p.xy startNode).2)
  { q with nodes := markEnds q.nodes endNodes true }

def startLabels (s : Nat) : Labels Nat ℚ where
  g v := if v = s then 0 else unreached
  parent _ := none
  opn := {s}

structure PathNode.Started (frame : Nat) (endNodes : List Nat) (v : Nat) (n n' : PathNode) : Prop where
  x2 : n'.x2 = n.x2
  y2 : n'.y2 = n.y2
  index2 : n'.index2 = n.index2
  isEndNode : n'.isEndNode = decide (v ∈ endNodes)
  frame : n'.frame = n.frame ∨ n'.frame = frame

theorem startQueue_ok (h : Fresh sizeX sizeY p) (R : Rules) (s : Nat) (endNodes : List Nat) :
    Live R p.frame (startQueue R p s endNodes) ∧ labels p.frame (startQueue R p s endNodes) = startLabels s ∧
      ∀ v, (p.pathNodeMem v).Started p.frame endNodes v ((startQueue R p s endNodes).nodes v) := by
  have hm : p.frame % 2 ^ 16 = p.frame := Nat.mod_eq_of_lt h.frame_lt
  let e : OpenQueueBH := { nodes := p.pathNodeMem, heapArray := p.heapArrayMem, size := 0 }
  let f : PathNode → PathNode := fun n =>
    { n.reuse p.frame with costFromStart := 0, totalCost := R.estimate (p.xy s).1 (p.xy s).2 }
  have hq : ∀ w, ¬ (e.modify s f).Queued w := fun w ⟨i, h₁, hi, _⟩ => by simp [e] at hi; omega
  have he : (e.modify s f).Valid :=
    ⟨fun i h₁ hi => by simp [e] at hi; omega, fun i h₁ hi => by simp [e] at hi; omega⟩
  obtain ⟨hv, hw, -, hs⟩ := OpenQueueBH.push_ok he (hq s)
  -- the start is reused and queued, the other nodes are as they were
  have hb : ((e.modify s f).modify s fun n => { n with inOpen := true }).nodes =
      update p.pathNodeMem s { f (p.pathNodeMem s) with inOpen := true } := by
    simp [OpenQueueBH.modify, e]
  rw [hb] at hs
  have hsl : SameLabels (update p.pathNodeMem s { f (p.pathNodeMem s) with inOpen := true })
      (startQueue R p s endNodes).nodes := (SameLabels.of_same hs).trans (sameLabels_markEnds _ _ _)
  have hqs : ∀ w, (startQueue R p s endNodes).Queued w ↔ w = s := fun w => (hw w).trans (or_iff_right (hq w))
  refine ⟨.of_same (hv.congr fun v => ?_) hsl (fun w => ?_) (fun w hw => ?_),
    labels_of_same _ hsl (fun w => ?_) (fun w => ?_) hqs, fun v => ?_⟩
  · rw [markEnds_eq]; exact ⟨rfl, rfl⟩
  · rw [hqs]
    by_cases hws : w = s
    · rw [hws, update_self]; exact iff_of_true rfl ⟨hm, rfl⟩
    · rw [update_of_ne hws]; exact iff_of_false hws fun hc => h.stale w hc.1
  · obtain rfl := (hqs w).mp hw
    rw [update_self]
    have hp := h.placed w
    simp only [f, PathNode.reuse, hp.x2, hp.y2, CMicroPather.xy, h.mapSizeX, zero_add]
    rw [← Nat.mod_eq_sub_div_mul]
  · by_cases hws : w = s
    · rw [hws, update_self]
      exact (if_pos hm).trans (if_pos rfl).symm
    · rw [update_of_ne hws]
      simp [PathNode.cost, h.stale w, startLabels, hws]
  · by_cases hws : w = s
    · rw [hws, update_self]
      simp [PathNode.origin, f, PathNode.reuse, startLabels]
    · rw [update_of_ne hws]
      simp [PathNode.origin, h.stale w, startLabels]
  · have hn : (startQueue R p s endNodes).nodes v = markEnds ((e.modify s f).push s).nodes endNodes true v := rfl
    rw [hn, markEnds_eq, hs v]
    by_cases hvs : v = s
    · rw [hvs, update_self]
      exact ⟨rfl, rfl, rfl, by simp [f, PathNode.reuse, h.isEndNode s], .inr hm⟩
    · rw [update_of_ne hvs]
      exact ⟨rfl, rfl, rfl, by simp [h.isEndNode v], .inl rfl⟩

/-! ## The end of a search -/

theorem searchLoop_kept {α : Type} {R : Rules} {mapSizeX frame : Nat}
    {onPop : α → PathNode → α} (hf : frame < 2 ^ 16) {q q' : OpenQueueBH} {a a' : α} {res : Option Nat}
    (h : Live R frame q) (e : searchLoop R mapSizeX frame goal onPop fuel q a = some (res, q', a')) :
    Kept frame q.nodes q'.nodes := by
  have hs := searchLoop_ok (I := fun r _ => Live R frame r ∧ Kept frame q.nodes r.nodes)
    (fun r _ ⟨hl, hk⟩ h0 _ => by
      obtain ⟨hl₁, -, hk₁, -⟩ := pop_labels hl h0
      obtain ⟨hl₂, -, hk₂⟩ := expand_ok hl₁ hf mapSizeX r.pop.1
      exact ⟨hl₂, hk.trans (hk₁.trans hk₂)⟩) fuel ⟨h, .refl _ _⟩ e
  match res, hs with
  | none, ⟨⟨_, hk⟩, _⟩ => exact hk
  | some node, ⟨r, ⟨hl, hk⟩, h0, er, _⟩ =>
    have hr := (pop_labels hl h0).2.2.1
    rw [er] at hr
    exact hk.trans hr

theorem Fresh.close (h : Fresh sizeX sizeY p) (R : Rules) (s : Nat) (endNodes : List Nat) {q : OpenQueueBH}
    (hk : Kept p.frame (startQueue R p s endNodes).nodes q.nodes) :
    Idle sizeX sizeY (p.close { q with nodes := markEnds q.nodes endNodes false }) := by
  obtain ⟨-, -, hs⟩ := startQueue_ok h R s endNodes
  refine ⟨h.mapSizeX, h.mapSizeY, rfl, h.frame_le, fun v => ?_, fun v => ?_, fun v => ?_⟩
  · show PathNode.Placed sizeX v (markEnds q.nodes endNodes false v)
    rw [markEnds_eq]
    exact ⟨((hk v).x2.trans (hs v).x2).trans (h.placed v).x2, ((hk v).y2.trans (hs v).y2).trans (h.placed v).y2,
      ((hk v).index2.trans (hs v).index2).trans (h.placed v).index2⟩
  · show (markEnds q.nodes endNodes false v).isEndNode = false
    rw [markEnds_eq, (hk v).isEndNode, (hs v).isEndNode]
    by_cases hv : v ∈ endNodes <;> simp [hv]
  · show (markEnds q.nodes endNodes false v).frame ≤ p.frame
    rw [markEnds_eq]
    rcases (hk v).frame with e | e
    · rcases (hs v).frame with e' | e'
      · rw [e, e']; exact h.node_frame_le v
      · rw [e, e']
    · rw [e]

theorem solve_eq (M : MapData) (maxThreat : ℚ) (fuel startNode endNode : Nat) (endNodes : List Nat)
    (goal : Nat → PathNode → Bool) (path : List Int) (p : CMicroPather) :
    p.solve M maxThreat fuel startNode endNode endNodes goal path =
      let R := CMicroPather.pathRules M maxThreat (p.xy endNode).1 (p.xy endNode).2
      match searchLoop R p.nextFrame.mapSizeX p.nextFrame.frame goal (fun _ _ => ()) fuel
        (startQueue R p.nextFrame startNode endNodes) () with
      | none => none
      | some (none, q, _) =>
        some (⟨.NO_SOLUTION, path, 0⟩, p.nextFrame.close { q with nodes := markEnds q.nodes endNodes false })
      | some (some node, q, _) =>
        (CMicroPather.goalReached q.nodes fuel node startNode node).map fun cells =>
          (⟨.SOLVED, cells, (q.nodes node).costFromStart⟩,
            p.nextFrame.close { q with nodes := markEnds q.nodes endNodes false }) :=
  rfl

theorem makeCostMap_eq (M : MapData) (fuel startNode : Nat) (costMap : Int → ℚ) (p : CMicroPather) :
    p.makeCostMap M fuel startNode costMap =
      if p.isRunning then none
      else
        match searchLoop (CMicroPather.costRules M) p.nextFrame.mapSizeX p.nextFrame.frame (fun _ _ => false)
          (fun m n => update m n.index2 n.costFromStart) fuel
          (startQueue (CMicroPather.costRules M) p.nextFrame (p.fixNode startNode) []) costMap with
        | none => none
        | some (_, q, costMap) => some (costMap, p.nextFrame.close q) :=
  rfl

theorem solve_cases {M : MapData} {maxThreat : ℚ} {startNode endNode : Nat} {endNodes : List Nat}
    {path : List Int} {r : PathResult}
    (h : p.solve M maxThreat fuel startNode endNode endNodes goal path = some (r, p')) :
    ∃ res q, searchLoop (CMicroPather.pathRules M maxThreat (p.xy endNode).1 (p.xy endNode).2) p.nextFrame.mapSizeX
        p.nextFrame.frame goal (fun _ _ => ()) fuel
        (startQueue (CMicroPather.pathRules M maxThreat (p.xy endNode).1 (p.xy endNode).2) p.nextFrame startNode
          endNodes) () = some (res, q, ()) ∧
      p' = p.nextFrame.close { q with nodes := markEnds q.nodes endNodes false } ∧
      (res = none ∧ r = ⟨.NO_SOLUTION, path, 0⟩ ∨ ∃ node cells, res = some node ∧
          CMicroPather.goalReached q.nodes fuel node startNode node = some cells ∧
          r = ⟨.SOLVED, cells, (q.nodes node).costFromStart⟩) := by
  simp only [solve_eq] at h
  split at h
  · cases h
  · rename_i q _ e
    simp only [some.injEq, Prod.mk.injEq] at h
    exact ⟨none, q, e, h.2.symm, .inl ⟨rfl, h.1.symm⟩⟩
  · rename_i node q _ e
    simp only [map_eq_some_iff, Prod.mk.injEq] at h
    obtain ⟨cells, hc, hr, hp⟩ := h
    exact ⟨some node, q, e, hp.symm, .inr ⟨node, cells, rfl, hc, hr.symm⟩⟩

theorem Idle.solve {M : MapData} {maxThreat : ℚ} {startNode endNode : Nat} {endNodes : List Nat}
    {path : List Int} {r : PathResult} (hi : Idle sizeX sizeY p)
    (h : p.solve M maxThreat fuel startNode endNode endNodes goal path = some (r, p')) : Idle sizeX sizeY p' := by
  obtain ⟨res, q, e, rfl, -⟩ := solve_cases h
  have hf := hi.nextFrame
  exact hf.close _ startNode endNodes (searchLoop_kept hf.frame_lt (startQueue_ok hf _ _ _).1 e)

theorem Idle.run {Q : Query} {a : Answer} (hi : Idle sizeX sizeY p)
    (h : Q.run fuel p = some (a, p')) : Idle sizeX sizeY p' := by
  cases Q with
  | pointOnRadius M startNode endNode radius maxThreat hitTest path =>
    simp only [Query.run, CMicroPather.findBestPathToPointOnRadius, hi.isRunning, map_eq_some_iff] at h
    obtain ⟨⟨r, p₁⟩, h, e⟩ := h
    cases e
    split at h
    · cases h
    · split at h
      · cases h; exact hi
      · exact hi.solve h
  | anyGivenPoint M startNode endNodes targets maxThreat path =>
    simp only [Query.run, CMicroPather.findBestPathToAnyGivenPoint, hi.isRunning, map_eq_some_iff] at h
    obtain ⟨⟨r, p₁⟩, h, e⟩ := h
    cases e
    split at h
    · cases h
    · split at h
      · cases h; exact hi
      · exact hi.solve h
  | costMap M startNode costs =>
    simp only [Query.run, makeCostMap_eq, hi.isRunning, map_eq_some_iff] at h
    obtain ⟨⟨r, p₁⟩, h, e⟩ := h
    cases e
    split at h
    · cases h
    · split at h
      · cases h
      · rename_i q _ e
        cases h
        have hf := hi.nextFrame
        exact hf.close (CMicroPather.costRules M) (p.fixNode startNode) []
          (searchLoop_kept hf.frame_lt (startQueue_ok hf _ _ []).1 e)

theorem Reachable.idle (h : Reachable sizeX sizeY p) : Idle sizeX sizeY p := by
  induction h with
  | new junk => exact idle_new sizeX sizeY junk
  | search _ e ih => exact ih.run e

end Circuit.Impl.MicroPather
