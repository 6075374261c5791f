import CircuitAI.Proof.MicroPather.Idle

/-!
# Searches do not depend on earlier ones

Two pathers of one size that are idle may differ in everything a node keeps from earlier searches.
`Sim` relates the states that one search goes through on both: a node is stale on both or on
neither, and what the search reads of it is the same. Each operation of the open queue, a visit, a
turn of the loop and the whole loop (`Sim.searchLoop`) keep it, so that the answers are the same
(`Idle.run_eq`).
-/

namespace Circuit.Impl.MicroPather

open Function Bool Prod Option

open CMicroPather (markEnds PathResult)

structure NodeSim (f f' : Nat) (n n' : PathNode) : Prop where
  x2 : n'.x2 = n.x2
  y2 : n'.y2 = n.y2
  index2 : n'.index2 = n.index2
  isEndNode : n'.isEndNode = n.isEndNode
  current : n'.frame = f' ↔ n.frame = f
  costFromStart : n.frame = f → n'.costFromStart = n.costFromStart
  parent : n.frame = f → n'.parent = n.parent
  inOpen : n.frame = f → n'.inOpen = n.inOpen
  totalCost : n.frame = f → n.inOpen = true → n'.totalCost = n.totalCost
  myIndex : n.frame = f → n.inOpen = true → n'.myIndex = n.myIndex

theorem NodeSim.setIndex {f f' : Nat} {n n' : PathNode} (h : NodeSim f f' n n') (i : Nat) :
    NodeSim f f' { n with myIndex := i } { n' with myIndex := i } :=
  { h with myIndex := fun _ _ => rfl }

structure Sim (f f' : Nat) (q r : OpenQueueBH) : Prop where
  size : r.size = q.size
  heapArray : ∀ i, 1 ≤ i → i ≤ q.size → r.heapArray i = q.heapArray i
  queued : ∀ v, q.Queued v → (q.nodes v).frame = f ∧ (q.nodes v).inOpen = true
  parent : ∀ v u, (q.nodes v).frame = f → (q.nodes v).parent = some u → (q.nodes u).frame = f
  nodes : ∀ v, NodeSim f f' (q.nodes v) (r.nodes v)

namespace Sim

variable {f f' : Nat} {q r : OpenQueueBH} {i v node : Nat} {R : Rules}

theorem key (h : Sim f f' q r) (h1 : 1 ≤ i) (hi : i ≤ q.size) : r.key i = q.key i := by
  obtain ⟨hf, ho⟩ := h.queued _ ⟨i, h1, hi, rfl⟩
  rw [OpenQueueBH.key, OpenQueueBH.key, h.heapArray i h1 hi]
  exact (h.nodes _).totalCost hf ho

theorem modify (h : Sim f f' q r) {g g' : PathNode → PathNode}
    (hn : NodeSim f f' (g (q.nodes v)) (g' (r.nodes v))) (hf : (q.nodes v).frame = f → (g (q.nodes v)).frame = f)
    (ho : q.Queued v → (g (q.nodes v)).inOpen = true)
    (hp : (g (q.nodes v)).frame = f → ∀ u, (g (q.nodes v)).parent = some u → (q.nodes u).frame = f) :
    Sim f f' (q.modify v g) (r.modify v g') := by
  have hfr : ∀ w, (q.nodes w).frame = f → ((q.modify v g).nodes w).frame = f := by
    intro w hw
    by_cases e : w = v
    · rw [e, OpenQueueBH.modify_self]; exact hf (e ▸ hw)
    · rw [OpenQueueBH.modify_of_ne _ _ e]; exact hw
  refine ⟨h.size, h.heapArray, fun w hw => ⟨hfr w (h.queued w hw).1, ?_⟩, fun w u hw hu => hfr u ?_, fun w => ?_⟩
  · by_cases e : w = v
    · rw [e, OpenQueueBH.modify_self]; exact ho (e ▸ hw)
    · rw [OpenQueueBH.modify_of_ne _ _ e]; exact (h.queued w hw).2
  · by_cases e : w = v
    · rw [e, OpenQueueBH.modify_self] at hw hu; exact hp hw u hu
    · rw [OpenQueueBH.modify_of_ne _ _ e] at hw hu; exact h.parent w u hw hu
  · by_cases e : w = v
    · rw [e, OpenQueueBH.modify_self, OpenQueueBH.modify_self]; exact hn
    · rw [OpenQueueBH.modify_of_ne _ _ e, OpenQueueBH.modify_of_ne _ _ e]; exact h.nodes w

theorem setIndex (h : Sim f f' q r) (v i : Nat) :
    Sim f f' (q.modify v fun n => { n with myIndex := i }) (r.modify v fun n => { n with myIndex := i }) :=
  h.modify ((h.nodes v).setIndex i) id (fun hq => (h.queued v hq).2) fun hv u => h.parent v u hv

theorem setHeap (h : Sim f f' q r) {a b : Nat → Nat} {n n' : Nat} (hn : n' = n) (he : ∀ i, 1 ≤ i → i ≤ n → b i = a i)
    (hq : ∀ v, OpenQueueBH.Queued { q with heapArray := a, size := n } v →
      (q.nodes v).frame = f ∧ (q.nodes v).inOpen = true) :
    Sim f f' { q with heapArray := a, size := n } { r with heapArray := b, size := n' } :=
  { h with size := hn, heapArray := he, queued := hq }

theorem swap (h : Sim f f' q r) {p : Nat} (hp : 1 ≤ p ∧ p ≤ q.size) (hi : 1 ≤ i ∧ i ≤ q.size) :
    Sim f f' (q.swap p i) (r.swap p i) := by
  have hw : ∀ j, 1 ≤ j → j ≤ q.size →
      Framework.swapAt r.heapArray p i j = Framework.swapAt q.heapArray p i j := fun j h1 hj => by
    simp only [Framework.swapAt, h.heapArray p hp.1 hp.2, h.heapArray i hi.1 hi.2, h.heapArray j h1 hj]
  have hq := (OpenQueueBH.swap_rearranged q hp hi).queued
  simp only [OpenQueueBH.swap_eq] at hq ⊢
  rw [h.heapArray p hp.1 hp.2, hw p hp.1 hp.2]
  exact ((h.setHeap h.size hw fun v hv => h.queued v ((hq v).mp hv)).setIndex _ _).setIndex _ _

theorem siftUp : ∀ (fuel : Nat) {q r : OpenQueueBH} {i : Nat}, Sim f f' q r → i ≤ q.size →
    Sim f f' (OpenQueueBH.siftUp fuel q i) (OpenQueueBH.siftUp fuel r i)
  | 0, _, _, _, h, _ => h
  | fuel + 1, q, r, i, h, hi => by
    simp only [OpenQueueBH.siftUp]
    by_cases h1 : i > 1
    · rw [h.key (by omega) hi, h.key (i := i / 2) (by omega) (by omega)]
      split
      · exact siftUp fuel (h.swap ⟨by omega, by omega⟩ ⟨by omega, hi⟩) (by rw [OpenQueueBH.swap_size]; omega)
      · exact h
    · rw [if_neg fun hc => h1 hc.1, if_neg fun hc => h1 hc.1]
      exact h

theorem smalest (h : Sim f f' q r) (h1 : 1 ≤ i) (hi : i ≤ q.size) : r.smalest i = q.smalest i := by
  have hc : ∀ j k, 1 ≤ j → 1 ≤ k → k ≤ q.size → ((j ≤ r.size ∧ r.key j < r.key k) ↔ (j ≤ q.size ∧ q.key j < q.key k)) := by
    intro j k hj hk hkn
    rw [h.size]
    exact and_congr_right fun hjn => by rw [h.key hj hjn, h.key hk hkn]
  simp only [OpenQueueBH.smalest, hc (i * 2) i (by omega) h1 hi]
  split
  · rename_i hl
    simp only [hc (i * 2 + 1) (i * 2) (by omega) (by omega) hl.1]
  · simp only [hc (i * 2 + 1) i (by omega) h1 hi]

theorem siftDown : ∀ (fuel : Nat) {q r : OpenQueueBH} {i : Nat}, Sim f f' q r → 1 ≤ i → i ≤ q.size →
    Sim f f' (OpenQueueBH.siftDown fuel q i) (OpenQueueBH.siftDown fuel r i)
  | 0, _, _, _, h, _, _ => h
  | fuel + 1, q, r, i, h, h1, hi => by
    simp only [OpenQueueBH.siftDown, h.smalest h1 hi]
    split
    · have hs : 1 ≤ q.smalest i ∧ q.smalest i ≤ q.size := by
        simp only [OpenQueueBH.smalest]
        split_ifs <;> omega
      exact siftDown fuel (h.swap ⟨h1, hi⟩ hs) hs.1 hs.2
    · exact h

theorem push (h : Sim f f' q r) (hv : (q.nodes v).frame = f)
    (ht : (r.nodes v).totalCost = (q.nodes v).totalCost) : Sim f f' (q.push v) (r.push v) := by
  have hm : Sim f f' (q.modify v fun n => { n with inOpen := true, myIndex := q.size + 1 })
      (r.modify v fun n => { n with inOpen := true, myIndex := q.size + 1 }) :=
    h.modify { h.nodes v with inOpen := fun _ => rfl, totalCost := fun _ _ => ht, myIndex := fun _ _ => rfl } id
      (fun _ => rfl) fun hw u => h.parent v u hw
  have ha : Sim f f' (q.append v) (r.append v) := by
    simp only [OpenQueueBH.append, h.size]
    refine hm.setHeap rfl (fun i h1 hi => ?_) fun w hw => ?_
    · by_cases e : i = q.size + 1
      · rw [e, update_self, update_self]
      · rw [update_of_ne e, update_of_ne e]
        exact h.heapArray i h1 (by omega)
    · rcases (OpenQueueBH.queued_append q v w).mp hw with hw | rfl
      · exact hm.queued w hw
      · rw [OpenQueueBH.modify_self]; exact ⟨hv, rfl⟩
  rw [OpenQueueBH.push_eq, OpenQueueBH.push_eq, h.size]
  exact ha.siftUp _ le_rfl

theorem update (h : Sim f f' q r) (hq : q.Indexed) (hv : q.Queued v) : Sim f f' (q.update v) (r.update v) := by
  obtain ⟨hf, ho⟩ := h.queued v hv
  obtain ⟨i, h1, hi, rfl⟩ := hv
  rw [OpenQueueBH.update, OpenQueueBH.update, (h.nodes _).myIndex hf ho, h.size]
  split
  · exact h.siftUp _ (by rw [hq i h1 hi]; exact hi)
  · exact h

theorem pop (h : Sim f f' q r) (hq : q.Valid) (h0 : 0 < q.size) : r.pop.1 = q.pop.1 ∧ Sim f f' q.pop.2 r.pop.2 := by
  have e₁ := h.heapArray 1 le_rfl h0
  have e₂ := h.heapArray q.size h0 le_rfl
  have hs : Sim f f' q.shrink r.shrink := by
    refine h.setHeap (by rw [h.size]) (fun i h1 hi => ?_) fun v hv => ?_
    · by_cases e : i = 1
      · rw [e, update_self, update_self, h.size, e₂]
      · rw [update_of_ne e, update_of_ne e]
        exact h.heapArray i h1 (by omega)
    · exact h.queued v ((OpenQueueBH.queued_shrink hq.indexed h0 v).mp hv).1
  have hm : Sim f f' (q.shrink.modify (q.heapArray 1) fun n => { n with inOpen := false })
      (r.shrink.modify (q.heapArray 1) fun n => { n with inOpen := false }) :=
    hs.modify { hs.nodes _ with
        inOpen := fun _ => rfl
        totalCost := fun _ ho => absurd ho false_ne_true
        myIndex := fun _ ho => absurd ho false_ne_true } id
      (fun hv => absurd rfl ((OpenQueueBH.queued_shrink hq.indexed h0 _).mp hv).2) fun hw u => hs.parent _ u hw
  rw [OpenQueueBH.pop_fst, OpenQueueBH.pop_fst, OpenQueueBH.pop_snd, OpenQueueBH.pop_snd, h.size, e₁, e₂]
  refine ⟨rfl, ?_⟩
  dsimp only
  split
  · exact hm
  · rename_i h1
    exact (hm.setIndex _ _).siftDown _ le_rfl (by show 1 ≤ q.size - 1; omega)

/-! ## The loop -/

theorem refresh (h : Sim f f' q r) (hf : f < 2 ^ 16) (hf' : f' < 2 ^ 16) (v : Nat) :
    Sim f f' (refresh f q v) (MicroPather.refresh f' r v) := by
  have hc := (h.nodes v).current
  unfold MicroPather.refresh
  by_cases hv : (q.nodes v).frame = f
  · rw [if_neg (not_not.mpr hv), if_neg (not_not.mpr (hc.mpr hv))]
    exact h
  · rw [if_pos hv, if_pos fun e => hv (hc.mp e)]
    have hm : f % 2 ^ 16 = f := Nat.mod_eq_of_lt hf
    have hm' : f' % 2 ^ 16 = f' := Nat.mod_eq_of_lt hf'
    have hn := h.nodes v
    refine h.modify ⟨hn.x2, hn.y2, hn.index2, hn.isEndNode, iff_of_true hm' hm, fun _ => rfl, fun _ => rfl, fun _ => rfl,
      fun _ ho => absurd ho false_ne_true, fun _ ho => absurd ho false_ne_true⟩ (fun e => absurd e hv)
      (fun hq => absurd (h.queued v hq).1 hv) fun _ u hu => by cases hu

theorem reach (h : Sim f f' q r) (hl : Live R f q) (hv : (q.nodes v).frame = f)
    (hn : (q.nodes node).frame = f) (newCost : ℚ) :
    Sim f f' (reach R node newCost q v) (MicroPather.reach R node newCost r v) := by
  have hs := h.nodes v
  have hm : Sim f f' (q.modify v (PathNode.cheaper R node newCost)) (r.modify v (PathNode.cheaper R node newCost)) := by
    refine h.modify { hs with
        costFromStart := fun _ => rfl
        parent := fun _ => rfl
        totalCost := fun _ _ => ?_ } id (fun hq => (h.queued v hq).2) fun _ u hu => ?_
    · show newCost + R.estimate _ _ = newCost + R.estimate _ _
      rw [hs.x2, hs.y2]
    · cases hu; exact hn
  simp only [MicroPather.reach, OpenQueueBH.modify_self, PathNode.cheaper_inOpen, hs.inOpen hv]
  split
  · rename_i ho
    exact hm.update (hl.valid.indexed.modify rfl) ((hl.queued v).mpr ⟨hv, ho⟩)
  · refine (hm.modify { hm.nodes v with } id (fun hq => (hm.queued v hq).2) fun hw u => hm.parent v u hw).push ?_ ?_
    · rw [OpenQueueBH.modify_self, OpenQueueBH.modify_self]; exact hv
    · simp only [OpenQueueBH.modify_self, PathNode.cheaper, hs.x2, hs.y2]

theorem visit (h : Sim f f' q r) (hl : Live R f q) (hf : f < 2 ^ 16) (hf' : f' < 2 ^ 16)
    (hn : (q.nodes node).frame = f) (mapSizeX : Nat) (g : ℚ) (i : Fin 8) :
    Sim f f' (visit R mapSizeX f node g q i) (MicroPather.visit R mapSizeX f' node g r i) := by
  obtain ⟨hl', -, hk, hv⟩ := refresh_ok hl hf (neighbour mapSizeX node i)
  have hr := h.refresh hf hf' (neighbour mapSizeX node i)
  have hn' : ((MicroPather.refresh f q (neighbour mapSizeX node i)).nodes node).frame = f := by
    rcases (hk node).frame with e | e
    · rw [e, hn]
    · exact e
  simp only [visit_eq, (h.nodes _).index2, (hr.nodes _).costFromStart hv]
  split
  · exact h
  split
  · exact h
  split
  · exact hr
  · exact hr.reach hl' hv hn' _

theorem foldl_visit {R : Rules} (hf : f < 2 ^ 16) (hf' : f' < 2 ^ 16) (mapSizeX node : Nat) (g : ℚ) :
    ∀ (l : List (Fin 8)) {q r : OpenQueueBH}, Sim f f' q r → Live R f q → (q.nodes node).frame = f →
      Sim f f' (l.foldl (MicroPather.visit R mapSizeX f node g) q) (l.foldl (MicroPather.visit R mapSizeX f' node g) r)
  | [], _, _, h, _, _ => h
  | i :: l, q, r, h, hl, hn => by
    obtain ⟨hl', -, hk⟩ := visit_ok hl hf mapSizeX node g i
    refine foldl_visit hf hf' mapSizeX node g l (h.visit hl hf hf' hn mapSizeX g i) hl' ?_
    rcases (hk node).frame with e | e
    · rw [e, hn]
    · exact e

theorem expand (h : Sim f f' q r) (hl : Live R f q) (hf : f < 2 ^ 16) (hf' : f' < 2 ^ 16)
    (hn : (q.nodes node).frame = f) (mapSizeX : Nat) :
    Sim f f' (expand R mapSizeX f node q) (MicroPather.expand R mapSizeX f' node r) := by
  simp only [MicroPather.expand, (h.nodes node).costFromStart hn]
  have hs := foldl_visit hf hf' mapSizeX node (q.nodes node).costFromStart (List.finRange 8) h hl hn
  exact hs.modify { hs.nodes node with } id (fun hq => (hs.queued node hq).2) fun hw u => hs.parent node u hw

theorem searchLoop {α : Type} {R : Rules} (goal : Nat → PathNode → Bool) (onPop : α → PathNode → α) (hf : f < 2 ^ 16)
    (hf' : f' < 2 ^ 16) (mapSizeX : Nat) (hg : ∀ v n n', NodeSim f f' n n' → goal v n' = goal v n)
    (ho : ∀ a n n', NodeSim f f' n n' → n.frame = f → onPop a n' = onPop a n) :
    ∀ (fuel : Nat) {q r : OpenQueueBH} {a : α}, Sim f f' q r → Live R f q →
      searchLoop R mapSizeX f goal onPop fuel q a = none ∧ MicroPather.searchLoop R mapSizeX f' goal onPop fuel r a = none ∨
        ∃ res q' r' b, MicroPather.searchLoop R mapSizeX f goal onPop fuel q a = some (res, q', b) ∧
          MicroPather.searchLoop R mapSizeX f' goal onPop fuel r a = some (res, r', b) ∧ Sim f f' q' r' ∧
          ∀ v, res = some v → (q'.nodes v).frame = f
  | 0, q, r, a, h, _ => by
    simp only [MicroPather.searchLoop, h.size]
    split
    · exact .inr ⟨none, q, r, a, rfl, rfl, h, fun v hv => by cases hv⟩
    · exact .inl ⟨rfl, rfl⟩
  | fuel + 1, q, r, a, h, hl => by
    simp only [MicroPather.searchLoop, h.size]
    split
    · exact .inr ⟨none, q, r, a, rfl, rfl, h, fun v hv => by cases hv⟩
    · rename_i h0
      have h0 := Nat.pos_of_ne_zero h0
      obtain ⟨e, hp⟩ := h.pop hl.valid h0
      obtain ⟨hl', -, hk, hq, -⟩ := pop_labels hl h0
      have hn : (q.pop.2.nodes q.pop.1).frame = f := by
        rcases (hk q.pop.1).frame with e | e
        · rw [e]; exact ((hl.queued _).mp hq).1
        · exact e
      rw [e, hg _ _ _ (hp.nodes _), ho _ _ _ (hp.nodes _) hn]
      split
      · exact .inr ⟨_, _, _, a, rfl, rfl, hp, fun v hv => by cases hv; exact hn⟩
      · exact searchLoop goal onPop hf hf' mapSizeX hg ho fuel (hp.expand hl' hf hf' hn mapSizeX) (expand_ok hl' hf mapSizeX _).1

theorem chain (h : Sim f f' q r) : ∀ (fuel : Nat) {v : Nat}, (q.nodes v).frame = f →
    CMicroPather.chain r.nodes fuel v = CMicroPather.chain q.nodes fuel v
  | 0, _, _ => rfl
  | fuel + 1, v, hv => by
    simp only [CMicroPather.chain, (h.nodes v).parent hv]
    split
    · rfl
    · rename_i u hu
      rw [h.chain fuel (h.parent v u hv hu)]

theorem goalReached (h : Sim f f' q r) (fuel : Nat) (hv : (q.nodes v).frame = f) (s g : Nat) :
    CMicroPather.goalReached r.nodes fuel v s g = CMicroPather.goalReached q.nodes fuel v s g := by
  have hi : (fun w => (r.nodes w).index2) = fun w => (q.nodes w).index2 := funext fun w => (h.nodes w).index2
  simp only [CMicroPather.goalReached, h.chain fuel hv, (h.nodes _).index2]

theorem markEnds (h : Sim f f' q r) (l : List Nat) (b : Bool) :
    Sim f f' { q with nodes := markEnds q.nodes l b } { r with nodes := CMicroPather.markEnds r.nodes l b } := by
  refine ⟨h.size, h.heapArray, fun v hv => ?_, fun v u hv hu => ?_, fun v => ?_⟩
  · simp only [markEnds_eq]; exact h.queued v hv
  · simp only [markEnds_eq] at hv hu ⊢; exact h.parent v u hv hu
  · simp only [markEnds_eq]
    exact { h.nodes v with isEndNode := by simp only [(h.nodes v).isEndNode] }

end Sim

/-! ## The searches -/

section

variable {sizeX sizeY : Nat} {p p' : CMicroPather}

theorem Fresh.sim (h : Fresh sizeX sizeY p) (h' : Fresh sizeX sizeY p') (R : Rules) (s : Nat) (endNodes : List Nat) :
    Sim p.frame p'.frame (startQueue R p s endNodes) (startQueue R p' s endNodes) := by
  have hm : p.frame % 2 ^ 16 = p.frame := Nat.mod_eq_of_lt h.frame_lt
  have hm' : p'.frame % 2 ^ 16 = p'.frame := Nat.mod_eq_of_lt h'.frame_lt
  have hst := h.stale
  have hn : ∀ v, NodeSim p.frame p'.frame (p.pathNodeMem v) (p'.pathNodeMem v) := fun v =>
    ⟨(h'.placed v).x2.trans (h.placed v).x2.symm, (h'.placed v).y2.trans (h.placed v).y2.symm,
      (h'.placed v).index2.trans (h.placed v).index2.symm, (h'.isEndNode v).trans (h.isEndNode v).symm,
      iff_of_false (h'.stale v) (hst v), fun e => absurd e (hst v), fun e => absurd e (hst v),
      fun e => absurd e (hst v), fun e => absurd e (hst v), fun e => absurd e (hst v)⟩
  have h0 : Sim p.frame p'.frame { nodes := p.pathNodeMem, heapArray := p.heapArrayMem, size := 0 }
      { nodes := p'.pathNodeMem, heapArray := p'.heapArrayMem, size := 0 } :=
    ⟨rfl, fun i h1 hi => by simp only at hi; omega, fun v ⟨i, h1, hi, _⟩ => by simp only at hi; omega,
      fun v _ e => absurd e (hst v), hn⟩
  have hxy : ∀ v, p'.xy v = p.xy v := fun v => by rw [CMicroPather.xy, CMicroPather.xy, h.mapSizeX, h'.mapSizeX]
  simp only [startQueue, CMicroPather.openStart, hxy]
  refine Sim.markEnds (Sim.push (h0.modify ?_ (fun e => absurd e (hst s)) (fun ⟨i, h1, hi, _⟩ => ?_) ?_) ?_ ?_) _ _
  · exact ⟨(hn s).x2, (hn s).y2, (hn s).index2, (hn s).isEndNode, iff_of_true hm' hm, fun _ => rfl, fun _ => rfl,
      fun _ => rfl, fun _ _ => rfl, fun _ ho => absurd ho false_ne_true⟩
  · simp only at hi; omega
  · intro _ u hu; cases hu
  · rw [OpenQueueBH.modify_self]; exact hm
  · rw [OpenQueueBH.modify_self, OpenQueueBH.modify_self]

theorem Idle.solve_eq (h : Idle sizeX sizeY p) (h' : Idle sizeX sizeY p') (M : MapData) (maxThreat : ℚ)
    (fuel startNode endNode : Nat) (endNodes : List Nat) (goal : Nat → PathNode → Bool)
    (hg : ∀ v (n n' : PathNode), n'.isEndNode = n.isEndNode → goal v n' = goal v n) (path : List Int) :
    (p'.solve M maxThreat fuel startNode endNode endNodes goal path).map fst =
      (p.solve M maxThreat fuel startNode endNode endNodes goal path).map fst := by
  have hf := h.nextFrame
  have hf' := h'.nextFrame
  have hxy : p'.xy endNode = p.xy endNode := by rw [CMicroPather.xy, CMicroPather.xy, h.mapSizeX, h'.mapSizeX]
  simp only [MicroPather.solve_eq, hxy, hf.mapSizeX, hf'.mapSizeX]
  rcases Sim.searchLoop goal (fun _ _ => ()) hf.frame_lt hf'.frame_lt (sizeX + 2)
    (fun v n n' hn => hg v n n' hn.isEndNode) (fun _ _ _ _ _ => rfl) fuel
    (hf.sim hf' (CMicroPather.pathRules M maxThreat (p.xy endNode).1 (p.xy endNode).2) startNode endNodes)
    (startQueue_ok hf _ _ _).1 with ⟨e, e'⟩ | ⟨res, q, r, b, e, e', hs, hc⟩
  · rw [e, e']
  · rw [e, e']
    cases res with
    | none => rfl
    | some v =>
      have hv := hc v rfl
      simp only [hs.goalReached fuel hv, (hs.nodes v).costFromStart hv, Option.map_map]
      rfl

theorem Idle.run_eq (h : Idle sizeX sizeY p) (h' : Idle sizeX sizeY p') (fuel : Nat) (Q : Query) :
    (Q.run fuel p').map fst = (Q.run fuel p).map fst := by
  have hX := h'.mapSizeX.trans h.mapSizeX.symm
  have hY := h'.mapSizeY.trans h.mapSizeY.symm
  have hxy : p'.xy = p.xy := funext fun v => by rw [CMicroPather.xy, CMicroPather.xy, hX]
  have hfix : p'.fixNode = p.fixNode := funext fun v => by
    rw [CMicroPather.fixNode, CMicroPather.fixNode, hX, hY, hxy]
  cases Q with
  | pointOnRadius M startNode endNode radius maxThreat hitTest path =>
    have hr : p'.inRadius = p.inRadius := by unfold CMicroPather.inRadius; rw [hxy]
    simp only [Query.run, CMicroPather.findBestPathToPointOnRadius, h.isRunning, h'.isRunning, hfix, hr,
      false_eq_true, if_false]
    split
    · rfl
    · have e := h.solve_eq h' M maxThreat fuel (p.fixNode startNode) (p.fixNode endNode) []
        (fun v _ => p.inRadius (p.fixNode endNode) radius hitTest v) (fun _ _ _ _ => rfl) path
      simpa only [Option.map_map, comp_def] using congrArg (Option.map Answer.path) e
  | anyGivenPoint M startNode endNodes targets maxThreat path =>
    have hb : p'.bestGoal = p.bestGoal := by unfold CMicroPather.bestGoal; rw [hxy, hfix]
    simp only [Query.run, CMicroPather.findBestPathToAnyGivenPoint, h.isRunning, h'.isRunning, hfix, hb,
      false_eq_true, if_false]
    split
    · rfl
    · rename_i endNode endNodes
      have e := h.solve_eq h' M maxThreat fuel (p.fixNode startNode) (p.fixNode (p.bestGoal startNode endNode targets))
        ((endNode :: endNodes).map p.fixNode) (fun _ n => n.isEndNode) (fun _ _ _ e => e) path
      simpa only [Option.map_map, comp_def] using congrArg (Option.map Answer.path) e
  | costMap M startNode costs =>
    have hf := h.nextFrame
    have hf' := h'.nextFrame
    simp only [Query.run, makeCostMap_eq, h.isRunning, h'.isRunning, hfix, hf.mapSizeX, hf'.mapSizeX,
      false_eq_true, if_false]
    rcases Sim.searchLoop (fun _ _ => false) (fun (m : Int → ℚ) n => update m n.index2 n.costFromStart)
      hf.frame_lt hf'.frame_lt (sizeX + 2) (fun _ _ _ _ => rfl)
      (fun m n n' hn e => by rw [hn.index2, hn.costFromStart e]) fuel
      (hf.sim hf' (CMicroPather.costRules M) (p.fixNode startNode) []) (startQueue_ok hf _ _ _).1
      with ⟨e, e'⟩ | ⟨res, q, r, b, e, e', -⟩
    · rw [e, e']
    · rw [e, e']; rfl

/-- What a pather answers does not depend on the searches it has run: it is what a new pather of its
size would answer. -/
theorem run_eq_new (h : Reachable sizeX sizeY p) (junk : Nat → Nat) (fuel : Nat) (Q : Query) :
    (Q.run fuel p).map fst = (Q.run fuel (.new sizeX sizeY junk)).map fst :=
  (idle_new sizeX sizeY junk).run_eq h.idle fuel Q

theorem run_eq_new_meadow : ∃ (T : Spec.GridPath.Terrain 2 1) (a : Answer) (p : CMicroPather),
      (Query.anyGivenPoint T.data 5 [6] [6] 0 []).run 12 (.new 2 1 id) = some (a, p) ∧
      ((Query.anyGivenPoint T.data 5 [6] [6] 0 []).run 12 p).map fst =
        ((Query.anyGivenPoint T.data 5 [6] [6] 0 []).run 12 (.new 2 1 fun _ => 0)).map fst := by
  let T : Spec.GridPath.Terrain 2 1 := .meadow (by decide) (by decide) (fun _ => 0) fun _ => le_rfl
  have hs : ((Query.anyGivenPoint T.data 5 [6] [6] 0 []).run 12 (.new 2 1 id)).isSome = true := by decide +kernel
  obtain ⟨⟨a, p⟩, h⟩ := isSome_iff_exists.mp hs
  exact ⟨T, a, p, h, run_eq_new (.search (.new id) h) (fun _ => 0) 12 _⟩

end

end Circuit.Impl.MicroPather
