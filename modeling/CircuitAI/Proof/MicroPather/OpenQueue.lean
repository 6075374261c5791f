import CircuitAI.Proof.MicroPather.Grid
import CircuitAI.Proof.MicroPather.Idle
import Mathlib.Order.Interval.Finset.Nat
import Mathlib.Tactic.Positivity

/-!
# Runs of the open queue

`Holds S q`: the queue `q` comes about by pushing, updating and popping, and `S` are the nodes pushed and not yet popped.
It is then a heap of exactly these nodes. In a search on a map with an impassable border only interior cells are ever
queued (`Inside`), and there are fewer of them than places in the array (`size_lt`).
-/

namespace Circuit.Impl.MicroPather

open CMicroPather OpenQueueBH Finset

inductive Holds : Finset Nat → OpenQueueBH → Prop
  | new (nodes : Nat → PathNode) (heapArray : Nat → Nat) : Holds ∅ ⟨nodes, heapArray, 0⟩
  | push {S q} (h : Holds S q) {v : Nat} (hv : v ∉ S) (f : PathNode → PathNode) :
    Holds (insert v S) ((q.modify v f).push v)
  | update {S q} (h : Holds S q) {v : Nat} (hv : v ∈ S) (f : PathNode → PathNode)
    (hindex : (f (q.nodes v)).myIndex = (q.nodes v).myIndex)
    (hcost : (f (q.nodes v)).totalCost ≤ (q.nodes v).totalCost) : Holds S ((q.modify v f).update v)
  | pop {S q} (h : Holds S q) (hsize : 0 < q.size) : Holds (S.erase q.pop.1) q.pop.2

theorem Holds.valid {S : Finset Nat} {q : OpenQueueBH} (h : Holds S q) : q.Valid ∧ ∀ v, q.Queued v ↔ v ∈ S := by
  induction h with
  | new nodes heapArray =>
    refine ⟨⟨fun i h1 hi => ?_, fun i h2 hi => ?_⟩, fun v => ?_⟩
    · have hi : i ≤ 0 := hi
      omega
    · have hi : i ≤ 0 := hi
      omega
    · simp only [notMem_empty, iff_false]
      rintro ⟨i, h1, hi, -⟩
      have hi : i ≤ 0 := hi
      omega
  | @push S q _ v hv f ih =>
    have hq : ¬ q.Queued v := fun hq => hv ((ih.2 v).mp hq)
    obtain ⟨hvalid, hqueued, -, -⟩ := push_ok (v := v) (ih.1.modify hq f) hq
    refine ⟨hvalid, fun w => ?_⟩
    rw [hqueued, mem_insert, ← ih.2 w, or_comm]
    rfl
  | update _ hv f hindex hcost ih =>
    obtain ⟨hvalid, hsame⟩ := decrease_ok ih.1 ((ih.2 _).mpr hv) hindex hcost
    exact ⟨hvalid, fun w => (hsame.queued w).trans (ih.2 w)⟩
  | pop _ hsize ih =>
    obtain ⟨-, -, hvalid, hqueued, -, -⟩ := pop_ok ih.1 hsize
    refine ⟨hvalid, fun w => ?_⟩
    rw [hqueued, ih.2 w, mem_erase, and_comm]

theorem card_queued {q : OpenQueueBH} (h : q.Valid) {S : Finset Nat} (hS : ∀ v, q.Queued v ↔ v ∈ S) :
    q.size = S.card := by
  have himage : (Finset.Icc 1 q.size).image q.heapArray = S := by
    ext v
    simp [← hS v, OpenQueueBH.Queued, and_assoc]
  rw [← himage, card_image_of_injOn, Nat.card_Icc, Nat.add_sub_cancel]
  intro i hi j hj e
  exact h.indexed.inj (mem_Icc.mp hi) (mem_Icc.mp hj) e

/-! ## The queues of a search -/

def queues (R : Rules) (mapSizeX frame : Nat) (goal : Nat → PathNode → Bool) : Nat → OpenQueueBH → List OpenQueueBH
  | 0, q => [q]
  | fuel + 1, q =>
    if q.size = 0 then [q]
    else if goal q.pop.1 (q.pop.2.nodes q.pop.1) then [q, q.pop.2]
    else
      q :: (List.finRange 8).scanl (visit R mapSizeX frame q.pop.1 (q.pop.2.nodes q.pop.1).costFromStart) q.pop.2 ++
        queues R mapSizeX frame goal fuel (expand R mapSizeX frame q.pop.1 q.pop.2)

variable {R : Rules} {sizeX sizeY frame : Nat} {goal : Nat → PathNode → Bool}

theorem mem_queues {α : Type} {onPop : α → PathNode → α} {mapSizeX fuel : Nat} {q q' : OpenQueueBH} {a a' : α}
    {r : Option Nat} (h : searchLoop R mapSizeX frame goal onPop fuel q a = some (r, q', a')) :
    q' ∈ queues R mapSizeX frame goal fuel q := by
  induction fuel generalizing q a with
  | zero =>
    simp only [searchLoop] at h
    split at h <;> cases h
    exact List.mem_singleton_self _
  | succ fuel ih =>
    simp only [searchLoop] at h
    rw [queues]
    split_ifs at h ⊢
    · cases h
      exact List.mem_singleton_self _
    · cases h
      exact List.mem_cons_of_mem _ (List.mem_singleton_self _)
    · exact List.mem_append_right _ (ih h)

structure Inside (R : Rules) (sizeX sizeY frame : Nat) (q : OpenQueueBH) : Prop where
  live : Live R frame q
  interior : ∀ v, q.Queued v → Interior sizeX sizeY v

def Rules.Bordered (R : Rules) (sizeX sizeY : Nat) : Prop :=
  ∀ v, v < (sizeX + 2) * (sizeY + 2) →
    v % (sizeX + 2) = 0 ∨ v % (sizeX + 2) = sizeX + 1 ∨ v / (sizeX + 2) = 0 ∨ v / (sizeX + 2) = sizeY + 1 →
    R.canMoveArray v = false

namespace Inside

variable {q : OpenQueueBH}

theorem size_lt (h : Inside R sizeX sizeY frame q) : q.size < (sizeX + 2) * (sizeY + 2) := by
  have hcard := card_queued h.live.valid (S := (Finset.Icc 1 q.size).image q.heapArray) fun v => by
    simp [OpenQueueBH.Queued, and_assoc]
  have hsub : (Finset.Icc 1 q.size).image q.heapArray ⊆ Finset.Ico 1 ((sizeX + 2) * (sizeY + 2)) := by
    intro v hv
    obtain ⟨i, hi, rfl⟩ := mem_image.mp hv
    have hin := h.interior _ ⟨i, (mem_Icc.mp hi).1, (mem_Icc.mp hi).2, rfl⟩
    refine mem_Ico.mpr ⟨Nat.pos_of_ne_zero fun e => ?_, hin.lt⟩
    have hcol := hin.col_pos
    rw [e, Nat.zero_mod] at hcol
    omega
  have hle := card_le_card hsub
  have hpos : 0 < (sizeX + 2) * (sizeY + 2) := by positivity
  rw [← hcard, Nat.card_Ico] at hle
  omega

theorem visit (h : Inside R sizeX sizeY frame q) (hR : R.Bordered sizeX sizeY) (hf : frame < 2 ^ 16) {node : Nat}
    (hu : Interior sizeX sizeY node) (g : ℚ) (i : Fin 8) :
    Inside R sizeX sizeY frame (visit R (sizeX + 2) frame node g q i) := by
  obtain ⟨hlive, hlabels, -⟩ := visit_ok h.live hf (sizeX + 2) node g i
  refine ⟨hlive, fun v hv => ?_⟩
  rw [← mem_labels_opn frame, hlabels, relaxTo] at hv
  split at hv
  · rename_i he
    rcases hv with rfl | hv
    · exact interior_of_step R hu (kingStep_neighbour R hu i).1 fun hlt => mt (hR _ hlt) (by rw [he.1.1]; decide)
    · exact h.interior v hv
  · exact h.interior v hv

theorem pop (h : Inside R sizeX sizeY frame q) (h0 : 0 < q.size) :
    Inside R sizeX sizeY frame q.pop.2 ∧ Interior sizeX sizeY q.pop.1 := by
  obtain ⟨hlive, hlabels, -, hqueued, -⟩ := pop_labels h.live h0
  refine ⟨⟨hlive, fun v hv => ?_⟩, h.interior _ hqueued⟩
  rw [← mem_labels_opn frame, hlabels] at hv
  exact h.interior v hv.1

theorem expand (h : Inside R sizeX sizeY frame q) (hR : R.Bordered sizeX sizeY) (hf : frame < 2 ^ 16) {node : Nat}
    (hu : Interior sizeX sizeY node) : Inside R sizeX sizeY frame (expand R (sizeX + 2) frame node q) := by
  refine ⟨(expand_ok h.live hf (sizeX + 2) node).1, fun v hv => ?_⟩
  have hfold : Inside R sizeX sizeY frame
      ((List.finRange 8).foldl (MicroPather.visit R (sizeX + 2) frame node (q.nodes node).costFromStart) q) :=
    List.foldlRecOn _ _ h fun _ hq i _ => hq.visit hR hf hu _ i
  exact hfold.interior v hv

theorem queues (hR : R.Bordered sizeX sizeY) (hf : frame < 2 ^ 16) {fuel : Nat} (h : Inside R sizeX sizeY frame q) :
    ∀ r ∈ queues R (sizeX + 2) frame goal fuel q, Inside R sizeX sizeY frame r := by
  have hscan : ∀ (l : List (Fin 8)) {node : Nat} {g : ℚ} {q : OpenQueueBH}, Interior sizeX sizeY node →
      Inside R sizeX sizeY frame q →
      ∀ r ∈ l.scanl (MicroPather.visit R (sizeX + 2) frame node g) q, Inside R sizeX sizeY frame r := by
    intro l
    induction l with
    | nil => simp
    | cons i l ih =>
      intro node g q hu hq
      rw [List.scanl_cons, List.forall_mem_cons]
      exact ⟨hq, ih hu (hq.visit hR hf hu g i)⟩
  induction fuel generalizing q with
  | zero => simpa [MicroPather.queues] using h
  | succ fuel ih =>
    rw [MicroPather.queues]
    split_ifs with h0 hg
    · simpa using h
    · simpa using ⟨h, (h.pop (Nat.pos_of_ne_zero h0)).1⟩
    · obtain ⟨hpop, hu⟩ := h.pop (Nat.pos_of_ne_zero h0)
      simp only [List.cons_append, List.forall_mem_cons, List.forall_mem_append]
      exact ⟨h, hscan _ hu hpop, ih (hpop.expand hR hf hu)⟩

end Inside

/-- After any calls the array is a heap of the nodes pushed and not yet popped, each once and at the place it has noted,
and `Pop` returns a cheapest one. In a search no queue outgrows the array, whose place 0 is not used, up to the queue
that the search leaves. -/
theorem open_queue : (∀ S q, Holds S q → (∀ i, 2 ≤ i → i ≤ q.size → q.key (i / 2) ≤ q.key i) ∧
      (∀ i, 1 ≤ i → i ≤ q.size → (q.nodes (q.heapArray i)).myIndex = i) ∧
      (∀ v, v ∈ S ↔ ∃ i, 1 ≤ i ∧ i ≤ q.size ∧ q.heapArray i = v) ∧ q.size = S.card ∧
      (0 < q.size → q.pop.1 ∈ S ∧ ∀ v ∈ S, (q.nodes q.pop.1).totalCost ≤ (q.nodes v).totalCost)) ∧
    ∀ (R : Rules) (sizeX sizeY : Nat) (p : CMicroPather) (goal : Nat → PathNode → Bool) (fuel s : Nat)
      (endNodes : List Nat), R.Bordered sizeX sizeY → Reachable sizeX sizeY p → 0 < sizeX → 0 < sizeY →
      s < p.mapSizeX * p.mapSizeY → let q₀ := startQueue R p.nextFrame (p.fixNode s) endNodes
      (∀ q ∈ queues R p.mapSizeX p.nextFrame.frame goal fuel q₀, q.size < p.mapSizeX * p.mapSizeY) ∧
      ∀ (α : Type) (onPop : α → PathNode → α) a r q a',
        searchLoop R p.mapSizeX p.nextFrame.frame goal onPop fuel q₀ a = some (r, q, a') →
          q ∈ queues R p.mapSizeX p.nextFrame.frame goal fuel q₀ := by
  refine ⟨fun S q h => ?_, fun R sizeX sizeY p goal fuel s endNodes hR hp hX hY hs =>
    ⟨fun q hq => ?_, fun _ _ _ _ _ _ => mem_queues⟩⟩
  · obtain ⟨hvalid, hS⟩ := h.valid
    refine ⟨hvalid.heap, hvalid.indexed, fun v => (hS v).symm, card_queued hvalid hS, fun h0 => ?_⟩
    obtain ⟨hq, hmin, -⟩ := pop_ok hvalid h0
    exact ⟨(hS _).mp hq, fun v hv => hmin v ((hS v).mpr hv)⟩
  · have hp := hp.idle
    rw [hp.mapSizeX, hp.mapSizeY] at hs ⊢
    rw [hp.mapSizeX] at hq
    have hfresh := hp.nextFrame
    obtain ⟨hlive, hlabels, -⟩ := startQueue_ok hfresh R (p.fixNode s) endNodes
    refine (Inside.queues hR hfresh.frame_lt ⟨hlive, fun v hv => ?_⟩ q hq).size_lt
    rw [← mem_labels_opn p.nextFrame.frame, hlabels] at hv
    cases hv
    exact fixNode_interior hp.mapSizeX hp.mapSizeY hX hY hs

def OpenQueueBH.offer (q : OpenQueueBH) (v : Nat) (totalCost : ℚ) : OpenQueueBH :=
  (q.modify v ({ · with totalCost })).push v

def offered : OpenQueueBH :=
  let q := (((⟨fun _ => .init 0 0 0 0 0 1, id, 0⟩ : OpenQueueBH).offer 4 5).offer 7 3).offer 9 8
  (q.modify 9 ({ · with totalCost := 1 })).update 9

theorem holds_offered : Holds {9, 7, 4} offered :=
  .update (.push (.push (.push (.new _ _) (by decide) _) (by decide) _) (by decide) _) (by decide) _ rfl
    (by decide +kernel)

/-- It is popped first, and the other two are a heap again; on a map of two cells no search needs more than the twelve
places. -/
theorem open_queue_cell : offered.pop.1 = 9 ∧ offered.pop.2.size = 2 ∧ offered.pop.2.pop.1 = 7 ∧
      (∀ i, 2 ≤ i → i ≤ offered.pop.2.size → offered.pop.2.key (i / 2) ≤ offered.pop.2.key i) ∧
      ∀ q ∈ queues (costRules ⟨fun v => v = 5 ∨ v = 6, 0, 0, 0⟩) 4 1 (fun _ _ => false) 3
        (startQueue (costRules ⟨fun v => v = 5 ∨ v = 6, 0, 0, 0⟩) (nextFrame (.new 2 1 id)) (fixNode (.new 2 1 id) 5) []),
        q.size < 12 := by
  have hpop : offered.pop.1 = 9 := by decide +kernel
  have hleft : Holds {7, 4} offered.pop.2 := by
    have h := Holds.pop holds_offered (by decide +kernel)
    rwa [hpop] at h
  obtain ⟨hheap, -, -, hsize, -⟩ := open_queue.1 _ _ hleft
  exact ⟨hpop, hsize, by decide +kernel, hheap,
    (open_queue.2 (costRules ⟨fun v => v = 5 ∨ v = 6, 0, 0, 0⟩) 2 1 (.new 2 1 id) (fun _ _ => false) 3 5 []
      (by unfold Rules.Bordered; decide) (.new _) (by decide) (by decide) (by decide)).1⟩

end Circuit.Impl.MicroPather
