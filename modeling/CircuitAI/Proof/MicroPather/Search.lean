import CircuitAI.Framework.BestFirst
import CircuitAI.Proof.MicroPather.Queue

/-!
# The search loop

What the loop of the three searches does, for any rules: `labels` reads the state of a best-first
search off the node memory and the open queue, where a stale node has no label. `visit_ok` and
`pop_labels` say what looking at a neighbour and popping a node do to the labels; `Kept` what a
search never changes. `searchLoop_ok` is the induction over the turns of the loop.
-/

namespace Circuit.Impl.MicroPather

open Function PathNode

open Circuit.Framework.BestFirst (Labels)

variable {frame v : Nat} {m : Nat → PathNode} {q r : OpenQueueBH} {R : Rules}

def unreached : ℚ := FLT_BIG / 2

theorem unreached_pos : 0 < unreached := by norm_num [unreached, FLT_BIG, FLT_MAX]

structure Live (R : Rules) (frame : Nat) (q : OpenQueueBH) : Prop where
  valid : q.Valid
  queued : ∀ v, q.Queued v ↔ (q.nodes v).frame = frame ∧ (q.nodes v).inOpen = true
  total : ∀ v, q.Queued v →
    (q.nodes v).totalCost = (q.nodes v).costFromStart + R.estimate (q.nodes v).x2 (q.nodes v).y2

def PathNode.cost (frame : Nat) (n : PathNode) : ℚ := if n.frame = frame then n.costFromStart else unreached

def PathNode.origin (frame : Nat) (n : PathNode) : Option Nat := if n.frame = frame then n.parent else none

def labels (frame : Nat) (q : OpenQueueBH) : Labels Nat ℚ where
  g v := (q.nodes v).cost frame
  parent v := (q.nodes v).origin frame
  opn := {v | q.Queued v}

@[simp]
theorem labels_g (frame : Nat) (q : OpenQueueBH) (v : Nat) : (labels frame q).g v = (q.nodes v).cost frame := rfl

@[simp]
theorem labels_parent (frame : Nat) (q : OpenQueueBH) (v : Nat) :
    (labels frame q).parent v = (q.nodes v).origin frame := rfl

@[simp]
theorem mem_labels_opn (frame : Nat) (q : OpenQueueBH) (v : Nat) : v ∈ (labels frame q).opn ↔ q.Queued v := .rfl

structure NodeKept (frame : Nat) (n n' : PathNode) : Prop where
  x2 : n'.x2 = n.x2
  y2 : n'.y2 = n.y2
  index2 : n'.index2 = n.index2
  isEndNode : n'.isEndNode = n.isEndNode
  frame : n'.frame = n.frame ∨ n'.frame = frame

def Kept (frame : Nat) (m m' : Nat → PathNode) : Prop := ∀ v, NodeKept frame (m v) (m' v)

theorem NodeKept.refl (frame : Nat) (n : PathNode) : NodeKept frame n n := ⟨rfl, rfl, rfl, rfl, .inl rfl⟩

theorem NodeKept.trans {a b c : PathNode} (h : NodeKept frame a b) (h' : NodeKept frame b c) : NodeKept frame a c where
  x2 := h'.x2.trans h.x2
  y2 := h'.y2.trans h.y2
  index2 := h'.index2.trans h.index2
  isEndNode := h'.isEndNode.trans h.isEndNode
  frame := by
    rcases h'.frame with e | e
    · rw [e]; exact h.frame
    · exact .inr e

theorem Kept.refl (frame : Nat) (m : Nat → PathNode) : Kept frame m m := fun v => .refl frame (m v)

theorem Kept.trans {a b c : Nat → PathNode} (h : Kept frame a b) (h' : Kept frame b c) : Kept frame a c :=
  fun v => (h v).trans (h' v)

theorem Kept.of_same (frame : Nat) {m' : Nat → PathNode} (h : OpenQueueBH.SameNodes m m') : Kept frame m m' :=
  fun v => by rw [h v]; exact ⟨rfl, rfl, rfl, rfl, .inl rfl⟩

theorem Kept.modify {f : PathNode → PathNode}
    (h : NodeKept frame (q.nodes v) (f (q.nodes v))) : Kept frame q.nodes (q.modify v f).nodes := by
  intro w
  by_cases e : w = v
  · rw [e, OpenQueueBH.modify_self]; exact h
  · rw [OpenQueueBH.modify_of_ne _ _ e]; exact .refl _ _

def SameLabels (m m' : Nat → PathNode) : Prop := ∀ v, m' v =
  { m v with myIndex := (m' v).myIndex, inClosed := (m' v).inClosed, isEndNode := (m' v).isEndNode }

theorem SameLabels.of_same {m' : Nat → PathNode} (h : OpenQueueBH.SameNodes m m') : SameLabels m m' :=
  fun v => by rw [h v]

theorem SameLabels.trans {a b c : Nat → PathNode} (h : SameLabels a b) (h' : SameLabels b c) : SameLabels a c :=
  fun v => by rw [h' v, h v]

theorem SameLabels.modify {q : OpenQueueBH} {v : Nat} {f : PathNode → PathNode} (h : f (q.nodes v) = { q.nodes v with
      myIndex := (f (q.nodes v)).myIndex
      inClosed := (f (q.nodes v)).inClosed
      isEndNode := (f (q.nodes v)).isEndNode }) : SameLabels q.nodes (q.modify v f).nodes := by
  intro w
  by_cases e : w = v
  · rw [e, OpenQueueBH.modify_self]; exact h
  · rw [OpenQueueBH.modify_of_ne _ _ e]

theorem Live.of_same (hv : r.Valid)
    (hs : SameLabels m r.nodes) (hq : ∀ w, r.Queued w ↔ (m w).frame = frame ∧ (m w).inOpen = true)
    (ht : ∀ w, r.Queued w → (m w).totalCost = (m w).costFromStart + R.estimate (m w).x2 (m w).y2) : Live R frame r :=
  ⟨hv, fun w => by rw [hs w]; exact hq w, fun w hw => by rw [hs w]; exact ht w hw⟩

theorem labels_of_same (frame : Nat) {L : Labels Nat ℚ} (hs : SameLabels m r.nodes) (hg : ∀ w, (m w).cost frame = L.g w)
    (hp : ∀ w, (m w).origin frame = L.parent w) (ho : ∀ w, r.Queued w ↔ w ∈ L.opn) : labels frame r = L := by
  refine Labels.ext (funext fun w => ?_) (funext fun w => ?_) (Set.ext ho)
  · rw [← hg w, labels_g, hs w]; rfl
  · rw [← hp w, labels_parent, hs w]; rfl

/-! ## The parts of a visit -/

def refresh (frame : Nat) (q : OpenQueueBH) (v : Nat) : OpenQueueBH :=
  if (q.nodes v).frame ≠ frame then q.modify v fun n => n.reuse frame else q

def PathNode.cheaper (R : Rules) (node : Nat) (newCost : ℚ) (n : PathNode) : PathNode :=
  { n with
    parent := some node
    costFromStart := newCost
    totalCost := newCost + R.estimate n.x2 n.y2 }

@[simp]
theorem PathNode.cheaper_inOpen (R : Rules) (node : Nat) (newCost : ℚ) (n : PathNode) :
    (n.cheaper R node newCost).inOpen = n.inOpen := rfl

def reach (R : Rules) (node : Nat) (newCost : ℚ) (q : OpenQueueBH) (v : Nat) : OpenQueueBH :=
  let q := q.modify v (PathNode.cheaper R node newCost)
  if (q.nodes v).inOpen then q.update v
  else (q.modify v fun n => { n with inClosed := false }).push v

def neighbour (mapSizeX node : Nat) (i : Fin 8) : Nat := (offsets mapSizeX i + node).toNat

def stepCost (R : Rules) (index2 : Int) (i : Fin 8) : ℚ :=
  if 3 < i.val then R.nodeCost index2 * SQRT_2 else R.nodeCost index2

def Rules.Enters (R : Rules) (v : Nat) (index2 : Int) : Prop :=
  R.canMoveArray v = true ∧ R.skip index2 = false

instance (R : Rules) (v : Nat) (index2 : Int) : Decidable (R.Enters v index2) :=
  inferInstanceAs (Decidable (_ ∧ _))

def relaxTo (R : Rules) (index2 : Nat → Int) (mapSizeX node : Nat) (g : ℚ) (L : Labels Nat ℚ) (i : Fin 8) :
    Labels Nat ℚ :=
  let v := neighbour mapSizeX node i
  let newCost := g + stepCost R (index2 v) i
  if R.Enters v (index2 v) ∧ newCost < L.g v then L.relabel v node newCost else L

theorem refresh_ok (h : Live R frame q) (hf : frame < 2 ^ 16) (v : Nat) :
    Live R frame (refresh frame q v) ∧ labels frame (refresh frame q v) = labels frame q ∧
      Kept frame q.nodes (refresh frame q v).nodes ∧ ((refresh frame q v).nodes v).frame = frame := by
  unfold refresh
  split
  · rename_i hs
    have hq : ¬ q.Queued v := fun hq => hs ((h.queued v).mp hq).1
    have hn : ∀ w, w ≠ v → (q.modify v fun n => n.reuse frame).nodes w = q.nodes w := fun w hw =>
      OpenQueueBH.modify_of_ne _ _ hw
    have hm : frame % 2 ^ 16 = frame := Nat.mod_eq_of_lt hf
    refine ⟨.of_same (h.valid.modify hq _) (.of_same (.refl _)) (fun w => ?_) (fun w hw => ?_),
      labels_of_same _ (.of_same (.refl _)) (fun w => ?_) (fun w => ?_) (fun w => .rfl), .modify ?_, ?_⟩
    · by_cases e : w = v
      · subst e
        rw [OpenQueueBH.modify_self]
        exact iff_of_false hq (by simp [reuse])
      · rw [hn w e]; exact h.queued w
    · have e : w ≠ v := fun e => hq (e ▸ hw)
      rw [hn w e]; exact h.total w hw
    · by_cases e : w = v
      · subst e
        rw [OpenQueueBH.modify_self]
        simp [cost, reuse, hs, unreached]
      · rw [hn w e]; rfl
    · by_cases e : w = v
      · subst e
        rw [OpenQueueBH.modify_self]
        simp [origin, reuse, hs]
      · rw [hn w e]; rfl
    · exact ⟨rfl, rfl, rfl, rfl, .inr hm⟩
    · rw [OpenQueueBH.modify_self]; exact hm
  · rename_i hs
    exact ⟨h, rfl, .refl _ _, not_not.mp hs⟩

structure PathNode.Reached (R : Rules) (frame node : Nat) (newCost : ℚ) (n n' : PathNode) : Prop where
  kept : NodeKept frame n n'
  frame : n'.frame = frame
  inOpen : n'.inOpen = true
  parent : n'.parent = some node
  costFromStart : n'.costFromStart = newCost
  totalCost : n'.totalCost = newCost + R.estimate n'.x2 n'.y2

theorem PathNode.Reached.ok {node : Nat} {newCost : ℚ} {m : PathNode}
    (hn : (q.nodes v).Reached R frame node newCost m) (h : Live R frame q) (hr : r.Valid)
    (hs : OpenQueueBH.SameNodes (update q.nodes v m) r.nodes) (hq : ∀ w, r.Queued w ↔ q.Queued w ∨ w = v) :
    Live R frame r ∧ labels frame r = (labels frame q).relabel v node newCost ∧ Kept frame q.nodes r.nodes := by
  refine ⟨.of_same hr (.of_same hs) (fun w => ?_) (fun w hw => ?_),
    labels_of_same _ (.of_same hs) (fun w => ?_) (fun w => ?_) (fun w => ?_),
    Kept.trans (.modify (f := fun _ => m) hn.kept) (.of_same _ hs)⟩
  · rw [hq]
    by_cases e : w = v
    · rw [e, update_self]
      exact iff_of_true (.inr rfl) ⟨hn.frame, hn.inOpen⟩
    · rw [update_of_ne e, or_iff_left e]; exact h.queued w
  · by_cases e : w = v
    · rw [e, update_self, hn.costFromStart]; exact hn.totalCost
    · rw [update_of_ne e]
      exact h.total w (((hq w).mp hw).resolve_right e)
  · by_cases e : w = v
    · rw [e, update_self, Labels.relabel_g_self, cost, if_pos hn.frame, hn.costFromStart]
    · rw [update_of_ne e, Labels.relabel_g_of_ne e, labels_g]
  · by_cases e : w = v
    · rw [e, update_self, Labels.relabel_parent_self, origin, if_pos hn.frame, hn.parent]
    · rw [update_of_ne e, Labels.relabel_parent_of_ne e, labels_parent]
  · rw [hq, Labels.relabel, Set.mem_insert_iff, mem_labels_opn, or_comm]

theorem reach_ok (h : Live R frame q)
    (hv : (q.nodes v).frame = frame) (node : Nat) {newCost : ℚ} (hlt : newCost < (q.nodes v).costFromStart) :
    Live R frame (reach R node newCost q v) ∧
      labels frame (reach R node newCost q v) = (labels frame q).relabel v node newCost ∧
      Kept frame q.nodes (reach R node newCost q v).nodes := by
  have hq := h.queued v
  simp only [reach, OpenQueueBH.modify_self, cheaper_inOpen]
  cases ho : (q.nodes v).inOpen with
  | true =>
    have hqv : q.Queued v := hq.mpr ⟨hv, ho⟩
    have hle : ((q.nodes v).cheaper R node newCost).totalCost ≤ (q.nodes v).totalCost := by
      rw [h.total v hqv]
      exact add_le_add_left hlt.le _
    obtain ⟨hr, hs⟩ := OpenQueueBH.decrease_ok (f := cheaper R node newCost) h.valid hqv rfl hle
    rw [if_pos rfl]
    refine PathNode.Reached.ok (m := (q.nodes v).cheaper R node newCost)
      ⟨⟨rfl, rfl, rfl, rfl, .inl rfl⟩, hv, ho, rfl, rfl, rfl⟩ h hr hs.same fun w => (hs.queued w).trans ?_
    exact ⟨.inl, fun hw => hw.elim id fun e => e ▸ hqv⟩
  | false =>
    have hqv : ¬ q.Queued v := fun hqv => Bool.false_ne_true (ho.symm.trans (hq.mp hqv).2)
    rw [if_neg Bool.false_ne_true]
    have hvd := (h.valid.modify hqv (cheaper R node newCost)).modify (v := v) hqv
      fun n => { n with inClosed := false }
    obtain ⟨hr, hw, -, hs⟩ := OpenQueueBH.push_ok (v := v) hvd hqv
    refine PathNode.Reached.ok (m := { (q.nodes v).cheaper R node newCost with inOpen := true, inClosed := false })
      ⟨⟨rfl, rfl, rfl, rfl, .inl rfl⟩, hv, rfl, rfl, rfl, rfl⟩ h hr ?_ hw
    simpa only [OpenQueueBH.modify, update_self, update_idem] using hs

theorem visit_eq (R : Rules) (mapSizeX frame node : Nat) (g : ℚ) (q : OpenQueueBH) (i : Fin 8) :
    visit R mapSizeX frame node g q i = let v := neighbour mapSizeX node i
      let newCost := g + stepCost R (q.nodes v).index2 i
      if !R.canMoveArray v then q
      else if R.skip (q.nodes v).index2 then q
      else if ((refresh frame q v).nodes v).costFromStart ≤ newCost then refresh frame q v
      else reach R node newCost (refresh frame q v) v :=
  rfl

theorem visit_of_not_enters {mapSizeX node : Nat} {i : Fin 8}
    (h : ¬ R.Enters (neighbour mapSizeX node i) (q.nodes (neighbour mapSizeX node i)).index2) (frame : Nat) (g : ℚ) :
    visit R mapSizeX frame node g q i = q := by
  simp only [visit_eq]
  cases h₁ : R.canMoveArray (neighbour mapSizeX node i) with
  | false => rfl
  | true =>
    cases h₂ : R.skip (q.nodes (neighbour mapSizeX node i)).index2 with
    | true => rfl
    | false => exact absurd ⟨h₁, h₂⟩ h

theorem visit_ok (h : Live R frame q) (hf : frame < 2 ^ 16) (mapSizeX node : Nat) (g : ℚ) (i : Fin 8) :
    Live R frame (visit R mapSizeX frame node g q i) ∧ labels frame (visit R mapSizeX frame node g q i) =
        relaxTo R (fun v => (q.nodes v).index2) mapSizeX node g (labels frame q) i ∧
      Kept frame q.nodes (visit R mapSizeX frame node g q i).nodes := by
  by_cases he : R.Enters (neighbour mapSizeX node i) (q.nodes (neighbour mapSizeX node i)).index2
  · obtain ⟨hl, hL, hk, hv⟩ := refresh_ok h hf (neighbour mapSizeX node i)
    have hg : ((refresh frame q (neighbour mapSizeX node i)).nodes (neighbour mapSizeX node i)).costFromStart =
        (labels frame q).g (neighbour mapSizeX node i) := by
      rw [← hL, labels_g, cost, if_pos hv]
    simp only [visit_eq, he.1, he.2, Bool.not_true, Bool.false_eq_true, if_false, relaxTo, he, true_and]
    split
    · rename_i hle
      rw [if_neg (by rw [← hg]; exact not_lt.mpr hle)]
      exact ⟨hl, hL, hk⟩
    · rename_i hlt
      have hlt := not_le.mp hlt
      obtain ⟨hl', hL', hk'⟩ := reach_ok hl hv node hlt
      rw [if_pos (by rw [← hg]; exact hlt)]
      exact ⟨hl', by rw [hL', hL], hk.trans hk'⟩
  · rw [visit_of_not_enters he, relaxTo, if_neg fun hc => he hc.1]
    exact ⟨h, rfl, .refl _ _⟩

theorem foldl_visit_ok {R : Rules} {frame : Nat} (hf : frame < 2 ^ 16) (mapSizeX node : Nat) (g : ℚ) :
    ∀ (l : List (Fin 8)) {q : OpenQueueBH}, Live R frame q → Live R frame (l.foldl (visit R mapSizeX frame node g) q) ∧
        labels frame (l.foldl (visit R mapSizeX frame node g) q) =
          l.foldl (relaxTo R (fun v => (q.nodes v).index2) mapSizeX node g) (labels frame q) ∧
        Kept frame q.nodes (l.foldl (visit R mapSizeX frame node g) q).nodes
  | [], _, h => ⟨h, rfl, .refl _ _⟩
  | i :: l, q, h => by
    obtain ⟨h₁, hL₁, hk₁⟩ := visit_ok h hf mapSizeX node g i
    obtain ⟨h₂, hL₂, hk₂⟩ := foldl_visit_ok hf mapSizeX node g l h₁
    refine ⟨h₂, hL₂.trans ?_, hk₁.trans hk₂⟩
    have hi : (fun v => ((visit R mapSizeX frame node g q i).nodes v).index2) = fun v => (q.nodes v).index2 :=
      funext fun v => (hk₁ v).index2
    rw [hL₁, hi]
    rfl

theorem expand_ok (h : Live R frame q) (hf : frame < 2 ^ 16) (mapSizeX node : Nat) :
    Live R frame (expand R mapSizeX frame node q) ∧ labels frame (expand R mapSizeX frame node q) =
        (List.finRange 8).foldl (relaxTo R (fun v => (q.nodes v).index2) mapSizeX node (q.nodes node).costFromStart)
          (labels frame q) ∧ Kept frame q.nodes (expand R mapSizeX frame node q).nodes := by
  obtain ⟨hl, hL, hk⟩ := foldl_visit_ok hf mapSizeX node (q.nodes node).costFromStart (List.finRange 8) h
  simp only [expand]
  generalize (List.finRange 8).foldl (visit R mapSizeX frame node (q.nodes node).costFromStart) q = r at hl hL hk ⊢
  have hs : SameLabels r.nodes (r.modify node fun n => { n with inClosed := true }).nodes := .modify rfl
  have hv : (r.modify node fun n => { n with inClosed := true }).Valid := hl.valid.congr fun v => by
    by_cases e : v = node
    · rw [e, update_self]; exact ⟨rfl, rfl⟩
    · rw [update_of_ne e]; exact ⟨rfl, rfl⟩
  exact ⟨.of_same hv hs hl.queued hl.total,
    labels_of_same _ hs (fun w => by rw [← hL]; rfl) (fun w => by rw [← hL]; rfl) (fun w => by rw [← hL]; rfl),
    hk.trans (.modify ⟨rfl, rfl, rfl, rfl, .inl rfl⟩)⟩

theorem pop_labels (h : Live R frame q) (h0 : 0 < q.size) :
    Live R frame q.pop.2 ∧ labels frame q.pop.2 = (labels frame q).remove q.pop.1 ∧ Kept frame q.nodes q.pop.2.nodes ∧
      q.Queued q.pop.1 ∧ ∀ v, q.Queued v → (q.nodes q.pop.1).totalCost ≤ (q.nodes v).totalCost := by
  obtain ⟨hq, hmin, hr, hw, -, hs⟩ := OpenQueueBH.pop_ok h.valid h0
  have hn : ∀ {β : Type} (p : PathNode → β), (∀ n : PathNode, p { n with inOpen := false } = p n) → ∀ w,
      p ((q.modify q.pop.1 fun n => { n with inOpen := false }).nodes w) = p (q.nodes w) := by
    intro β p hp w
    by_cases e : w = q.pop.1
    · rw [e, OpenQueueBH.modify_self, hp]
    · rw [OpenQueueBH.modify_of_ne _ _ e]
  refine ⟨.of_same hr (.of_same hs) (fun w => ?_) (fun w hw' => ?_),
    labels_of_same _ (.of_same hs) (fun w => ?_) (fun w => ?_) (fun w => ?_), Kept.trans (.modify ⟨rfl, rfl, rfl, rfl, .inl rfl⟩) (.of_same _ hs), hq, hmin⟩
  · rw [hw, h.queued]
    by_cases e : w = q.pop.1
    · rw [e, OpenQueueBH.modify_self]
      exact iff_of_false (fun hc => hc.2 rfl) fun hc => Bool.false_ne_true hc.2
    · rw [OpenQueueBH.modify_of_ne _ _ e, and_iff_left e]
  · rw [hn (·.totalCost) fun _ => rfl, hn (·.costFromStart) fun _ => rfl, hn (·.x2) fun _ => rfl,
      hn (·.y2) fun _ => rfl]
    exact h.total w ((hw w).mp hw').1
  · exact hn (·.cost frame) (fun _ => rfl) w
  · exact hn (·.origin frame) (fun _ => rfl) w
  · exact hw w

/-! ## The loop -/

section Loop

variable {α : Type} {R : Rules} {mapSizeX frame : Nat} {goal : Nat → PathNode → Bool} {onPop : α → PathNode → α}

def Stops (I : OpenQueueBH → α → Prop) (goal : Nat → PathNode → Bool) : Option Nat × OpenQueueBH × α → Prop
  | (none, q, a) => I q a ∧ q.size = 0
  | (some node, q, a) => ∃ q₀, I q₀ a ∧ 0 < q₀.size ∧ q₀.pop = (node, q) ∧ goal node (q.nodes node) = true

theorem searchLoop_ok {I : OpenQueueBH → α → Prop}
    (step : ∀ q a, I q a → 0 < q.size → goal q.pop.1 (q.pop.2.nodes q.pop.1) = false →
      I (expand R mapSizeX frame q.pop.1 q.pop.2) (onPop a (q.pop.2.nodes q.pop.1))) :
    ∀ (fuel : Nat) {q : OpenQueueBH} {a : α} {r}, I q a →
      searchLoop R mapSizeX frame goal onPop fuel q a = some r → Stops I goal r
  | 0, q, a, r, h, e => by
    simp only [searchLoop] at e
    split at e
    · rename_i h0
      cases e
      exact ⟨h, h0⟩
    · cases e
  | fuel + 1, q, a, r, h, e => by
    simp only [searchLoop] at e
    split at e
    · rename_i h0
      cases e
      exact ⟨h, h0⟩
    · rename_i h0
      have h0 := Nat.pos_of_ne_zero h0
      split at e
      · rename_i hg
        cases e
        exact ⟨q, h, h0, rfl, hg⟩
      · rename_i hg
        exact searchLoop_ok step fuel (step q a h h0 (by simpa using hg)) e

theorem searchLoop_ends {I : OpenQueueBH → α → Prop} {m : OpenQueueBH → Nat}
    (step : ∀ q a, I q a → 0 < q.size → goal q.pop.1 (q.pop.2.nodes q.pop.1) = false →
      I (expand R mapSizeX frame q.pop.1 q.pop.2) (onPop a (q.pop.2.nodes q.pop.1)))
    (lower : ∀ q a, I q a → 0 < q.size → 0 < m q ∧ m (expand R mapSizeX frame q.pop.1 q.pop.2) < m q) :
    ∀ (fuel : Nat) {q : OpenQueueBH} {a : α}, I q a → m q ≤ fuel →
      ∃ r, searchLoop R mapSizeX frame goal onPop fuel q a = some r
  | 0, q, a, h, hm => by
    have h0 : q.size = 0 := by
      by_contra h0
      have := lower q a h (Nat.pos_of_ne_zero h0)
      omega
    exact ⟨_, by rw [searchLoop, if_pos h0]⟩
  | fuel + 1, q, a, h, hm => by
    simp only [searchLoop]
    split
    · exact ⟨_, rfl⟩
    · rename_i h0
      have h0 := Nat.pos_of_ne_zero h0
      split
      · exact ⟨_, rfl⟩
      · rename_i hg
        have := lower q a h h0
        exact searchLoop_ends step lower fuel (step q a h h0 (by simpa using hg)) (by omega)

end Loop

end Circuit.Impl.MicroPather
