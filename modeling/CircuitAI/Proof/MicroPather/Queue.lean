import CircuitAI.Framework.Heap
import CircuitAI.Impl.MicroPather

/-!
# The open queue

A queue is `Valid` when its positions hold a heap of total costs and each queued node's `myIndex`
is its position. `push_ok`, `update_ok` and `pop_ok` say what each operation does to the set of
queued nodes (`Queued`) and to the node memory, from a valid queue to a valid one. The swaps of
the two loops change nothing but positions (`Rearranged`).
-/

namespace Circuit.Impl.MicroPather.OpenQueueBH

open Circuit.Framework Function

def Queued (q : OpenQueueBH) (v : Nat) : Prop := ∃ i, 1 ≤ i ∧ i ≤ q.size ∧ q.heapArray i = v

def Indexed (q : OpenQueueBH) : Prop := ∀ i, 1 ≤ i → i ≤ q.size → (q.nodes (q.heapArray i)).myIndex = i

structure Valid (q : OpenQueueBH) : Prop where
  indexed : q.Indexed
  heap : IsHeap q.key q.size

theorem Indexed.inj {q : OpenQueueBH} (h : q.Indexed) {i j : Nat} (hi : 1 ≤ i ∧ i ≤ q.size)
    (hj : 1 ≤ j ∧ j ≤ q.size) (e : q.heapArray i = q.heapArray j) : i = j := by
  rw [← h i hi.1 hi.2, e, h j hj.1 hj.2]

def SameNodes (m m' : Nat → PathNode) : Prop := ∀ v, m' v = { m v with myIndex := (m' v).myIndex }

theorem SameNodes.refl (m : Nat → PathNode) : SameNodes m m := fun _ => rfl

theorem SameNodes.trans {a b c : Nat → PathNode} (h : SameNodes a b) (h' : SameNodes b c) : SameNodes a c :=
  fun v => by rw [h' v, h v]

theorem SameNodes.totalCost {m m' : Nat → PathNode} (h : SameNodes m m') (v : Nat) :
    (m' v).totalCost = (m v).totalCost := by
  rw [h v]

structure Rearranged (q r : OpenQueueBH) : Prop where
  same : SameNodes q.nodes r.nodes
  size : r.size = q.size
  queued : ∀ v, r.Queued v ↔ q.Queued v

theorem Rearranged.refl (q : OpenQueueBH) : Rearranged q q := ⟨.refl _, rfl, fun _ => .rfl⟩

theorem Rearranged.trans {a b c : OpenQueueBH} (h : Rearranged a b) (h' : Rearranged b c) : Rearranged a c :=
  ⟨h.same.trans h'.same, h'.size.trans h.size, fun v => (h'.queued v).trans (h.queued v)⟩

section

variable (q : OpenQueueBH)
include q

@[simp] theorem modify_size (v : Nat) (f) : (q.modify v f).size = q.size := rfl
@[simp] theorem modify_heapArray (v : Nat) (f) : (q.modify v f).heapArray = q.heapArray := rfl

theorem modify_self (v : Nat) (f) : (q.modify v f).nodes v = f (q.nodes v) := by
  simp [modify]

theorem modify_of_ne {v w : Nat} (f) (h : w ≠ v) : (q.modify v f).nodes w = q.nodes w := by
  simp [modify, h]

/-! ## Swaps -/

@[simp] theorem swap_size (p i : Nat) : (q.swap p i).size = q.size := rfl

theorem swap_heapArray (p i : Nat) : (q.swap p i).heapArray = swapAt q.heapArray p i := by
  funext j
  simp only [swap, modify_heapArray, swapAt, update_apply]

theorem swap_eq (p i : Nat) : q.swap p i = (modify { q with heapArray := swapAt q.heapArray p i } (q.heapArray p)
      fun n => { n with myIndex := i }).modify (swapAt q.heapArray p i p) fun n => { n with myIndex := p } := by
  rw [← swap_heapArray]
  rfl

theorem swap_same (p i : Nat) : SameNodes q.nodes (q.swap p i).nodes := by
  intro v
  simp only [swap, modify, update_apply]
  split_ifs <;> simp_all

theorem swap_key (p i : Nat) : (q.swap p i).key = swapAt q.key p i := by
  funext j
  simp only [key, (swap_same q p i).totalCost, swap_heapArray, swapAt]
  split_ifs <;> rfl

end

theorem swap_indexed {q : OpenQueueBH} (h : q.Indexed) {p i : Nat} (hp : 1 ≤ p ∧ p ≤ q.size)
    (hi : 1 ≤ i ∧ i ≤ q.size) (hne : p ≠ i) : (q.swap p i).Indexed := by
  have hd : q.heapArray i ≠ q.heapArray p := fun e => hne (h.inj hp hi e.symm)
  intro j h1 hn
  rw [swap_heapArray]
  have e0 : Function.update (Function.update q.heapArray p (q.heapArray i)) i (q.heapArray p) p =
      q.heapArray i := by simp [hne]
  simp only [swap, modify, e0, Function.update_apply]
  by_cases ei : j = i
  · subst ei; simp [swapAt_right, hd.symm]
  by_cases ep : j = p
  · subst ep; simp [swapAt_left _ hne]
  have hj := h j h1 hn
  have n1 : q.heapArray j ≠ q.heapArray i := fun e => ei (h.inj ⟨h1, hn⟩ hi e)
  have n2 : q.heapArray j ≠ q.heapArray p := fun e => ep (h.inj ⟨h1, hn⟩ hp e)
  simpa [swapAt_of_ne _ ei ep, n1, n2] using hj

theorem swap_rearranged (q : OpenQueueBH) {p i : Nat} (hp : 1 ≤ p ∧ p ≤ q.size) (hi : 1 ≤ i ∧ i ≤ q.size) :
    Rearranged q (q.swap p i) := by
  refine ⟨swap_same q p i, rfl, fun v => ?_⟩
  simp only [Queued, swap_size, swap_heapArray]
  -- each position's node is found where the exchange put it
  constructor
  · rintro ⟨j, h1, hn, rfl⟩
    by_cases ei : j = i
    · exact ⟨p, hp.1, hp.2, by rw [ei, swapAt_right]⟩
    by_cases ep : j = p
    · exact ⟨i, hi.1, hi.2, by subst ep; rw [swapAt_left _ ei]⟩
    · exact ⟨j, h1, hn, by rw [swapAt_of_ne _ ei ep]⟩
  · rintro ⟨j, h1, hn, rfl⟩
    by_cases ep : j = p
    · exact ⟨i, hi.1, hi.2, by rw [ep, swapAt_right]⟩
    by_cases ei : j = i
    · exact ⟨p, hp.1, hp.2, by subst ei; rw [swapAt_left _ (Ne.symm ep)]⟩
    · exact ⟨j, h1, hn, by rw [swapAt_of_ne _ ei ep]⟩

/-! ## The two loops -/

theorem siftUp_ok : ∀ (fuel : Nat) {q : OpenQueueBH} {i : Nat}, i ≤ fuel → 1 ≤ i → i ≤ q.size →
    q.Indexed → UpHeap q.key q.size i → (siftUp fuel q i).Valid ∧ Rearranged q (siftUp fuel q i)
  | 0, _, _, hf, h1, _, _, _ => by omega
  | fuel + 1, q, i, hf, h1, hn, hx, hu => by
    rw [siftUp]
    split
    · rename_i hc
      have hp : 1 ≤ i / 2 ∧ i / 2 ≤ q.size := by omega
      have := siftUp_ok fuel (q := q.swap (i / 2) i) (i := i / 2) (by omega) hp.1 hp.2
        (swap_indexed hx hp ⟨h1, hn⟩ (by omega)) (by rw [swap_key]; exact hu.swap (by omega) hn hc.2)
      exact ⟨this.1, (swap_rearranged q hp ⟨h1, hn⟩).trans this.2⟩
    · rename_i hc
      refine ⟨⟨hx, hu.done fun h2 => ?_⟩, .refl _⟩
      exact not_lt.mp fun hlt => hc ⟨by omega, hlt⟩

theorem smalest_cases (q : OpenQueueBH) {i : Nat} (h1 : 1 ≤ i) :
    (q.smalest i = i ∧ ∀ j, 2 ≤ j → j ≤ q.size → j / 2 = i → q.key i ≤ q.key j) ∨
      (2 ≤ q.smalest i ∧ q.smalest i ≤ q.size ∧ q.smalest i / 2 = i ∧ q.key (q.smalest i) < q.key i ∧
        ∀ j, 2 ≤ j → j ≤ q.size → j / 2 = i → q.key (q.smalest i) ≤ q.key j) := by
  have hj : ∀ j, j / 2 = i → j = i * 2 ∨ j = i * 2 + 1 := fun j e => by omega
  simp only [smalest]
  by_cases hl : i * 2 ≤ q.size ∧ q.key (i * 2) < q.key i
  · rw [if_pos hl]
    by_cases hr : i * 2 + 1 ≤ q.size ∧ q.key (i * 2 + 1) < q.key (i * 2)
    · rw [if_pos hr]
      refine .inr ⟨by omega, hr.1, by omega, hr.2.trans hl.2, fun j _ _ e => ?_⟩
      rcases hj j e with rfl | rfl
      exacts [hr.2.le, le_rfl]
    · rw [if_neg hr]
      refine .inr ⟨by omega, hl.1, by omega, hl.2, fun j _ hn e => ?_⟩
      rcases hj j e with rfl | rfl
      exacts [le_rfl, not_lt.mp fun h => hr ⟨hn, h⟩]
  · rw [if_neg hl]
    by_cases hr : i * 2 + 1 ≤ q.size ∧ q.key (i * 2 + 1) < q.key i
    · rw [if_pos hr]
      refine .inr ⟨by omega, hr.1, by omega, hr.2, fun j _ hn e => ?_⟩
      rcases hj j e with rfl | rfl
      exacts [hr.2.le.trans (not_lt.mp fun h => hl ⟨hn, h⟩), le_rfl]
    · rw [if_neg hr]
      refine .inl ⟨rfl, fun j _ hn e => ?_⟩
      rcases hj j e with rfl | rfl
      exacts [not_lt.mp fun h => hl ⟨hn, h⟩, not_lt.mp fun h => hr ⟨hn, h⟩]

theorem siftDown_ok : ∀ (fuel : Nat) {q : OpenQueueBH} {i : Nat}, q.size < fuel + i → 1 ≤ i → i ≤ q.size →
    q.Indexed → DownHeap q.key q.size i → (siftDown fuel q i).Valid ∧ Rearranged q (siftDown fuel q i)
  | 0, _, _, hf, _, hn, _, _ => by omega
  | fuel + 1, q, i, hf, h1, hn, hx, hd => by
    rw [siftDown]
    rcases q.smalest_cases h1 with ⟨e, hc⟩ | ⟨h2, hs, hp, hlt, hmin⟩
    · simp only [e, ne_eq, not_true_eq_false, if_false]
      exact ⟨⟨hx, hd.done hc⟩, .refl _⟩
    · simp only [show q.smalest i ≠ i by omega, ne_eq, not_false_eq_true, if_true]
      have hi : 1 ≤ i ∧ i ≤ q.size := ⟨h1, hn⟩
      have hc : 1 ≤ q.smalest i ∧ q.smalest i ≤ q.size := ⟨by omega, hs⟩
      have := siftDown_ok fuel (q := q.swap i (q.smalest i)) (i := q.smalest i) (by simp only [swap_size]; omega)
        hc.1 hs (swap_indexed hx hi hc (by omega)) (by rw [swap_key]; exact hd.swap h2 hs hp hmin hlt)
      exact ⟨this.1, (swap_rearranged q hi hc).trans this.2⟩

/-! ## The operations -/

def append (q : OpenQueueBH) (v : Nat) : OpenQueueBH :=
  { q.modify v fun n => { n with inOpen := true, myIndex := q.size + 1 } with
    heapArray := Function.update q.heapArray (q.size + 1) v
    size := q.size + 1 }

theorem push_eq (q : OpenQueueBH) (v : Nat) : q.push v = siftUp (q.size + 1) (q.append v) (q.size + 1) := by
  by_cases h0 : q.size > 0
  · simp [push, append, modify, h0]
  · have h0 : q.size = 0 := by omega
    simp [push, append, modify, h0, siftUp]

theorem queued_append (q : OpenQueueBH) (v w : Nat) : (q.append v).Queued w ↔ q.Queued w ∨ w = v := by
  have hrest : ∀ i, i ≤ q.size → (q.append v).heapArray i = q.heapArray i := fun i hi => by
    simp [append, show i ≠ q.size + 1 by omega]
  have hlast : (q.append v).heapArray (q.size + 1) = v := by simp [append]
  constructor
  · rintro ⟨i, h1, hn, rfl⟩
    have hn : i ≤ q.size + 1 := hn
    rcases (by omega : i = q.size + 1 ∨ i ≤ q.size) with rfl | hi
    · exact .inr hlast
    · exact .inl ⟨i, h1, hi, (hrest i hi).symm⟩
  · rintro (⟨i, h1, hn, rfl⟩ | rfl)
    · exact ⟨i, h1, Nat.le_succ_of_le hn, hrest i hn⟩
    · exact ⟨q.size + 1, by omega, le_rfl, hlast⟩

theorem push_ok {q : OpenQueueBH} (h : q.Valid) {v : Nat} (hv : ¬ q.Queued v) :
    (q.push v).Valid ∧ (∀ w, (q.push v).Queued w ↔ q.Queued w ∨ w = v) ∧ (q.push v).size = q.size + 1 ∧
      SameNodes (q.modify v fun n => { n with inOpen := true }).nodes (q.push v).nodes := by
  have hn : ∀ i, 1 ≤ i → i ≤ q.size →
      (q.append v).nodes ((q.append v).heapArray i) = q.nodes (q.heapArray i) := fun i h1 hi => by
    simp [append, modify, show i ≠ q.size + 1 by omega, show q.heapArray i ≠ v from fun e => hv ⟨i, h1, hi, e⟩]
  have hx : (q.append v).Indexed := by
    intro i h1 hi
    have hi : i ≤ q.size + 1 := hi
    rcases (by omega : i = q.size + 1 ∨ i ≤ q.size) with rfl | hi
    · simp [append, modify]
    · rw [hn i h1 hi]; exact h.indexed i h1 hi
  have hu : UpHeap (q.append v).key (q.append v).size (q.size + 1) :=
    h.heap.append fun i h1 hi => by simp only [key, hn i h1 hi]
  have hs : SameNodes (q.modify v fun n => { n with inOpen := true }).nodes (q.append v).nodes := by
    intro w
    by_cases e : w = v
    · simp [e, append, modify]
    · simp [append, modify, e]
  obtain ⟨hvd, hr⟩ := siftUp_ok (q.size + 1) le_rfl (by omega) le_rfl hx hu
  rw [push_eq]
  exact ⟨hvd, fun w => (hr.queued w).trans (queued_append q v w), hr.size, hs.trans hr.same⟩

theorem update_ok {q : OpenQueueBH} (hx : q.Indexed) {v i : Nat} (hi : 1 ≤ i) (hn : i ≤ q.size)
    (e : q.heapArray i = v) (hu : UpHeap q.key q.size i) : (q.update v).Valid ∧ Rearranged q (q.update v) := by
  have hm : (q.nodes v).myIndex = i := e ▸ hx i hi hn
  by_cases h1 : q.size > 1
  · rw [update, if_pos h1, hm]
    exact siftUp_ok i le_rfl hi hn hx hu
  · rw [update, if_neg h1]
    exact ⟨⟨hx, hu.done fun h2 => by omega⟩, .refl _⟩

theorem Valid.modify {q : OpenQueueBH} (h : q.Valid) {v : Nat} (hv : ¬ q.Queued v) (f) : (q.modify v f).Valid := by
  have hn : ∀ i, 1 ≤ i → i ≤ q.size → (q.modify v f).nodes (q.heapArray i) = q.nodes (q.heapArray i) :=
    fun i h1 hi => modify_of_ne _ _ fun e => hv ⟨i, h1, hi, e⟩
  refine ⟨fun i h1 hi => ?_, fun i h2 hi => ?_⟩
  · rw [modify_heapArray, hn i h1 hi]; exact h.indexed i h1 hi
  · simp only [key, modify_heapArray, hn i (by omega) hi, hn (i / 2) (by omega) (by rw [modify_size] at hi; omega)]
    exact h.heap i h2 hi

theorem Valid.congr {q : OpenQueueBH} (h : q.Valid) {m : Nat → PathNode}
    (hm : ∀ v, (m v).myIndex = (q.nodes v).myIndex ∧ (m v).totalCost = (q.nodes v).totalCost) :
    Valid { q with nodes := m } := by
  have hk : key { q with nodes := m } = q.key := funext fun i => (hm _).2
  exact ⟨fun i h1 hn => (hm _).1.trans (h.indexed i h1 hn), by rw [hk]; exact h.heap⟩

theorem Indexed.modify {q : OpenQueueBH} (h : q.Indexed) {v : Nat} {f : PathNode → PathNode}
    (hf : (f (q.nodes v)).myIndex = (q.nodes v).myIndex) : (q.modify v f).Indexed := by
  intro i h1 hi
  by_cases e : q.heapArray i = v
  · rw [modify_heapArray, e, modify_self, hf, ← e]; exact h i h1 hi
  · rw [modify_heapArray, modify_of_ne _ _ e]; exact h i h1 hi

theorem decrease_ok {q : OpenQueueBH} (h : q.Valid) {v : Nat} (hv : q.Queued v) {f : PathNode → PathNode}
    (hf : (f (q.nodes v)).myIndex = (q.nodes v).myIndex) (hle : (f (q.nodes v)).totalCost ≤ (q.nodes v).totalCost) :
    ((q.modify v f).update v).Valid ∧ Rearranged (q.modify v f) ((q.modify v f).update v) := by
  obtain ⟨i, h1, hi, rfl⟩ := hv
  refine update_ok (h.indexed.modify hf) h1 hi rfl (h.heap.lower hi (fun j hj1 hj hne => ?_) ?_)
  · rw [key, modify_heapArray, modify_of_ne _ _ fun e => hne (h.indexed.inj ⟨hj1, hj⟩ ⟨h1, hi⟩ e), key]
  · rw [key, modify_heapArray, modify_self]; exact hle

def shrink (q : OpenQueueBH) : OpenQueueBH :=
  { q with heapArray := Function.update q.heapArray 1 (q.heapArray q.size), size := q.size - 1 }

theorem queued_shrink {q : OpenQueueBH} (h : q.Indexed) (h0 : 0 < q.size) (w : Nat) :
    q.shrink.Queued w ↔ q.Queued w ∧ w ≠ q.heapArray 1 := by
  have hr1 : q.shrink.heapArray 1 = q.heapArray q.size := by simp [shrink]
  have hrr : ∀ i, i ≠ 1 → q.shrink.heapArray i = q.heapArray i := fun i hi => by simp [shrink, hi]
  constructor
  · rintro ⟨i, h1, hn, rfl⟩
    have hn : i ≤ q.size - 1 := hn
    by_cases e : i = 1
    · subst e
      rw [hr1]
      refine ⟨⟨q.size, by omega, le_rfl, rfl⟩, fun e => ?_⟩
      have := h.inj ⟨h0, le_rfl⟩ ⟨le_rfl, h0⟩ e
      omega
    · rw [hrr i e]
      exact ⟨⟨i, h1, by omega, rfl⟩, fun e' => e (h.inj ⟨h1, by omega⟩ ⟨le_rfl, h0⟩ e')⟩
  · rintro ⟨⟨i, h1, hn, rfl⟩, hne⟩
    have hi1 : i ≠ 1 := fun e => hne (by rw [e])
    by_cases e : i = q.size
    · exact ⟨1, le_rfl, by show 1 ≤ q.size - 1; omega, by rw [hr1, e]⟩
    · exact ⟨i, h1, by show i ≤ q.size - 1; omega, hrr i hi1⟩

theorem pop_fst (q : OpenQueueBH) : q.pop.1 = q.heapArray 1 := by
  simp only [pop]
  split <;> rfl

theorem pop_snd (q : OpenQueueBH) : q.pop.2 =
    let r := q.shrink.modify (q.heapArray 1) fun n => { n with inOpen := false }
    if q.size - 1 = 0 then r
    else siftDown (q.size - 1) (r.modify (q.heapArray q.size) fun n => { n with myIndex := 1 }) 1 := by
  by_cases h : q.size - 1 = 0
  · simp [pop, shrink, modify, h]
  · simp only [pop, modify_heapArray, modify_size, h, if_false, Function.update_self]
    rfl

theorem pop_ok {q : OpenQueueBH} (h : q.Valid) (h0 : 0 < q.size) :
    q.Queued q.pop.1 ∧ (∀ w, q.Queued w → (q.nodes q.pop.1).totalCost ≤ (q.nodes w).totalCost) ∧
      q.pop.2.Valid ∧ (∀ w, q.pop.2.Queued w ↔ q.Queued w ∧ w ≠ q.pop.1) ∧ q.pop.2.size = q.size - 1 ∧
      SameNodes (q.modify q.pop.1 fun n => { n with inOpen := false }).nodes q.pop.2.nodes := by
  rw [pop_fst, pop_snd]
  refine ⟨⟨1, le_rfl, h0, rfl⟩, ?_, ?_⟩
  · rintro w ⟨i, h1, hn, rfl⟩
    exact h.heap.root_le i h1 hn
  have hq := queued_shrink h.indexed h0
  by_cases h1 : q.size - 1 = 0
  · simp only [h1, if_true]
    refine ⟨⟨fun i hi hn => ?_, fun i hi hn => ?_⟩, hq, h1, .refl _⟩
    · have hn : i ≤ q.size - 1 := hn; omega
    · have hn : i ≤ q.size - 1 := hn; omega
  · simp only [h1, if_false]
    let s : OpenQueueBH := (q.shrink.modify (q.heapArray 1) fun n => { n with inOpen := false }).modify
      (q.heapArray q.size) fun n => { n with myIndex := 1 }
    have hsz : s.size = q.size - 1 := rfl
    have hinj : ∀ i j, 1 ≤ i → i ≤ q.size → 1 ≤ j → j ≤ q.size → i ≠ j → q.heapArray i ≠ q.heapArray j :=
      fun i j hi hi' hj hj' hne e => hne (h.indexed.inj ⟨hi, hi'⟩ ⟨hj, hj'⟩ e)
    have hsn : ∀ i, 2 ≤ i → i ≤ q.size - 1 → s.nodes (s.heapArray i) = q.nodes (q.heapArray i) := by
      intro i h2 hn
      have h₁ := hinj i 1 (by omega) (by omega) le_rfl h0 (by omega)
      have h₂ := hinj i q.size (by omega) (by omega) h0 le_rfl (by omega)
      simp [s, shrink, modify, show i ≠ 1 by omega, h₁, h₂]
    have hx : s.Indexed := by
      intro i hi hn
      rcases (by omega : i = 1 ∨ 2 ≤ i) with rfl | h2
      · simp [s, shrink, modify]
      · rw [hsn i h2 hn]; exact h.indexed i hi (by rw [hsz] at hn; omega)
    have hd : DownHeap s.key s.size 1 :=
      h.heap.replace (by omega) fun i h2 hn => by simp only [key, hsn i h2 hn]
    obtain ⟨hv, hr⟩ := siftDown_ok (q.size - 1) (q := s) (i := 1) (by omega) le_rfl (by omega) hx hd
    refine ⟨hv, fun w => (hr.queued w).trans (hq w), hr.size, SameNodes.trans (fun w => ?_) hr.same⟩
    by_cases hw : w = q.heapArray q.size
    · subst hw; simp [s, shrink, modify]
    · simp [s, shrink, modify, hw]

end Circuit.Impl.MicroPather.OpenQueueBH
