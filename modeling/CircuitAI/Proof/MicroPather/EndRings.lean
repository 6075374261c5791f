import CircuitAI.Proof.MicroPather.Idle
import CircuitAI.Spec.EndRings

/-!
# Rings of end cells

* `put_filled`, `putRow_filled`, `putCopies_filled`: the loops append to what is filled, as long as there is room;
* `mem_quarter`: the first loops make the upper right quarter of the ring, `length_quarter` counts it;
* `make_eq`, `mem_offsets`: the four quarters are the ring;
* `addTargets_guards`: the end nodes of a target.
-/

namespace Circuit.Spec.EndRings

open Circuit.Framework Function List
open Impl.EndNodes
open Impl.RetreatTask (PathFinder Pos)
open Impl.MicroPather (PathNode CMicroPather Reachable)
open Offsets (xend)

/-! ## Filling the vector -/

variable {r a m : ℕ} {c : ℤ × ℤ}

def filled (n : ℕ) (l : List (ℤ × ℤ)) : Offsets := ⟨l ++ List.replicate (n - l.length) (0, 0), l.length⟩

variable {n : ℕ} {l : List (ℤ × ℤ)}

theorem put_filled (h : l.length < n) (o : ℤ × ℤ) : (filled n l).put o = some (filled n (l ++ [o])) := by
  obtain ⟨k, hk⟩ : ∃ k, n - l.length = k + 1 := ⟨n - l.length - 1, by omega⟩
  have hk' : n - (l.length + 1) = k := by omega
  simp [Offsets.put, filled, hk, hk', replicate_succ]

theorem foldlM_put {α : Type*} (g : α → ℤ × ℤ) {xs : List α} (h : l.length + xs.length ≤ n) :
    xs.foldlM (fun s x => s.put (g x)) (filled n l) = some (filled n (l ++ xs.map g)) := by
  induction xs generalizing l with
  | nil => simp
  | cons x xs ih =>
    rw [length_cons] at h
    rw [foldlM_cons, put_filled (by omega)]
    have hrest := ih (l := l ++ [g x]) (by simp; omega)
    simpa using hrest

def row (r a : ℕ) : List (ℤ × ℤ) :=
  (List.range' (xend r (a - 1)) (xend r a + 1 - xend r (a - 1))).map fun x : ℕ => ((x : ℤ), (a : ℤ))

theorem putRow_filled (r a : ℕ) (h : l.length + (row r a).length ≤ n) :
    Offsets.putRow r (filled n l) a = some (filled n (l ++ row r a)) := by
  rw [row, length_map] at h
  exact foldlM_put (fun x : ℕ => ((x : ℤ), (a : ℤ))) h

theorem putCopies_filled (image : ℤ × ℤ → ℤ × ℤ) {k : ℕ} (hk : k ≤ l.length) (h : l.length + k ≤ n) :
    (filled n l).putCopies image k = some (filled n (l ++ (l.take k).map image)) := by
  induction k with
  | zero => simp [Offsets.putCopies]
  | succ k ih =>
    have hread : (filled n (l ++ (l.take k).map image)).offsets[k]? = some l[k] := by
      simp only [filled]
      rw [getElem?_append_left (by simp; omega), getElem?_append_left (by omega),
        getElem?_eq_getElem (by omega)]
    have hlen : (l ++ (l.take k).map image).length < n := by
      rw [length_append, length_map, length_take]
      omega
    have htake : l.take (k + 1) = l.take k ++ [l[k]] := by rw [take_append_getElem]
    rw [Offsets.putCopies, range_succ, foldlM_append, ← Offsets.putCopies, ih (by omega) (by omega)]
    change (((filled n (l ++ (l.take k).map image)).offsets[k]?.bind fun o => (filled n _).put (image o)).bind some) = _
    rw [hread, Option.bind_some, put_filled hlen, htake, map_append, ← append_assoc]
    rfl

/-! ## The first quarter -/

theorem xend_eq (h : a ≤ r) : xend r a = width r (r - a) := by
  have hz : ((r : ℤ) * r - ((a : ℤ) - r) * (a - r)).toNat = r * r - (r - a) * (r - a) := by
    obtain ⟨k, rfl⟩ := Nat.exists_eq_add_of_le h
    rw [Nat.add_sub_cancel_left]
    have heq : ((a + k : ℕ) : ℤ) * (a + k : ℕ) - ((a : ℤ) - (a + k : ℕ)) * (a - (a + k : ℕ)) =
        (((a + k) * (a + k) : ℕ) : ℤ) - ((k * k : ℕ) : ℤ) := by
      push_cast
      ring
    rw [heq]
    omega
  simp only [xend, hz, width]

def rows (r m : ℕ) : List (ℤ × ℤ) := (List.range' 1 m).flatMap (row r)

theorem rows_succ (r m : ℕ) : rows r (m + 1) = rows r m ++ row r (m + 1) := by
  rw [rows, range'_1_concat, flatMap_append, flatMap_singleton, Nat.add_comm 1 m, rows]

theorem xend_mono (h : a + 1 ≤ r) : xend r a ≤ xend r (a + 1) := by
  rw [xend_eq (by omega), xend_eq h]
  exact width_anti r (by omega)

theorem length_rows (h : m ≤ r) : (rows r m).length = xend r m + m := by
  induction m with
  | zero => simp [rows, xend_eq]
  | succ m ih =>
    have hmono := xend_mono h
    rw [rows_succ, length_append, ih (by omega), row, length_map, length_range', Nat.add_sub_cancel]
    omega

def quarter (r m : ℕ) : List (ℤ × ℤ) := (0, 0) :: rows r m

theorem quarter_succ (r m : ℕ) : quarter r (m + 1) = quarter r m ++ row r (m + 1) := by
  rw [quarter, quarter, rows_succ, cons_append]

theorem length_quarter (h : m ≤ r) : (quarter r m).length = xend r m + m + 1 := by
  rw [quarter, length_cons, length_rows h]

theorem foldlM_putRow (h : m ≤ r) (hn : (quarter r m).length ≤ n) :
    (range' 1 m).foldlM (Offsets.putRow r) (filled n [(0, 0)]) = some (filled n (quarter r m)) := by
  induction m with
  | zero => rfl
  | succ m ih =>
    rw [quarter_succ, length_append] at hn
    rw [range'_1_concat, foldlM_append, ih (by omega) (by omega), Nat.add_comm 1 m, quarter_succ]
    simp [putRow_filled r (m + 1) hn]

theorem mem_row (ha : a + 1 ≤ r) : c ∈ row r (a + 1) ↔ c.2 = (a + 1 : ℕ) ∧ 0 ≤ c.1 ∧
      width r (r - a) ≤ c.1.natAbs ∧ c.1.natAbs ≤ width r (r - (a + 1)) := by
  have hmono := xend_mono ha
  simp only [row, mem_map, mem_range'_1, Nat.add_sub_cancel]
  rw [← xend_eq ha, ← xend_eq (by omega : a ≤ r)]
  constructor
  · rintro ⟨x, ⟨hx, hx'⟩, rfl⟩
    refine ⟨rfl, Int.natCast_nonneg x, ?_, ?_⟩ <;> simp only [Int.natAbs_natCast] <;> omega
  · rintro ⟨h2, h0, hle, hge⟩
    exact ⟨c.1.natAbs, ⟨hle, by omega⟩, Prod.ext (Int.natAbs_of_nonneg h0) h2.symm⟩

theorem mem_quarter (h : m ≤ r) : c ∈ quarter r m ↔ InRing r (c.1, c.2 - r) ∧ 0 ≤ c.1 ∧ 0 ≤ c.2 ∧ c.2 ≤ m := by
  induction m with
  | zero =>
    obtain ⟨x, y⟩ := c
    simp only [quarter, rows, range'_zero, flatMap_nil, mem_singleton, Prod.mk.injEq, InRing]
    constructor
    · rintro ⟨rfl, rfl⟩
      exact ⟨.inl ⟨by omega, rfl⟩, le_rfl, le_rfl, le_rfl⟩
    · rintro ⟨hring, hx, hy, hy'⟩
      rcases hring with ⟨-, hx0⟩ | ⟨hlt, -⟩
      · exact ⟨hx0, by omega⟩
      · omega
  | succ m ih =>
    have hsplit : c ∈ quarter r (m + 1) ↔ c ∈ quarter r m ∨ c ∈ row r (m + 1) := by
      rw [quarter_succ, mem_append]
    rw [hsplit, ih (by omega), mem_row h]
    constructor
    · rintro (⟨hring, hx, hy, hy'⟩ | ⟨hy, hx, hle, hge⟩)
      · exact ⟨hring, hx, hy, by push_cast; omega⟩
      · have hk : (c.2 - r).natAbs = r - (m + 1) := by omega
        refine ⟨.inr ?_, hx, by omega, by omega⟩
        simp only [hk]
        refine ⟨by omega, ?_, hge⟩
        rwa [show r - (m + 1) + 1 = r - m by omega]
    · rintro ⟨hring, hx, hy, hy'⟩
      rcases lt_or_ge c.2 ((m + 1 : ℕ) : ℤ) with hlt | hge
      · exact .inl ⟨hring, hx, hy, by push_cast at hlt; omega⟩
      · have heq : c.2 = (m + 1 : ℕ) := le_antisymm hy' hge
        have hk : (c.2 - r).natAbs = r - (m + 1) := by omega
        rcases hring with ⟨hr, -⟩ | ⟨-, hle, hge⟩
        · simp only [hk] at hr
          omega
        · simp only [hk, show r - (m + 1) + 1 = r - m by omega] at hle hge
          exact .inr ⟨heq, hx, hle, hge⟩

/-! ## The whole ring -/

def half (r : ℕ) : List (ℤ × ℤ) := quarter r r ++ (quarter r (r - 1)).map fun o => (o.1, ((r * 2 : ℕ) : ℤ) - o.2)

theorem quarter_take (hr : 1 ≤ r) :
    (quarter r r).take ((quarter r r).length - 2) = quarter r (r - 1) ∧ (quarter r (r - 1)).length = 2 * r - 1 ∧
      (quarter r r).length = 2 * r + 1 := by
  obtain ⟨s, rfl⟩ := Nat.exists_eq_add_of_le' hr
  have hprev : (quarter (s + 1) s).length = 2 * s + 1 := by
    rw [length_quarter (by omega), xend_eq (by omega), show s + 1 - s = 1 by omega, width_one hr]
    omega
  have hlast : (quarter (s + 1) (s + 1)).length = 2 * s + 3 := by
    rw [length_quarter le_rfl, xend_eq le_rfl, Nat.sub_self, width_zero]
    omega
  refine ⟨?_, by rw [Nat.add_sub_cancel, hprev]; omega, by omega⟩
  rw [hlast, Nat.add_sub_cancel, quarter_succ, take_append_of_le_length (by omega), take_of_length_le (by omega)]

theorem length_half (hr : 1 ≤ r) : (half r).length = 4 * r := by
  obtain ⟨-, hprev, hlen⟩ := quarter_take hr
  rw [half, length_append, length_map, hprev, hlen]
  omega

theorem mem_half (hr : 1 ≤ r) : c ∈ half r ↔ InRing r (c.1, c.2 - r) ∧ 0 ≤ c.1 := by
  simp only [half, mem_append, mem_map]
  constructor
  · rintro (hc | ⟨o, ho, rfl⟩)
    · obtain ⟨hring, hx, -, -⟩ := (mem_quarter le_rfl).1 hc
      exact ⟨hring, hx⟩
    · obtain ⟨hring, hx, -, -⟩ := (mem_quarter (Nat.sub_le r 1)).1 ho
      refine ⟨?_, hx⟩
      have hneg := hring.neg_snd
      have heq : -(o.2 - (r : ℤ)) = ((r * 2 : ℕ) : ℤ) - o.2 - r := by
        push_cast
        ring
      rwa [heq] at hneg
  · rintro ⟨hring, hx⟩
    obtain ⟨hk, -⟩ := inDisc_iff.1 hring.inDisc
    simp only at hk
    rcases le_or_gt c.2 r with hle | hgt
    · exact .inl ((mem_quarter le_rfl).2 ⟨hring, hx, by omega, hle⟩)
    · refine .inr ⟨(c.1, ((r * 2 : ℕ) : ℤ) - c.2), (mem_quarter (Nat.sub_le r 1)).2 ⟨?_, hx, ?_, ?_⟩, ?_⟩
      · have hneg := hring.neg_snd
        have heq : -(c.2 - (r : ℤ)) = ((r * 2 : ℕ) : ℤ) - c.2 - r := by
          push_cast
          ring
        rwa [heq] at hneg
      · push_cast
        omega
      · push_cast
        omega
      · rw [sub_sub_cancel]

def whole (r : ℕ) : List (ℤ × ℤ) := half r ++ (half r).map fun o => (-o.1, o.2)

theorem length_whole (hr : 1 ≤ r) : (whole r).length = 8 * r := by
  rw [whole, length_append, length_map, length_half hr]
  omega

theorem mem_whole (hr : 1 ≤ r) : c ∈ whole r ↔ InRing r (c.1, c.2 - r) := by
  simp only [whole, mem_append, mem_map, mem_half hr]
  constructor
  · rintro (⟨hring, -⟩ | ⟨o, ⟨hring, -⟩, rfl⟩)
    · exact hring
    · exact hring.neg_fst
  · intro hring
    rcases le_total 0 c.1 with hx | hx
    · exact .inl ⟨hring, hx⟩
    · exact .inr ⟨(-c.1, c.2), ⟨hring.neg_fst, neg_nonneg.2 hx⟩, by rw [neg_neg]⟩

theorem make_eq (hr : 1 ≤ r) : Offsets.make r = some ((filled (10 * r) (whole r)).centre r) := by
  obtain ⟨htake, hprev, hlen⟩ := quarter_take hr
  have hhalf := length_half hr
  have hstart : Offsets.put ⟨replicate (r * 2 * 5) (0, 0), 0⟩ (0, 0) = some (filled (10 * r) [(0, 0)]) := by
    have h := put_filled (n := 10 * r) (l := []) (by simp; omega) (0, 0)
    rw [filled, nil_append, length_nil, Nat.sub_zero] at h
    rwa [show r * 2 * 5 = 10 * r by omega]
  have hrows := foldlM_putRow (n := 10 * r) (le_refl r) (by omega)
  have hbelow : (filled (10 * r) (quarter r r)).putCopies (fun o => (o.1, ((r * 2 : ℕ) : ℤ) - o.2))
      ((quarter r r).length - 2) = some (filled (10 * r) (half r)) := by
    rw [putCopies_filled _ (by omega) (by omega), htake, half]
  have hleft : (filled (10 * r) (half r)).putCopies (fun o => (-o.1, o.2)) (half r).length =
      some (filled (10 * r) (whole r)) := by
    rw [putCopies_filled _ le_rfl (by omega), take_length, whole]
  have hindex : ∀ l, (filled (10 * r) l).index = l.length := fun _ => rfl
  simp only [Offsets.make, hstart, hrows, hindex, hbelow, hleft, Option.bind_eq_bind, Option.bind_some,
    Option.pure_def]

theorem entries_centre (r n : ℕ) (l : List (ℤ × ℤ)) :
    ((filled n l).centre r).entries = l.map fun o => (o.1, o.2 - (r : ℤ)) := by
  refine ext_getElem? fun a => ?_
  simp only [Offsets.entries, Offsets.centre, filled, getElem?_take, getElem?_mapIdx, getElem?_map]
  by_cases ha : a < l.length
  · rw [if_pos ha, getElem?_append_left ha]
    simp [ha]
  · rw [if_neg ha, getElem?_eq_none (not_lt.1 ha), Option.map_none]

theorem mem_entries (hr : 1 ≤ r) : c ∈ ((filled (10 * r) (whole r)).centre r).entries ↔ InRing r c := by
  rw [entries_centre, mem_map]
  constructor
  · rintro ⟨o, ho, rfl⟩
    exact (mem_whole hr).1 ho
  · intro hring
    refine ⟨(c.1, c.2 + r), (mem_whole hr).2 ?_, by rw [add_sub_cancel_right]⟩
    rwa [add_sub_cancel_right]

theorem length_centre (r n : ℕ) (hl : l.length ≤ n) : ((filled n l).centre r).offsets.length = n := by
  simp only [Offsets.centre, filled, length_mapIdx, length_append, length_replicate]
  omega

theorem closes_of_mem {entries : List (ℤ × ℤ)} (h : ∀ c, c ∈ entries ↔ InRing r c) : Closes r entries where
  inDisc c hc := ((h c).1 hc).inDisc
  neg_fst c hc := (h _).2 ((h c).1 hc).neg_fst
  neg_snd c hc := (h _).2 ((h c).1 hc).neg_snd
  met path hpath hfirst hlast := by
    obtain ⟨d, hd, hring⟩ := ring_crossed (r := r) (t := 0) hpath (by simpa using hfirst) hlast
    rw [sub_zero] at hring
    exact ⟨d, hd, (h d).2 hring⟩

/-! ## End nodes -/

section Targets

variable {P : PathFinder} {b : Bounds} {hitTest : ℤ × ℤ → ℤ × ℤ → Bool} {offsets : List (ℤ × ℤ)} {e : Ends} {v : ℕ}

variable (P hitTest offsets) in
def Listed (endNodes : List ℕ) (v : ℕ) : Prop :=
  ∀ o ∈ offsets, isEndCell P hitTest (moveNode2MoveXY P v) (moveNode2MoveXY P v + o) = true →
    P.moveXY2MoveNode (moveNode2MoveXY P v + o) ∈ endNodes

variable (P hitTest offsets) in
def Marked (e : Ends) : Prop := ∀ v, (e.nodes v).isEndNode = true → Listed P hitTest offsets e.endNodes v

variable (P b hitTest offsets e) in
theorem addTarget_cases (f : Pos) :
    ((e.nodes (targetNode P b f)).isEndNode = true ∧ addTarget P b hitTest offsets e f = e) ∨
      (Listed P hitTest offsets (addTarget P b hitTest offsets e f).endNodes (targetNode P b f) ∧
        e.endNodes ⊆ (addTarget P b hitTest offsets e f).endNodes ∧
        (addTarget P b hitTest offsets e f).nodes = update e.nodes (targetNode P b f)
          { e.nodes (targetNode P b f) with isEndNode := true }) := by
  by_cases hmark : (e.nodes (targetNode P b f)).isEndNode = true
  · exact .inl ⟨hmark, by rw [addTarget, if_pos hmark]⟩
  · refine .inr ?_
    rw [addTarget, if_neg hmark]
    refine ⟨fun o ho hend => ?_, fun u hu => ?_, rfl⟩
    · refine mem_append_left _ (mem_append_right _ (mem_map_of_mem ?_))
      exact mem_filter.2 ⟨mem_map_of_mem (f := fun o => _ + o) ho, hend⟩
    · exact mem_append_left _ (mem_append_left _ hu)

theorem Marked.turn (h : Marked P hitTest offsets e) (f : Pos) :
    Marked P hitTest offsets (addTarget P b hitTest offsets e f) ∧
      ((addTarget P b hitTest offsets e f).nodes (targetNode P b f)).isEndNode = true ∧
      ∀ v, (e.nodes v).isEndNode = true → ((addTarget P b hitTest offsets e f).nodes v).isEndNode = true := by
  rcases addTarget_cases P b hitTest offsets e f with ⟨hmark, heq⟩ | ⟨hlist, hsub, hnodes⟩
  · rw [heq]
    exact ⟨h, hmark, fun _ hv => hv⟩
  · refine ⟨fun v hv => ?_, ?_, fun v hv => ?_⟩
    · by_cases hvt : v = targetNode P b f
      · rw [hvt]
        exact hlist
      · rw [hnodes, update_of_ne hvt] at hv
        exact fun o ho hend => hsub (h v hv o ho hend)
    · rw [hnodes, update_self]
    · rw [hnodes]
      by_cases hvt : v = targetNode P b f
      · rw [hvt, update_self]
      · rwa [update_of_ne hvt]

theorem Marked.turns (h : Marked P hitTest offsets e) (targets : List Pos) :
    Marked P hitTest offsets (targets.foldl (addTarget P b hitTest offsets) e) ∧
      (∀ f ∈ targets, ((targets.foldl (addTarget P b hitTest offsets) e).nodes (targetNode P b f)).isEndNode = true) ∧
      ∀ v, (e.nodes v).isEndNode = true →
        ((targets.foldl (addTarget P b hitTest offsets) e).nodes v).isEndNode = true := by
  induction targets generalizing e with
  | nil => exact ⟨h, by simp, fun _ hv => hv⟩
  | cons f targets ih =>
    obtain ⟨hmarked, hf, hkeep⟩ := h.turn (b := b) f
    obtain ⟨hmarked', htargets, hkeep'⟩ := ih hmarked
    refine ⟨hmarked', fun g hg => ?_, fun v hv => hkeep' v (hkeep v hv)⟩
    rcases mem_cons.1 hg with rfl | hg
    · exact hkeep' _ hf
    · exact htargets g hg

theorem addTargets_guards (h : ∀ c, c ∈ offsets ↔ InRing r c) {nodes : ℕ → PathNode}
    (hnodes : ∀ v, (nodes v).isEndNode = false) {targets : List Pos} {f : Pos} (hf : f ∈ targets)
    (hinside : RingInside P offsets (moveNode2MoveXY P (targetNode P b f))) :
    Guards P hitTest r offsets (addTargets P b hitTest offsets nodes targets).endNodes
      (moveNode2MoveXY P (targetNode P b f)) := by
  intro path hpath hfirst hlast
  have hstart : Marked P hitTest offsets ⟨nodes, [], []⟩ := fun v hv => absurd hv (by simp [hnodes])
  obtain ⟨hmarked, htargets, -⟩ := hstart.turns (b := b) targets
  obtain ⟨c, hc, hring⟩ := ring_crossed hpath hfirst hlast
  have hmem := (h _).2 hring
  refine ⟨c, hc, hmem, fun hhit => ?_⟩
  have hcell := hmarked _ (htargets f hf) _ hmem
  rw [add_sub_cancel] at hcell
  refine hcell ?_
  have hin := hinside _ hmem
  simp only [Prod.fst_sub, Prod.snd_sub, add_sub_cancel] at hin
  simp only [isEndCell, hhit, Bool.and_true, Bool.and_eq_true, decide_eq_true_eq]
  omega

end Targets

/-! ## The result -/

/-- For every radius the offsets fit in their vector and make a ring that closes; for every search the end nodes of its
targets guard those whose ring is in the map. -/
theorem ring_closes (radius : ℕ) (hr : 1 ≤ radius) :
    ∃ s, Offsets.make radius = some s ∧ s.offsets.length = 10 * radius ∧ s.index = 8 * radius ∧
      s.entries.length = 8 * radius ∧ Closes radius s.entries ∧
      ∀ (P : PathFinder) (b : Bounds) (hitTest : ℤ × ℤ → ℤ × ℤ → Bool) (p : CMicroPather) (targets : List Pos),
        Reachable P.pathMapXSize P.pathMapYSize p → ∀ f ∈ targets,
        RingInside P s.entries (moveNode2MoveXY P (targetNode P b f)) →
        Guards P hitTest radius s.entries (addTargets P b hitTest s.entries p.pathNodeMem targets).endNodes
          (moveNode2MoveXY P (targetNode P b f)) := by
  have hlen := length_whole hr
  refine ⟨_, make_eq hr, length_centre radius (10 * radius) (by omega), hlen, ?_, ?_, ?_⟩
  · rw [entries_centre, length_map, hlen]
  · exact closes_of_mem fun c => mem_entries hr
  · intro P b hitTest p targets hp f hf hinside
    exact addTargets_guards (fun c => mem_entries hr) hp.idle.isEndNode hf hinside

def lawn : PathFinder := ⟨12, 5, 5, Nat.succ_pos 11⟩

/-- A target in the middle is guarded at the range of two squares. -/
theorem ring_closes_two : ∃ s, Offsets.make 2 = some s ∧
    s.entries = [(0, -2), (0, -1), (1, -1), (1, 0), (2, 0), (0, 2), (0, 1), (1, 1),
      (0, -2), (0, -1), (-1, -1), (-1, 0), (-2, 0), (0, 2), (0, 1), (-1, 1)] ∧ Closes 2 s.entries ∧
    Guards lawn (fun _ _ => true) 2 s.entries (addTargets lawn ⟨60, 60⟩ (fun _ _ => true) s.entries
      (CMicroPather.new 5 5 id).pathNodeMem [⟨30, 30⟩]).endNodes (3, 3) := by
  obtain ⟨s, hs, -, -, -, hcloses, hguards⟩ := ring_closes 2 (by decide)
  have hentries : (Offsets.make 2).map (·.entries) = some [(0, -2), (0, -1), (1, -1), (1, 0), (2, 0), (0, 2), (0, 1),
      (1, 1), (0, -2), (0, -1), (-1, -1), (-1, 0), (-2, 0), (0, 2), (0, 1), (-1, 1)] := by
    decide +kernel
  rw [hs, Option.map_some, Option.some_inj] at hentries
  have htarget : moveNode2MoveXY lawn (targetNode lawn ⟨60, 60⟩ ⟨30, 30⟩) = (3, 3) := by decide +kernel
  have hinside : RingInside lawn s.entries (3, 3) := by
    rw [RingInside, hentries]
    decide
  have hguard := hguards lawn ⟨60, 60⟩ (fun _ _ => true) (.new 5 5 id) [⟨30, 30⟩] (.new id) ⟨30, 30⟩ mem_cons_self
  rw [htarget] at hguard
  exact ⟨s, hs, hentries, hcloses, hguard hinside⟩

end Circuit.Spec.EndRings
