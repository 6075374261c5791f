import CircuitAI.Framework.QueueSearch
import Mathlib.Combinatorics.SimpleGraph.Acyclic

/-!
# Searches that take a node once

A search marks a node when it takes it from the queue, so that a node is taken again for each further neighbour taken
before it. Where the successors of a node are its neighbours in a graph, a search from the neighbours of `v` that comes to
its end takes no node twice if and only if there is at most one such neighbour (`single_of_nodup_taken`) and no cycle is
reached (`acyclic_of_nodup_taken`); `nodup_taken` is the other direction, for searches that end at any node.
-/

namespace Circuit.Framework

open Relation List

variable {V A : Type*} {next : V → List V} {stop : V → Bool} {visit : A → V → A} {queue visited : List V} {a b : A} {n : ℕ}
  [DecidableEq V]

/-! ## Nodes taken once -/

theorem prefix_taken (hr : search next stop visit n queue visited a = some (some b)) :
    queue <+: taken next stop n queue visited := by
  induction n generalizing queue visited a with
  | zero => cases hr
  | succ n ih =>
    cases queue with
    | nil => exact nil_prefix
    | cons q queue =>
      obtain ⟨hq, hr⟩ := search_cons hr
      rw [taken_cons hq, prefix_cons_inj]
      exact (prefix_append _ _).trans (ih hr)

theorem taken_before {w : V} (hr : search next stop visit n queue visited a = some (some b))
    (hnodup : (taken next stop n queue visited).Nodup) (hw : w ∉ visited) :
    let pos := fun x => (taken next stop n queue visited).idxOf x
    (w ∈ queue → ∀ x, pos x < pos w → w ∉ next x) ∧
      ∀ x y, pos x < pos w → pos y < pos w → w ∈ next x → w ∈ next y → x = y := by
  induction n generalizing queue visited a with
  | zero => cases hr
  | succ n ih =>
    cases queue with
    | nil => simp [taken]
    | cons q queue =>
      obtain ⟨hq, hr⟩ := search_cons hr
      rw [taken_cons hq] at hnodup ⊢
      by_cases hqw : q = w
      · simp [hqw]
      have hmark : w ∉ q :: visited := by simp [Ne.symm hqw, hw]
      have hwait : w ∈ next q → w ∈ (next q).filter (· ∉ q :: visited) := fun h =>
        mem_filter.mpr ⟨h, by simpa using hmark⟩
      obtain ⟨ih₁, ih₂⟩ := ih hr hnodup.tail hmark
      set t := taken next stop n (queue ++ (next q).filter (· ∉ q :: visited)) (q :: visited)
      have hpos : ∀ x, x ≠ q → (q :: t).idxOf x < (q :: t).idxOf w → t.idxOf x < t.idxOf w := by
        intro x hx hlt
        rw [idxOf_cons_ne _ hqw, idxOf_cons_ne _ (Ne.symm hx)] at hlt
        omega
      refine ⟨fun hwq x hx hxw => ?_, fun x y hx hy hxw hyw => ?_⟩
      · have hwq := (mem_cons.mp hwq).resolve_left (Ne.symm hqw)
        by_cases hxq : x = q
        · -- `w` would be appended while it waits
          have hqueue := (prefix_taken hr).sublist.nodup hnodup.tail
          exact (nodup_append.mp hqueue).2.2 w hwq w (hwait (hxq ▸ hxw)) rfl
        · exact ih₁ (mem_append_left _ hwq) x (hpos x hxq hx) hxw
      · by_cases hxq : x = q
        · by_contra hxy
          have hyq : y ≠ q := fun h => hxy (hxq.trans h.symm)
          exact ih₁ (mem_append_right _ (hwait (hxq ▸ hxw))) y (hpos y hyq hy) hyw
        · by_cases hyq : y = q
          · exact absurd hxw (ih₁ (mem_append_right _ (hwait (hyq ▸ hyw))) x (hpos x hxq hx))
          · exact ih₂ x y (hpos x hxq hx) (hpos y hyq hy) hxw hyw

/-! ## Graphs -/

section Graph

variable {G : SimpleGraph V} {P : V → Prop} (hP : ∀ u, P u → ∀ w ∈ next u, P w)
  (hG : ∀ u, P u → ∀ w, G.Adj u w ↔ u ≠ w ∧ w ∈ next u) {v : V} (hv : P v)

include hP hG

omit [DecidableEq V] in
theorem next_symm {u w : V} (hu : P u) (h : w ∈ next u) : u ∈ next w := by
  by_cases huw : u = w
  · exact huw ▸ h
  · exact ((hG w (hP u hu w h) u).mp ((hG u hu w).mpr ⟨huw, h⟩).symm).2

omit [DecidableEq V] in
theorem reachable_inside {u : V} (hv : P v) (h : G.Reachable v u) : P u := by
  rw [SimpleGraph.reachable_iff_reflTransGen] at h
  induction h with
  | refl => exact hv
  | tail _ hxy ih => exact hP _ ih _ ((hG _ ih _).mp hxy).2

omit [DecidableEq V] in
theorem reachable_next {root q : V} (hroot : P root) (hq : G.Reachable root q) : ∀ w ∈ next q, G.Reachable root w := by
  intro w hw
  by_cases hqw : q = w
  · exact hqw ▸ hq
  · exact hq.trans ((hG q (reachable_inside hP hG hroot hq) w).mpr ⟨hqw, hw⟩).reachable

include hv

omit [DecidableEq V] in
theorem reaches_of_adj {u w : V} (h : G.Reachable v u) (huw : G.Adj u w) : Reaches next (next v) u := by
  have hu := reachable_inside hP hG hv h
  have hback : ∀ {z}, G.Reachable v z → z ≠ v → Reaches next (next v) z := by
    intro z hz hne
    rw [SimpleGraph.reachable_iff_reflTransGen] at hz
    induction hz with
    | refl => exact absurd rfl hne
    | @tail x y hx hxy ih =>
      have hnext := ((hG x (reachable_inside hP hG hv ((SimpleGraph.reachable_iff_reflTransGen _ _).mpr hx)) y).mp hxy).2
      by_cases hxv : x = v
      · exact .of_mem (hxv ▸ hnext)
      · exact (ih hxv).tail hnext
  by_cases huv : u = v
  · have hw := ((hG u hu w).mp huw).2
    exact huv ▸ (Reaches.of_mem (huv ▸ hw)).tail (next_symm hP hG hu hw)
  · exact hback h huv

theorem single_of_nodup_taken (hr : search next stop visit n (next v) [] a = some (some b))
    (hnodup : (taken next stop n (next v) []).Nodup) : ∀ x ∈ next v, ∀ y ∈ next v, x = y := by
  set t := taken next stop n (next v) []
  have hbefore := fun w => taken_before (w := w) hr hnodup (by simp)
  -- no two of the first nodes are neighbours
  have hapart : ∀ x ∈ next v, ∀ y ∈ next v, x ≠ y → y ∉ next x := by
    intro x hx y hy hxy hyx
    rcases lt_trichotomy (t.idxOf x) (t.idxOf y) with hlt | heq | hgt
    · exact (hbefore y).1 hy x hlt hyx
    · exact hxy ((idxOf_inj (mem_taken hr (.of_mem hx))).mp heq)
    · exact (hbefore x).1 hx y hgt (next_symm hP hG (hP v hv x hx) hyx)
  intro x hx y hy
  by_contra hxy
  have hloop : v ∉ next v := by
    intro hloop
    by_cases hvx : v = x
    · exact hapart v hloop y hy (hvx ▸ hxy) hy
    · exact hapart v hloop x hx hvx hx
  -- so the node itself comes after both of them
  have hpos : ∀ z ∈ next v, t.idxOf z < t.idxOf v := by
    intro z hz
    have hz := ((prefix_taken hr).mem_iff_idxOf_lt_length z).mp hz
    exact hz.trans_le (not_lt.mp fun h => hloop (((prefix_taken hr).mem_iff_idxOf_lt_length v).mpr h))
  exact hxy ((hbefore v).2 x y (hpos x hx) (hpos y hy) (next_symm hP hG hv hx) (next_symm hP hG hv hy))

theorem acyclic_of_nodup_taken {u : V} (hr : search next stop visit n (next v) [] a = some (some b))
    (hnodup : (taken next stop n (next v) []).Nodup) (hu : G.Reachable v u) (c : G.Walk u u) : ¬ c.IsCycle := by
  intro hc
  set t := taken next stop n (next v) []
  obtain ⟨w, hw, hlast⟩ := c.support.toFinset.exists_max_image (fun x => t.idxOf x) ⟨u, by simp⟩
  rw [mem_toFinset] at hw
  have hcw := hc.rotate hw
  have hbefore : ∀ x, x ∈ (c.rotate w hw).support → G.Adj x w → t.idxOf x < t.idxOf w := by
    intro x hx hxw
    rw [c.mem_support_rotate_iff w hw] at hx
    refine lt_of_le_of_ne (hlast x (mem_toFinset.mpr hx)) fun h => hxw.ne ?_
    have hxv := hu.trans (c.takeUntil x hx).reachable
    exact (idxOf_inj (mem_taken hr (reaches_of_adj hP hG hv hxv hxw))).mp h
  have hsnd := (c.rotate w hw).adj_snd hcw.not_nil
  have hpen := (c.rotate w hw).adj_penultimate hcw.not_nil
  have hnext : ∀ x, G.Adj x w → w ∈ next x := by
    intro x hxw
    have hx := reachable_inside hP hG hv ((hu.trans (c.takeUntil w hw).reachable).trans hxw.symm.reachable)
    exact ((hG x hx w).mp hxw).2
  exact hcw.snd_ne_penultimate ((taken_before hr hnodup (by simp)).2 _ _
    (hbefore _ ((c.rotate w hw).getVert_mem_support 1) hsnd.symm) (hbefore _ ((c.rotate w hw).getVert_mem_support _) hpen)
    (hnext _ hsnd.symm) (hnext _ hpen))

omit hP hG hv

structure Grown (G : SimpleGraph V) (root : V) (queue visited : List V) : Prop where
  nodup : queue.Nodup
  fresh : ∀ v ∈ queue, v ∉ visited
  parent : ∀ v ∈ queue, ∃ u ∈ visited, G.Adj u v
  linked : ∀ x ∈ visited, ∀ w ∉ visited, (G.deleteIncidenceSet w).Reachable root x

theorem Grown.pop {q root : V} (h : Grown G root (q :: queue) visited) (hnext : (next q).Nodup)
    (hG : ∀ w, G.Adj q w ↔ q ≠ w ∧ w ∈ next q) (hbridge : ∀ w, G.Adj q w → G.IsBridge s(q, w)) :
    Grown G root (queue ++ (next q).filter (· ∉ q :: visited)) (q :: visited) := by
  obtain ⟨hqn, hqueue⟩ := nodup_cons.mp h.nodup
  have hq := h.fresh q mem_cons_self
  obtain ⟨p, hp, hpq⟩ := h.parent q mem_cons_self
  have hlinked : ∀ w, w ∉ q :: visited → (G.deleteIncidenceSet w).Reachable root q := by
    intro w hw
    obtain ⟨hwq, hwv⟩ := not_or.mp (mt mem_cons.mpr hw)
    refine (h.linked p hp w hwv).trans (SimpleGraph.Adj.reachable ?_)
    exact SimpleGraph.deleteIncidenceSet_adj.mpr ⟨hpq, fun e => hwv (e ▸ hp), Ne.symm hwq⟩
  have hnew : ∀ w ∈ (next q).filter (· ∉ q :: visited), G.Adj q w ∧ w ∉ q :: visited := by
    intro w hw
    obtain ⟨hw, hmark⟩ := mem_filter.mp hw
    have hmark : w ∉ q :: visited := by simpa using hmark
    exact ⟨(hG w).mpr ⟨fun e => hmark (e ▸ mem_cons_self), hw⟩, hmark⟩
  -- a neighbour that waits already would be reached on a second way, over the marked node that it is a neighbour of
  have hwait : ∀ w, G.Adj q w → w ∉ q :: visited → w ∉ queue := by
    intro w hqw hmark hwait
    obtain ⟨hwq, hwv⟩ := not_or.mp (mt mem_cons.mpr hmark)
    obtain ⟨u, hu, huw⟩ := h.parent w (mem_cons_of_mem q hwait)
    have hway : (G.deleteIncidenceSet w).Reachable q u := (hlinked w hmark).symm.trans (h.linked u hu w hwv)
    refine SimpleGraph.isBridge_iff.mp (hbridge w hqw) ((hway.mono ?_).trans (SimpleGraph.Adj.reachable (v := w) ?_))
    · intro x y hxy
      obtain ⟨hxy, hx, hy⟩ := SimpleGraph.deleteIncidenceSet_adj.mp hxy
      simp [SimpleGraph.deleteEdges_adj, hxy, hx, hy]
    · have huq : u ≠ q := fun e => hq (e ▸ hu)
      simp [SimpleGraph.deleteEdges_adj, huw, huw.ne, huq]
  refine ⟨hqueue.append (hnext.filter _) fun w hw hw' => ?_, fun v hv => ?_, fun v hv => ?_, fun x hx w hw => ?_⟩
  · exact hwait w (hnew w hw').1 (hnew w hw').2 hw
  · rcases mem_append.mp hv with hv | hv
    · rw [mem_cons, not_or]
      exact ⟨fun e => hqn (e ▸ hv), h.fresh v (mem_cons_of_mem q hv)⟩
    · exact (hnew v hv).2
  · rcases mem_append.mp hv with hv | hv
    · obtain ⟨u, hu, huv⟩ := h.parent v (mem_cons_of_mem q hv)
      exact ⟨u, mem_cons_of_mem q hu, huv⟩
    · exact ⟨q, mem_cons_self, (hnew v hv).1⟩
  · rcases mem_cons.mp hx with rfl | hx
    · exact hlinked w hw
    · exact h.linked x hx w fun h => hw (mem_cons_of_mem q h)

include hP hG hv

theorem Grown.nodup_taken (hnext : ∀ v, (next v).Nodup) (h : Grown G v queue visited)
    (hbridge : ∀ u w, G.Reachable v u → G.Adj u w → G.IsBridge s(u, w)) (hqueue : ∀ u ∈ queue, G.Reachable v u) :
    (taken next stop n queue visited).Nodup ∧ ∀ u ∈ taken next stop n queue visited, u ∉ visited := by
  induction n generalizing queue visited with
  | zero => simp [taken]
  | succ n ih =>
    cases queue with
    | nil => simp [taken]
    | cons q queue =>
      by_cases hq : stop q = true
      · simp [taken, hq]
      rw [taken_cons (by simpa using hq)]
      have hvq := hqueue q mem_cons_self
      obtain ⟨hnodup, hnot⟩ := ih
        (h.pop (hnext q) (hG q (reachable_inside hP hG hv hvq)) fun w => hbridge q w hvq)
        (forall_mem_append_filter (fun v hv => hqueue v (mem_cons_of_mem q hv)) (reachable_next hP hG hv hvq))
      refine ⟨nodup_cons.mpr ⟨fun h => hnot q h mem_cons_self, hnodup⟩, fun u hu => ?_⟩
      rcases mem_cons.mp hu with rfl | hu
      · exact h.fresh u mem_cons_self
      · exact fun h => hnot u hu (mem_cons_of_mem q h)

theorem nodup_taken (hnext : ∀ v, (next v).Nodup) (hsingle : ∀ x ∈ next v, ∀ y ∈ next v, x = y)
    (hcycle : ∀ u, G.Reachable v u → ∀ c : G.Walk u u, ¬ c.IsCycle) : (taken next stop n (next v) []).Nodup := by
  have hbridge : ∀ u w, G.Reachable v u → G.Adj u w → G.IsBridge s(u, w) := by
    intro u w hu huw
    refine (SimpleGraph.isBridge_iff_forall_cycle_notMem huw).mpr fun x c hc hmem => ?_
    have hmem' := c.fst_mem_support_of_mem_edges hmem
    exact hcycle u hu (c.rotate _ hmem') (hc.rotate hmem')
  cases n with
  | zero => simp [taken]
  | succ n =>
    cases hstart : next v with
    | nil => simp [taken]
    | cons p rest =>
      have hp : p ∈ next v := hstart ▸ mem_cons_self
      have hrest : rest = [] := by
        refine eq_nil_iff_forall_not_mem.mpr fun y hy => ?_
        have hn := hstart ▸ hnext v
        exact (nodup_cons.mp hn).1 (hsingle p hp y (hstart ▸ mem_cons_of_mem p hy) ▸ hy)
      by_cases hq : stop p = true
      · simp [taken, hq]
      have hvp := reachable_next hP hG hv .rfl p hp
      have hpw : ∀ w ∈ (next p).filter (· ∉ [p]), G.Adj p w := fun w hw =>
        (hG p (hP v hv p hp) w).mpr ⟨Ne.symm (by simpa using (mem_filter.mp hw).2), (mem_filter.mp hw).1⟩
      have hgrown : Grown G p ((next p).filter (· ∉ [p])) [p] :=
        ⟨(hnext p).filter _, fun w hw => by simpa using (mem_filter.mp hw).2,
          fun w hw => ⟨p, mem_singleton_self p, hpw w hw⟩, fun x hx w _ => by rw [mem_singleton.mp hx]⟩
      obtain ⟨hnodup, hnot⟩ : (taken next stop n _ [p]).Nodup ∧ _ := hgrown.nodup_taken hP hG (hP v hv p hp) hnext
        (fun u w hu => hbridge u w (hvp.trans hu)) fun w hw => (hpw w hw).reachable
      rw [hrest, taken_cons (by simpa using hq), nil_append]
      exact nodup_cons.mpr ⟨fun h => hnot p h mem_cons_self, hnodup⟩

end Graph
end Circuit.Framework
