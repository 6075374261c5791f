import Mathlib.Data.Finset.Card

/-!
# Searching a graph with a queue

A search takes the first node of a queue, ends if that is a node it looks for, and otherwise marks the node and appends
its unmarked successors. Marks are set when a node is taken and not when it is appended, so that a node may be taken more
than once. `search_stopped` and `search_exhausted` are the rules for an invariant of queue, marks and result;
`search_sound`, `search_complete`: the search ends at a node it looks for if and only if one is reached; `exists_search`:
it ends, on a finite set that no successor leaves.
-/

namespace Circuit.Framework

open Relation List

variable {V A : Type*} {v q : V}

def search [DecidableEq V] (next : V → List V) (stop : V → Bool) (visit : A → V → A) : ℕ → List V → List V → A → Option (Option A)
  | 0, _, _, _ => none
  | _ + 1, [], _, a => some (some a)
  | n + 1, q :: queue, visited, a =>
    if stop q then some none
    else search next stop visit n (queue ++ (next q).filter (· ∉ q :: visited)) (q :: visited) (visit a q)

def Reaches (next : V → List V) (start : List V) (v : V) : Prop :=
  ∃ u ∈ start, ReflTransGen (fun u w => w ∈ next u) u v

variable {next : V → List V} {stop : V → Bool} {visit : A → V → A} {start queue visited : List V} {a b : A} {n : ℕ}

theorem Reaches.of_mem (h : v ∈ start) : Reaches next start v := ⟨v, h, .refl⟩

theorem Reaches.tail {u : V} (h : Reaches next start u) (hv : v ∈ next u) : Reaches next start v := by
  obtain ⟨w, hw, hwu⟩ := h
  exact ⟨w, hw, hwu.tail hv⟩

theorem Reaches.rule {P : V → Prop} (h : Reaches next start v) (hstart : ∀ u ∈ start, P u)
    (hnext : ∀ u w, P u → w ∈ next u → P w) : P v := by
  obtain ⟨u, hu, huv⟩ := h
  induction huv with
  | refl => exact hstart u hu
  | tail _ hvw ih => exact hnext _ _ ih hvw

/-! ## Invariants -/

variable [DecidableEq V]

theorem search_cons (hr : search next stop visit (n + 1) (q :: queue) visited a = some (some b)) : stop q = false ∧
      search next stop visit n (queue ++ (next q).filter (· ∉ q :: visited)) (q :: visited) (visit a q) = some (some b) := by
  rw [search] at hr
  by_cases hq : stop q = true
  · rw [if_pos hq] at hr
    cases hr
  · rw [if_neg hq] at hr
    exact ⟨by simpa using hq, hr⟩

section Rules

variable {P : List V → List V → A → Prop}
  (hpop : ∀ q queue visited a, P (q :: queue) visited a → stop q = false →
    P (queue ++ (next q).filter (· ∉ q :: visited)) (q :: visited) (visit a q))

include hpop

theorem search_stopped (h : P queue visited a) (hr : search next stop visit n queue visited a = some none) :
    ∃ q queue visited a, P (q :: queue) visited a ∧ stop q = true := by
  induction n generalizing queue visited a with
  | zero => cases hr
  | succ n ih =>
    cases queue with
    | nil => cases hr
    | cons q queue =>
      rw [search] at hr
      by_cases hq : stop q = true
      · exact ⟨q, queue, visited, a, h, hq⟩
      · rw [if_neg hq] at hr
        exact ih (hpop q queue visited a h (by simpa using hq)) hr

theorem search_exhausted (h : P queue visited a) (hr : search next stop visit n queue visited a = some (some b)) :
    ∃ visited, P [] visited b := by
  induction n generalizing queue visited a with
  | zero => cases hr
  | succ n ih =>
    cases queue with
    | nil =>
      cases hr
      exact ⟨visited, h⟩
    | cons q queue =>
      obtain ⟨hq, hr⟩ := search_cons hr
      exact ih (hpop q queue visited a h hq) hr

end Rules

/-! ## What is found -/

theorem forall_mem_append_filter {P : V → Prop} (h : ∀ v ∈ queue, P v)
    (hnext : ∀ v ∈ next q, P v) : ∀ v ∈ queue ++ (next q).filter (· ∉ q :: visited), P v := by
  intro v hv
  rcases mem_append.mp hv with hv | hv
  · exact h v hv
  · exact hnext v (mem_of_mem_filter hv)

theorem search_sound (hr : search next stop visit n start [] a = some none) :
    ∃ v, Reaches next start v ∧ stop v = true := by
  obtain ⟨q, queue, _, _, hreach, hq⟩ := search_stopped (P := fun queue _ _ => ∀ v ∈ queue, Reaches next start v)
    (fun q queue visited a h _ => by
      have hq := h q mem_cons_self
      exact forall_mem_append_filter (fun v hv => h v (mem_cons_of_mem q hv)) fun v hv => hq.tail hv)
    (fun v hv => Reaches.of_mem hv) hr
  exact ⟨q, hreach q mem_cons_self, hq⟩

structure Pending (next : V → List V) (stop : V → Bool) (start queue visited : List V) : Prop where
  start : ∀ v ∈ start, v ∈ visited ∨ v ∈ queue
  next : ∀ u ∈ visited, ∀ w ∈ next u, w ∈ visited ∨ w ∈ queue
  seen : ∀ u ∈ visited, stop u = false

omit [DecidableEq V] in
theorem Pending.init : Pending next stop start start [] :=
  ⟨fun _ hv => .inr hv, nofun, nofun⟩

theorem Pending.pop (h : Pending next stop start (q :: queue) visited) (hq : stop q = false) :
    Pending next stop start (queue ++ (next q).filter (· ∉ q :: visited)) (q :: visited) := by
  have hkeep : ∀ v, v ∈ visited ∨ v ∈ q :: queue →
      v ∈ q :: visited ∨ v ∈ queue ++ (next q).filter (· ∉ q :: visited) := by
    intro v hv
    rcases hv with hv | hv
    · exact .inl (mem_cons_of_mem q hv)
    · rcases mem_cons.mp hv with rfl | hv
      · exact .inl mem_cons_self
      · exact .inr (mem_append_left _ hv)
  refine ⟨fun v hv => hkeep v (h.start v hv), fun u hu w hw => ?_, fun u hu => ?_⟩
  · rcases mem_cons.mp hu with rfl | hu
    · by_cases hmark : w ∈ u :: visited
      · exact .inl hmark
      · exact .inr (mem_append_right _ (mem_filter.mpr ⟨hw, by simpa using hmark⟩))
    · exact hkeep w (h.next u hu w hw)
  · rcases mem_cons.mp hu with rfl | hu
    · exact hq
    · exact h.seen u hu

theorem search_result {Q : A → Prop} (ha : Q a)
    (hvisit : ∀ a v, Q a → Reaches next start v → stop v = false → Q (visit a v))
    (hr : search next stop visit n start [] a = some (some b)) : Q b := by
  obtain ⟨_, _, hb⟩ := search_exhausted (P := fun queue _ a => (∀ v ∈ queue, Reaches next start v) ∧ Q a)
    (fun q queue visited a h hstop => by
      have hq := h.1 q mem_cons_self
      exact ⟨forall_mem_append_filter (fun v hv => h.1 v (mem_cons_of_mem q hv)) fun v hv => hq.tail hv,
        hvisit a q h.2 hq hstop⟩)
    ⟨fun v hv => Reaches.of_mem hv, ha⟩ hr
  exact hb

/-! ## The end of a search -/

theorem search_mono {m : ℕ} (hnm : n ≤ m) {r : Option A} (hr : search next stop visit n queue visited a = some r) :
    search next stop visit m queue visited a = some r := by
  induction n generalizing m queue visited a with
  | zero => cases hr
  | succ n ih =>
    obtain ⟨m, rfl⟩ : ∃ k, m = k + 1 := ⟨m - 1, by omega⟩
    cases queue with
    | nil => exact hr
    | cons q queue =>
      rw [search] at hr ⊢
      by_cases hq : stop q = true
      · rw [if_pos hq] at hr ⊢
        exact hr
      · rw [if_neg hq] at hr ⊢
        exact ih (by omega) hr

def Ends (next : V → List V) (stop : V → Bool) (visit : A → V → A) (queue visited : List V) : Prop :=
  ∀ a, ∃ n r, search next stop visit n queue visited a = some r

theorem ends_nil : Ends next stop visit [] visited := fun a => ⟨1, some a, rfl⟩

theorem ends_cons
    (h : stop q = false → Ends next stop visit (queue ++ (next q).filter (· ∉ q :: visited)) (q :: visited)) :
    Ends next stop visit (q :: queue) visited := by
  intro a
  by_cases hq : stop q = true
  · exact ⟨1, none, by rw [search, if_pos hq]⟩
  · obtain ⟨n, r, hr⟩ := h (by simpa using hq) (visit a q)
    exact ⟨n + 1, r, by rw [search, if_neg hq, hr]⟩

theorem ends_of_marked (h : Pending next stop start queue visited) (hall : ∀ v ∈ queue, v ∈ visited) :
    Ends next stop visit queue visited := by
  induction queue generalizing visited with
  | nil => exact ends_nil
  | cons q queue ih =>
    refine ends_cons fun hq => ?_
    have hq' := hall q mem_cons_self
    have hnone : (next q).filter (· ∉ q :: visited) = [] := by
      refine filter_eq_nil_iff.mpr fun w hw => ?_
      have hw' : w ∈ visited := (h.next q hq' w hw).elim id (hall w)
      simp [hw']
    have hpop := h.pop hq
    rw [hnone, append_nil] at hpop ⊢
    exact ih hpop fun v hv => mem_cons_of_mem q (hall v (mem_cons_of_mem q hv))

theorem card_unmarked_lt {U : Finset V} (hq : q ∈ U) (hmark : q ∉ visited) :
    (U.filter (· ∉ q :: visited)).card < (U.filter (· ∉ visited)).card := by
  apply Finset.card_lt_card
  refine Finset.ssubset_iff_subset_ne.mpr ⟨fun v hv => ?_, fun heq => ?_⟩
  · rw [Finset.mem_filter, mem_cons, not_or] at hv
    exact Finset.mem_filter.mpr ⟨hv.1, hv.2.2⟩
  · have hmem : q ∈ U.filter (· ∉ visited) := Finset.mem_filter.mpr ⟨hq, hmark⟩
    rw [← heq, Finset.mem_filter] at hmem
    exact hmem.2 mem_cons_self

theorem unmarked_cons {U : Finset V} (hmark : q ∈ visited) : U.filter (· ∉ q :: visited) = U.filter (· ∉ visited) := by
  refine Finset.filter_congr fun v _ => ?_
  have : v = q → v ∈ visited := fun h => h ▸ hmark
  simp only [mem_cons]
  tauto

theorem ends_of_finite (U : Finset V) (hU : ∀ u ∈ U, ∀ w ∈ next u, w ∈ U) (h : Pending next stop start queue visited)
    (hqueue : ∀ v ∈ queue, v ∈ U) : Ends next stop visit queue visited := by
  induction hn : (U.filter (· ∉ visited)).card using Nat.strongRecOn generalizing queue visited with
  | _ n ih =>
    have hpop : ∀ q queue visited, (∀ v ∈ q :: queue, v ∈ U) →
        ∀ v ∈ queue ++ (next q).filter (· ∉ q :: visited), v ∈ U := fun q queue visited hqueue =>
      forall_mem_append_filter (fun v hv => hqueue v (mem_cons_of_mem q hv)) (hU q (hqueue q mem_cons_self))
    -- an unmarked node lowers the count, and a marked one before it is taken without changing the marks
    have hfront : ∀ front v rest visited, (U.filter (· ∉ visited)).card = n → v ∉ visited →
        Pending next stop start (front ++ v :: rest) visited → (∀ w ∈ front ++ v :: rest, w ∈ U) →
        Ends next stop visit (front ++ v :: rest) visited := by
      intro front
      induction front with
      | nil =>
        intro v rest visited hn hv h hqueue
        have hlt := card_unmarked_lt (hqueue v mem_cons_self) hv
        exact ends_cons fun hstop => ih _ (hn ▸ hlt) (h.pop hstop) (hpop v rest visited hqueue) rfl
      | cons q front ihfront =>
        intro v rest visited hn hv h hqueue
        rw [cons_append] at h hqueue ⊢
        refine ends_cons fun hstop => ?_
        have hnext := h.pop hstop
        have hin := hpop q (front ++ v :: rest) visited hqueue
        by_cases hq : q ∈ visited
        · rw [append_assoc, cons_append] at hnext hin ⊢
          refine ihfront v _ (q :: visited) (by rw [unmarked_cons hq, hn]) ?_ hnext hin
          rw [mem_cons, not_or]
          exact ⟨fun heq => hv (heq ▸ hq), hv⟩
        · have hlt := card_unmarked_lt (hqueue q mem_cons_self) hq
          exact ih _ (hn ▸ hlt) hnext hin rfl
    by_cases hall : ∀ v ∈ queue, v ∈ visited
    · exact ends_of_marked h hall
    · obtain ⟨v, hv, hmark⟩ : ∃ v ∈ queue, v ∉ visited := by simpa using hall
      obtain ⟨front, rest, rfl⟩ := append_of_mem hv
      exact hfront front v rest visited hn hmark h hqueue

theorem exists_search (U : Finset V) (hU : ∀ u ∈ U, ∀ w ∈ next u, w ∈ U) (hstart : ∀ v ∈ start, v ∈ U) (a : A) :
    ∃ n r, search next stop visit n start [] a = some r :=
  ends_of_finite U hU .init hstart a

/-! ## The nodes taken -/

def taken (next : V → List V) (stop : V → Bool) : ℕ → List V → List V → List V
  | n + 1, q :: queue, visited =>
    if stop q then [] else q :: taken next stop n (queue ++ (next q).filter (· ∉ q :: visited)) (q :: visited)
  | _, _, _ => []

theorem taken_cons (hq : stop q = false) : taken next stop (n + 1) (q :: queue) visited =
    q :: taken next stop n (queue ++ (next q).filter (· ∉ q :: visited)) (q :: visited) := by
  rw [taken, if_neg (by simp [hq])]

theorem search_taken (h : Pending next stop start queue visited)
    (hr : search next stop visit n queue visited a = some (some b)) :
    b = (taken next stop n queue visited).foldl visit a ∧
      Pending next stop start [] ((taken next stop n queue visited).reverse ++ visited) := by
  induction n generalizing queue visited a with
  | zero => cases hr
  | succ n ih =>
    cases queue with
    | nil =>
      cases hr
      exact ⟨rfl, h⟩
    | cons q queue =>
      obtain ⟨hq, hr⟩ := search_cons hr
      rw [taken_cons hq, foldl_cons, reverse_cons, append_assoc]
      exact ih (h.pop hq) hr

theorem mem_taken (hr : search next stop visit n start [] a = some (some b)) (hv : Reaches next start v) :
    v ∈ taken next stop n start [] := by
  have hdone := (search_taken .init hr).2
  rw [append_nil] at hdone
  exact hv.rule (fun u hu => by simpa using hdone.start u hu)
    fun u w hu hw => by simpa using hdone.next u (by simpa using hu) w hw

theorem search_complete (hr : search next stop visit n start [] a = some (some b))
    (hv : Reaches next start v) : stop v = false :=
  (search_taken .init hr).2.seen v (by simpa using mem_taken hr hv)

end Circuit.Framework
