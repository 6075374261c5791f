import CircuitAI.Spec.RoundRobin

/-!
# Round robin over the assignees

`GetNextAssignee` walks the ordered set of assignees with an iterator that outlives the changes of the set. A unit that
stays assigned lies before the iterator once it was returned in the round, and not earlier: `RemoveAssignee` moves the
iterator only past the unit that leaves, and `AssignTo` does not move it.
-/

namespace Circuit.Spec.RoundRobin

open Impl.BuilderTask Assignees Finset Option

variable {α : Type*} [LinearOrder α]

/-! ## The iterator -/

variable {u : α} {t : Assignees α}

def Valid (t : Assignees α) : Prop :=
  t.unitIt = ⊤ ∨ ∃ u ∈ t.units, t.unitIt = u

theorem lt_advance {s : Finset α} (hu : u ∈ s) (it : WithTop α) : u < advance s it ↔ u ≤ it := by
  rw [advance, Finset.min_eq_inf_withTop, Finset.lt_inf_iff (WithTop.coe_lt_top u)]
  constructor
  · intro h
    refine le_of_not_gt fun hit => ?_
    exact lt_irrefl _ (h u (Finset.mem_filter.2 ⟨hu, hit⟩))
  · intro h v hv
    exact h.trans_lt (Finset.mem_filter.1 hv).2

theorem advance_cases (s : Finset α) (it : WithTop α) : advance s it = ⊤ ∨ ∃ u ∈ s, it < u ∧ advance s it = u := by
  cases h : advance s it with
  | top => exact .inl rfl
  | coe u =>
    obtain ⟨hu, hit⟩ := mem_filter.1 (mem_of_min h)
    exact .inr ⟨u, hu, hit, rfl⟩

section

variable {t : Assignees α} (ht : Valid t)
include ht

theorem unitIt_removeAssignee (unit : α) (lastFrame : ℤ) :
    (t.removeAssignee unit lastFrame).unitIt = if t.unitIt = unit then advance t.units unit else t.unitIt := by
  show (if find t.units unit = t.unitIt ∧ t.unitIt ≠ ⊤ then advance t.units t.unitIt else t.unitIt) = _
  rcases ht with hit | ⟨u, hu, hit⟩
  · simp [hit]
  · rw [hit]
    by_cases h : u = unit
    · subst h
      simp [find, hu]
    · have hfind : find t.units unit ≠ u := by
        unfold find
        split
        · exact fun e => h (WithTop.coe_injective e).symm
        · exact WithTop.top_ne_coe
      rw [if_neg fun e => hfind e.1, if_neg fun e => h (WithTop.coe_injective e)]

theorem getNextAssignee_eq (hne : t.units ≠ ∅) : ∃ w ∈ t.units, (t.unitIt = w ∨ t.unitIt = ⊤ ∧ t.units.min = w) ∧
      t.getNextAssignee = (some w, { t with unitIt := advance t.units w }) := by
  rcases ht with hit | ⟨w, hw, hit⟩
  · obtain ⟨w, hw⟩ := min_of_nonempty (nonempty_iff_ne_empty.2 hne)
    exact ⟨w, mem_of_min hw, .inr ⟨hit, hw⟩, by simp [getNextAssignee, hne, hit, hw, deref]⟩
  · exact ⟨w, hw, .inl hit, by simp [getNextAssignee, hne, hit, deref]⟩

theorem valid_step (c : Call α) : Valid (step t c) := by
  cases c with
  | assignTo unit => exact ht.imp_right fun ⟨u, hu, hit⟩ => ⟨u, mem_insert_of_mem hu, hit⟩
  | removeAssignee unit lastFrame =>
    unfold Valid
    rw [step, unitIt_removeAssignee ht]
    split
    · refine (advance_cases t.units unit).imp_right fun ⟨u, hu, hlt, hit⟩ => ⟨u, ?_, hit⟩
      exact mem_erase.2 ⟨(WithTop.coe_lt_coe.1 hlt).ne', hu⟩
    · rename_i hunit
      refine ht.imp_right fun ⟨u, hu, hit⟩ => ⟨u, mem_erase.2 ⟨?_, hu⟩, hit⟩
      rintro rfl
      exact hunit hit
  | getNextAssignee =>
    by_cases hne : t.units = ∅
    · simpa [step, getNextAssignee, hne] using ht
    · obtain ⟨w, -, -, hget⟩ := getNextAssignee_eq ht hne
      simp only [step, hget]
      exact (advance_cases t.units w).imp_right fun ⟨u, hu, _, hit⟩ => ⟨u, hu, hit⟩

theorem valid_run (calls : List (Call α)) : Valid (run t calls) := by
  induction calls generalizing t with
  | nil => exact ht
  | cons c calls ih => exact ih (valid_step ht c)

end

/-! ## One round -/

def passed (t : Assignees α) (u : α) : ℕ :=
  if u < t.unitIt then 1 else 0

theorem passed_step (ht : Valid t) {c : Call α} {calls : List (Call α)}
    (hwrap : NoWrap t (c :: calls)) (hu : u ∈ t.units) (hu' : u ∈ (step t c).units) :
    (answer t c).toList.count u + passed t u = passed (step t c) u := by
  cases c with
  | assignTo unit => exact Nat.zero_add _
  | removeAssignee unit lastFrame =>
    have hne : u ≠ unit := (mem_erase.1 hu').1
    simp only [answer, passed, step, unitIt_removeAssignee ht, toList_none, List.count_nil, Nat.zero_add]
    by_cases hit : t.unitIt = unit
    · simp only [hit, if_true, lt_advance hu, WithTop.coe_le_coe, WithTop.coe_lt_coe, hne.le_iff_lt]
    · rw [if_neg hit]
  | getNextAssignee =>
    obtain ⟨w, -, hit, hget⟩ := getNextAssignee_eq ht (ne_empty_of_mem hu)
    rcases hit with hit | ⟨hit, -⟩
    · simp only [answer, passed, step, hget, hit, lt_advance hu, WithTop.coe_le_coe, WithTop.coe_lt_coe,
        toList_some, List.count_singleton, beq_iff_eq]
      rcases lt_trichotomy u w with h | rfl | h
      · simp [h, h.le, h.ne']
      · simp
      · simp [h.not_gt, h.not_ge, h.ne]
    · exact absurd ⟨ne_empty_of_mem hu, hit⟩ hwrap.1

theorem passed_wrap (hwrap : Wraps t) (hu : u ∈ t.units) :
    (answer t .getNextAssignee).toList.count u = passed (step t .getNextAssignee) u := by
  obtain ⟨w, -, hit, hget⟩ := getNextAssignee_eq (.inl hwrap.2) hwrap.1
  have hmin : t.units.min = w := hit.elim (fun e => absurd (hwrap.2.symm.trans e) WithTop.top_ne_coe) And.right
  have hle : w ≤ u := WithTop.coe_le_coe.1 (hmin ▸ min_le hu)
  simp only [answer, passed, step, hget, lt_advance hu, WithTop.coe_le_coe, toList_some, List.count_singleton,
    beq_iff_eq, hle.ge_iff_eq]

theorem passed_run (ht : Valid t) {calls : List (Call α)} (hwrap : NoWrap t calls)
    (hstays : Stays u t calls) : (answers t calls).count u + passed t u = passed (run t calls) u := by
  induction calls generalizing t with
  | nil => exact Nat.zero_add _
  | cons c calls ih =>
    have hu' : u ∈ (step t c).units := by
      cases calls with
      | nil => exact hstays.2
      | cons => exact hstays.2.1
    have hstep := passed_step ht hwrap hstays.1 hu'
    have hrun := ih (valid_step ht c) hwrap.2 hstays.2
    rw [answers, List.count_append, show run t (c :: calls) = run (step t c) calls from rfl]
    omega

end Circuit.Spec.RoundRobin
