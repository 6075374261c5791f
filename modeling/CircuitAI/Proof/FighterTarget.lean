import CircuitAI.Impl.FighterTarget

/-!
# Targets and tasks agree

`Bound`: a task has a target exactly if that exists and has the task in its set. Every operation on what exists goes through
and keeps this.
-/

namespace Circuit.Spec.TargetBindings

open Impl.FighterTarget Function Option

variable {T E : Type*} [DecidableEq T] [DecidableEq E] {s u : State T E} {t : T} {e : E}

inductive Run : State T E → Prop
  | start : Run ⟨fun _ => none, fun _ => none⟩
  | newTask {s : State T E} {t : T} (h : Run s) (ht : s.target t = none) : Run (s.newTask t)
  | newInfo {s : State T E} {e : E} (h : Run s) (he : s.tasks e = none) : Run (s.newInfo e)
  | setTarget {s u : State T E} {t : T} {enemy : Option E} (h : Run s) (ht : s.target t ≠ none)
    (he : ∀ e ∈ enemy, s.tasks e ≠ none) (hu : s.setTarget t enemy = some u) : Run u
  | deleteTask {s u : State T E} {t : T} (h : Run s) (ht : s.target t ≠ none) (hu : s.deleteTask t = some u) : Run u
  | deleteInfo {s u : State T E} {e : E} {order : List T} (h : Run s) (he : s.tasks e = some order.toFinset)
    (hu : s.deleteInfo e order = some u) : Run u

def Has (s : State T E) (t : T) (e : E) : Prop := ∃ ts, s.tasks e = some ts ∧ t ∈ ts

def Bound (s : State T E) : Prop := ∀ t e, s.target t = some (some e) ↔ Has s t e

theorem Bound.release (h : Bound s) (ht : s.target t ≠ none) :
    ∃ u, s.release t = some u ∧ u.target = s.target ∧ (∀ t' e, Has u t' e ↔ Has s t' e ∧ t' ≠ t) ∧
      ∀ e, u.tasks e = none ↔ s.tasks e = none := by
  obtain ⟨x, hx⟩ := ne_none_iff_exists'.1 ht
  have honly : ∀ e, Has s t e → x = some e := fun e he => some.inj (hx.symm.trans ((h t e).2 he))
  cases x with
  | none => exact ⟨s, by simp [State.release, hx], rfl, by grind, by simp⟩
  | some e =>
    obtain ⟨ts, he, -⟩ := (h t e).1 hx
    refine ⟨{ s with tasks := update s.tasks e (some (ts.erase t)) },
      by simp [State.release, hx, State.unbindTask, he], rfl, fun t' e' => ?_, fun e' => ?_⟩ <;> by_cases heq : e' = e
    · simp [Has, heq, he, and_comm]
    · have hne : Has s t' e' → t' ≠ t := by
        rintro hs rfl
        exact heq (some.inj (honly e' hs)).symm
      simpa [Has, heq] using hne
    · simp [heq, he]
    · simp [heq]

theorem Bound.setTarget (h : Bound s) (ht : s.target t ≠ none) {enemy : Option E} (he : ∀ e ∈ enemy, s.tasks e ≠ none) :
    ∃ u, s.setTarget t enemy = some u ∧ Bound u := by
  obtain ⟨v, hv, htarget, hhas, hnone⟩ := h.release ht
  cases enemy with
  | none =>
    refine ⟨_, by simp [State.setTarget, hv]; rfl, fun t' e' => ?_⟩
    simp only [update_apply, htarget]
    show _ ↔ Has v t' e'
    grind [Bound]
  | some e =>
    obtain ⟨ts, hts⟩ := ne_none_iff_exists'.1 (mt (hnone e).1 (he e rfl))
    refine ⟨_, by simp [State.setTarget, hv, State.bindTask, hts]; rfl, fun t' e' => ?_⟩
    have hbind : Has { v with tasks := update v.tasks e (some (insert t ts)) } t' e' ↔
        Has v t' e' ∨ t' = t ∧ e' = e := by
      by_cases heq : e' = e
      · simp [Has, heq, hts, or_comm]
      · simp [Has, heq]
    simp only [update_apply, htarget]
    refine Iff.trans ?_ hbind.symm
    grind [Bound]

theorem Bound.deleteTask (h : Bound s) (ht : s.target t ≠ none) : ∃ u, s.deleteTask t = some u ∧ Bound u := by
  obtain ⟨v, hv, htarget, hhas, -⟩ := h.release ht
  refine ⟨_, by simp [State.deleteTask, hv]; rfl, fun t' e' => ?_⟩
  simp only [update_apply, htarget]
  show _ ↔ Has v t' e'
  grind [Bound]

omit [DecidableEq E] in
theorem foldlM_clearTarget (order : List T) (ht : ∀ t ∈ order, s.target t ≠ none) :
    ∃ u, order.foldlM State.clearTarget s = some u ∧ u.tasks = s.tasks ∧
      ∀ t, u.target t = if t ∈ order then some none else s.target t := by
  induction order generalizing s with
  | nil => exact ⟨s, rfl, rfl, by simp⟩
  | cons t order ih =>
    obtain ⟨x, hx⟩ := ne_none_iff_exists'.1 (ht t (by simp))
    have hclear : s.clearTarget t = some { s with target := update s.target t (some none) } := by
      simp [State.clearTarget, hx]
    obtain ⟨u, hu, htasks, htarget⟩ := ih (s := { s with target := update s.target t (some none) }) fun t' ht' => by
      have := ht t' (by simp [ht'])
      simp only [update_apply]
      grind
    refine ⟨u, by rw [List.foldlM_cons, hclear]; exact hu, htasks, fun t' => ?_⟩
    simp only [htarget, update_apply]
    grind

theorem Bound.deleteInfo (h : Bound s) {order : List T} (he : s.tasks e = some order.toFinset) :
    ∃ u, s.deleteInfo e order = some u ∧ Bound u := by
  have hmem : ∀ t, t ∈ order ↔ s.target t = some (some e) := fun t => by simp [h t e, Has, he]
  obtain ⟨u, hu, htasks, htarget⟩ := foldlM_clearTarget (s := s) order fun t ht => by simp [(hmem t).1 ht]
  refine ⟨_, by simp [State.deleteInfo, hu]; rfl, fun t' e' => ?_⟩
  have hb := h t' e'
  have ho := hmem t'
  by_cases heq : e' = e <;> simp [Has, htasks, htarget, heq] at hb ⊢ <;> grind

theorem Run.bound (h : Run s) : Bound s := by
  induction h with
  | start => simp [Bound, Has]
  | @newTask s t _ ht ih =>
    intro t' e'
    show update s.target t (some none) t' = _ ↔ Has s t' e'
    rw [← ih t' e', update_apply]
    grind
  | @newInfo s e _ he ih =>
    intro t' e'
    have hb := ih t' e'
    by_cases heq : e' = e <;> simp [State.newInfo, Has, heq, he] at hb ⊢ <;> exact hb
  | setTarget _ ht he hu ih =>
    obtain ⟨u, hu', hb⟩ := ih.setTarget ht he
    exact some.inj (hu'.symm.trans hu) ▸ hb
  | deleteTask _ ht hu ih =>
    obtain ⟨u, hu', hb⟩ := ih.deleteTask ht
    exact some.inj (hu'.symm.trans hu) ▸ hb
  | deleteInfo _ he hu ih =>
    obtain ⟨u, hu', hb⟩ := ih.deleteInfo he
    exact some.inj (hu'.symm.trans hu) ▸ hb

/-- In every state between the operations the target of an existing task is an existing info exactly if the task is in its
set; no target is deleted and no set has a deleted task; and the operations follow no pointer to a deleted object. -/
theorem targets_bound (h : Run s) : (∀ t e x ts, s.target t = some x → s.tasks e = some ts → (x = some e ↔ t ∈ ts)) ∧
    (∀ t e, s.target t = some (some e) → s.tasks e ≠ none) ∧
    (∀ e ts, s.tasks e = some ts → ∀ t ∈ ts, s.target t ≠ none) ∧
    (∀ t enemy, s.target t ≠ none → (∀ e ∈ enemy, s.tasks e ≠ none) → s.setTarget t enemy ≠ none) ∧
    (∀ t, s.target t ≠ none → s.deleteTask t ≠ none) ∧
    ∀ e (order : List T), s.tasks e = some order.toFinset → s.deleteInfo e order ≠ none := by
  have hb := h.bound
  refine ⟨fun t e x ts hx hts => ?_, fun t e hx => ?_, fun e ts hts t ht => ?_, fun t enemy ht he => ?_, fun t ht => ?_,
    fun e order he => ?_⟩
  · have hiff := hb t e
    rw [hx, some_inj] at hiff
    simpa [Has, hts] using hiff
  · obtain ⟨ts, hts, -⟩ := (hb t e).1 hx
    simp [hts]
  · simp [(hb t e).2 ⟨ts, hts, ht⟩]
  · obtain ⟨u, hu, -⟩ := hb.setTarget ht he
    simp [hu]
  · obtain ⟨u, hu, -⟩ := hb.deleteTask ht
    simp [hu]
  · obtain ⟨u, hu, -⟩ := hb.deleteInfo he
    simp [hu]

theorem targets_bound_deleted : ∃ s : State ℕ ℕ, Run s ∧ s.target 0 = some none ∧ s.tasks 5 = none ∧
    ∀ t e, s.target t = some (some e) → s.tasks e ≠ none := by
  have hinfo : ∀ u : State ℕ ℕ, u.tasks 5 ≠ none → ∀ e ∈ some 5, u.tasks e ≠ none := by
    rintro u hu _ ⟨⟩
    exact hu
  have h₀ := (Run.start (T := ℕ) (E := ℕ)).newInfo (e := 5) rfl |>.newTask (t := 0) rfl |>.newTask (t := 1) rfl
  have h₁ := h₀.setTarget (t := 0) nofun (hinfo _ nofun) rfl
  have h₂ := h₁.setTarget (t := 1) nofun (hinfo _ nofun) rfl
  have hrun := h₂.deleteInfo (show State.tasks _ 5 = some [1, 0].toFinset from rfl) rfl
  exact ⟨_, hrun, rfl, rfl, (targets_bound hrun).2.1⟩

end Circuit.Spec.TargetBindings
