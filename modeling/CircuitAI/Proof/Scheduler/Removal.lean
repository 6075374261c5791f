import CircuitAI.Spec.GameTasks
import Mathlib.Algebra.Order.Ring.Int
import Mathlib.Data.List.Basic

/-!
# Removed game tasks

A task that was removed is in neither list, or it is among the tasks to remove at the end of the pass (`Removed`). A step that
does not register the task keeps this, if no registration is waiting for its offset; when a pass begins the task is in
neither list, and stays out (`Absent.step`). `RemoveTask` does not find a registration that waits, which adds the task
to `repeatTasks` later.
-/

set_option linter.unusedSectionVars false

namespace Circuit.Spec.GameTasks

open Impl.GameTasks List

variable {T : Type*} [DecidableEq T] {es es' : List (Event T)} {e : Event T} {s u v : State T} {t t' : T}

structure Absent (t : T) (s : State T) : Prop where
  once : ∀ c ∈ s.onceTasks, c.task ≠ .user t
  repeats : ∀ c ∈ s.repeatTasks, c.task ≠ t
  waits : ¬ Waits t s

def Sane (s : State T) : Prop := s.isProcessing = decide (s.phase ≠ .idle) ∧ (s.phase = .idle → s.removeTasks = [])

def Removed (t : T) (s : State T) : Prop := Absent t s ∨ s.phase ≠ .idle ∧ t ∈ s.removeTasks ∧ ¬ Waits t s

/-! ## Changes of the lists -/

theorem Waits.remove (h : Waits t (s.remove t')) : Waits t s := by
  obtain ⟨c, hc, h⟩ := h
  exact ⟨c, mem_of_mem_filter hc, h⟩

theorem Absent.remove (h : Absent t s) : Absent t (s.remove t') :=
  ⟨fun c hc => h.once c (mem_of_mem_filter hc), fun c hc => h.repeats c (mem_of_mem_filter hc),
    fun hw => h.waits hw.remove⟩

theorem absent_remove (h : ¬ Waits t s) : Absent t (s.remove t) :=
  ⟨fun c hc => by simpa using (mem_filter.1 hc).2, fun c hc => by simpa using (mem_filter.1 hc).2,
    fun hw => h hw.remove⟩

theorem absent_foldl_remove {ts : List T} (ht : Absent t s ∨ t ∈ ts ∧ ¬ Waits t s) :
    Absent t (ts.foldl State.remove s) := by
  induction ts generalizing s with
  | nil => simpa using ht
  | cons t' ts ih =>
    refine ih ?_
    rcases ht with h | ⟨ht, hw⟩
    · exact .inl h.remove
    · rcases mem_cons.1 ht with rfl | ht
      · exact .inl (absent_remove hw)
      · exact .inr ⟨ht, fun h => hw h.remove⟩

theorem waits_pushOnce {task : GameTask T} {g : ℤ} (htask : ∀ k, task ≠ .wrapper t k) (h : ¬ Waits t s) :
    ¬ Waits t (s.pushOnce task g) := by
  rintro ⟨c, hc, k, hk⟩
  rcases mem_append.1 hc with hc | hc
  · exact h ⟨c, hc, k, hk⟩
  · rw [mem_singleton.1 hc] at hk
    exact htask k hk

theorem Absent.pushOnce {task : GameTask T} {g : ℤ} (htask : task ≠ .user t ∧ ∀ k, task ≠ .wrapper t k) (h : Absent t s) :
    Absent t (s.pushOnce task g) := by
  refine ⟨fun c hc => ?_, h.repeats, waits_pushOnce htask.2 h.waits⟩
  rcases mem_append.1 hc with hc | hc
  · exact h.once c hc
  · rw [mem_singleton.1 hc]
    exact htask.1

theorem Absent.pushRepeat {k : ℤ} (ht : t' ≠ t) (h : Absent t s) : Absent t (s.pushRepeat t' k) := by
  refine ⟨h.once, fun c hc => ?_, h.waits⟩
  rcases mem_append.1 hc with hc | hc
  · exact h.repeats c hc
  · rw [mem_singleton.1 hc]
    exact ht

/-! ## Steps -/

theorem Absent.call {c : Call T} (h : Absent t s) (hc : ¬ Registers t (.call c s.nodes)) : Absent t (s.call c) := by
  cases c with
  | removeTask t' =>
    simp only [State.call]
    split_ifs
    · exact ⟨h.once, h.repeats, h.waits⟩
    · exact h.remove
  | runTaskEvery t' k offset =>
    simp only [State.call]
    split_ifs
    · exact h.pushOnce ⟨by simp, fun k' hk => hc (by simp_all [Registers])⟩
    · exact h.pushRepeat hc
  | _ => exact h.pushOnce ⟨fun heq => hc (by simpa [Registers] using heq), by simp⟩

theorem Absent.next (h : Absent t s) (hs : s.next = some (e, u)) : Absent t u ∧ ¬ Runs t e := by
  have herase : ∀ i, Absent t { s with onceTasks := s.onceTasks.eraseIdx i, phase := .once i } := fun i =>
    ⟨fun c hc => h.once c (mem_of_mem_eraseIdx hc), h.repeats,
      fun ⟨c, hc, hw⟩ => h.waits ⟨c, mem_of_mem_eraseIdx hc, hw⟩⟩
  obtain ⟨honce, hrep, hwaits⟩ := h
  cases next_cases hs with
  | onceRun hi hc hp => exact ⟨⟨honce, hrep, hwaits⟩, honce _ (mem_of_getElem? hi)⟩
  | repeatRun hi hc hp => exact ⟨⟨honce, hrep, hwaits⟩, hrep _ (mem_of_getElem? hi)⟩
  | wrapped hi hp =>
    refine ⟨(herase _).pushRepeat ?_, id⟩
    rintro rfl
    exact hwaits ⟨_, mem_of_getElem? hi, _, rfl⟩
  | onceDone hp => exact ⟨herase _, id⟩
  | @repeatDone i hp =>
    refine ⟨⟨honce, fun c hc => ?_, hwaits⟩, id⟩
    obtain ⟨j, hj⟩ := mem_iff_getElem?.1 hc
    rw [State.setLast, getElem?_modify] at hj
    obtain ⟨c', hc', rfl⟩ := Option.map_eq_some_iff.1 hj
    have hne := hrep c' (mem_of_getElem? hc')
    split_ifs <;> exact hne
  | complete hp =>
    have habs : Absent t (s.removeTasks.foldl State.remove s) := absent_foldl_remove (.inl ⟨honce, hrep, hwaits⟩)
    exact ⟨⟨habs.once, habs.repeats, habs.waits⟩, id⟩
  | _ => exact ⟨⟨honce, hrep, hwaits⟩, id⟩

theorem Absent.step (h : Absent t s) (hst : Step s e u) (he : ¬ Registers t e) : Absent t u ∧ ¬ Runs t e := by
  cases hst with
  | call hs => exact ⟨h.call he, id⟩
  | begin hs => exact ⟨⟨h.once, h.repeats, h.waits⟩, id⟩
  | next hs => exact h.next hs

theorem waits_call {c : Call T} (h : ¬ Waits t s) (hc : ¬ Registers t (.call c s.nodes)) : ¬ Waits t (s.call c) := by
  cases c with
  | removeTask t' =>
    simp only [State.call]
    split_ifs
    · exact h
    · exact fun hw => h hw.remove
  | runTaskEvery t' k offset =>
    simp only [State.call]
    split_ifs
    · exact waits_pushOnce (fun k' hk => hc (by simp_all [Registers])) h
    · exact h
  | _ => exact waits_pushOnce (by simp) h

theorem removeTasks_call (c : Call T) (hs : s.isProcessing = true) : s.removeTasks ⊆ (s.call c).removeTasks := by
  cases c with
  | removeTask t' => simp [State.call, hs]
  | runTaskEvery t' k offset =>
    simp only [State.call]
    split_ifs <;> exact List.Subset.refl _
  | _ => exact List.Subset.refl _

theorem phase_call (s : State T) (c : Call T) : (s.call c).phase = s.phase ∧ (s.call c).isProcessing = s.isProcessing ∧
      (s.isProcessing = false → (s.call c).removeTasks = s.removeTasks) := by
  cases c <;> simp only [State.call] <;> (try split_ifs) <;> simp_all [State.pushOnce, State.pushRepeat, State.remove]

theorem Sane.step (h : Sane s) (hst : Step s e u) : Sane u := by
  cases hst with
  | @call c hs =>
    obtain ⟨hphase, hproc, hremove⟩ := phase_call s c
    refine ⟨by rw [hproc, hphase]; exact h.1, fun hp => ?_⟩
    rw [hphase] at hp
    rw [hremove (by rw [h.1, hp]; rfl), h.2 hp]
  | begin hs => exact ⟨rfl, by simp [State.begin]⟩
  | next hs =>
    cases next_cases hs with
    | complete hp => exact ⟨rfl, fun _ => rfl⟩
    | _ => exact ⟨by simp [State.pushRepeat, State.setLast, h.1, *], by simp [State.pushRepeat]⟩

theorem Removed.next (ht : t ∈ s.removeTasks) (hw : ¬ Waits t s) (hs : s.next = some (e, u)) : Removed t u := by
  have herase : ∀ i, ¬ Waits t { s with onceTasks := s.onceTasks.eraseIdx i, phase := .once i } :=
    fun i ⟨c, hc, hk⟩ => hw ⟨c, mem_of_mem_eraseIdx hc, hk⟩
  cases next_cases hs with
  | wrapped hi hp => exact .inr ⟨by simp [State.pushRepeat], ht, herase _⟩
  | onceDone hp => exact .inr ⟨by simp, ht, herase _⟩
  | complete hp =>
    have habs := absent_foldl_remove (.inr ⟨ht, hw⟩)
    exact .inl ⟨habs.once, habs.repeats, habs.waits⟩
  | _ => exact .inr ⟨by simp, ht, hw⟩

theorem Removed.step (h : Removed t s) (hsane : Sane s) (hst : Step s e u) (he : ¬ Registers t e) : Removed t u := by
  rcases h with h | ⟨hp, ht, hw⟩
  · exact .inl (h.step hst he).1
  cases hst with
  | @call c hs =>
    have hproc : s.isProcessing = true := by rw [hsane.1, decide_eq_true hp]
    exact .inr ⟨by rw [(phase_call s c).1]; exact hp, removeTasks_call c hproc ht, waits_call hw he⟩
  | begin hs => exact absurd hs hp
  | next hs => exact Removed.next ht hw hs

/-! ## Runs -/

theorem Steps.split (h : Steps s (es' ++ es) u) : ∃ v, Steps s es v ∧ Steps v es' u := by
  induction es' generalizing u with
  | nil => exact ⟨u, h, .nil⟩
  | cons e es' ih =>
    cases h with
    | step h hst =>
      obtain ⟨v, hv, hu⟩ := ih h
      exact ⟨v, hv, .step hu hst⟩

theorem Sane.of_steps (h : Sane s) (hs : Steps s es u) : Sane u := by
  induction hs with
  | nil => exact h
  | step _ hst ih => exact ih.step hst

theorem Removed.of_steps (h : Removed t s) (hsane : Sane s) (hs : Steps s es u) (hes : ∀ e ∈ es, ¬ Registers t e) :
    Removed t u := by
  induction hs with
  | nil => exact h
  | step hs hst ih =>
    rw [forall_mem_cons] at hes
    exact (ih hes.2).step (hsane.of_steps hs) hst hes.1

theorem Absent.of_steps (h : Absent t s) (hs : Steps s es u) (hes : ∀ e ∈ es, ¬ Registers t e) :
    Absent t u ∧ ∀ e ∈ es, ¬ Runs t e := by
  induction hs with
  | nil => exact ⟨h, by simp⟩
  | step hs hst ih =>
    rw [forall_mem_cons] at hes ⊢
    obtain ⟨habs, hruns⟩ := ih hes.2
    obtain ⟨habs, hrun⟩ := habs.step hst hes.1
    exact ⟨habs, hrun, hruns⟩

/-- If no registration of a task is waiting for its offset when the task is removed, it does not run in a later pass. -/
theorem removed_stays_removed {n : ℕ} {frame : ℤ} {es₁ es₂ es₃ : List (Event T)} (h : Steps (.new : State T) es₁ s)
    (hst : Step s (.call (.removeTask t) n) u) (hwaits : ¬ Waits t s) (hs : Steps u (es₃ ++ .begin frame :: es₂) v)
    (hes : ∀ e ∈ es₃ ++ .begin frame :: es₂, ¬ Registers t e) : ∀ e ∈ es₃, ¬ Runs t e := by
  have hsane : Sane s := Sane.of_steps ⟨rfl, fun _ => rfl⟩ h
  have hremoved : Removed t u := by
    cases hst with
    | call hs =>
      by_cases hp : s.phase = .idle
      · have hproc : s.isProcessing = false := by rw [hsane.1, hp]; rfl
        left
        simpa [State.call, hproc] using absent_remove hwaits
      · have hproc : s.isProcessing = true := by rw [hsane.1, decide_eq_true hp]
        right
        simp only [State.call, hproc, if_true]
        exact ⟨hp, by simp, hwaits⟩
    | next hs => nomatch next_cases hs
  obtain ⟨w, hw, hv⟩ := hs.split
  rw [forall_mem_append, forall_mem_cons] at hes
  cases hw with
  | step hw hbegin =>
    have habs : Absent t w := by
      refine ((hremoved.of_steps (hsane.step hst) hw hes.2.2).resolve_right fun h => ?_).step hbegin hes.2.1 |>.1
      cases hbegin with
      | begin hs => exact h.1 hs
      | next hs => nomatch next_cases hs
    exact (habs.of_steps hv hes.1).2

/-- A repeat task without an offset, removed before its second pass. -/
theorem removed_stays_removed_one : ¬ Waits 8 (State.new.call (.runTaskEvery 8 1 0)) ∧
      ∀ e ∈ ([.tau, .repeatOver, .onceOver] : List (Event ℕ)), ¬ Runs 8 e := by
  have hwaits : ¬ Waits 8 (State.new.call (.runTaskEvery 8 1 0)) := by
    simp [Waits, State.call, State.pushRepeat, State.new]
  have hrun : ∃ u v, Step (State.new.call (.runTaskEvery 8 1 0)) (.call (.removeTask 8) 1) u ∧
      Steps u ([.tau, .repeatOver, .onceOver] ++ [.begin 5]) v :=
    ⟨_, _, .call rfl, .step (.step (.step (.step .nil (.begin rfl)) (.next rfl)) (.next rfl)) (.next rfl)⟩
  obtain ⟨u, v, hst, hs⟩ := hrun
  exact ⟨hwaits, removed_stays_removed (.step .nil (.call rfl)) hst hwaits hs (by simp [Registers])⟩

theorem offset_task_runs_after_removal :
    ∃ s u v : State ℕ, Steps .new [.call (.runTaskEvery 8 1 5) 0] s ∧ Step s (.call (.removeTask 8) 1) u ∧
      Steps u [.repeatRun 1 8, .onceOver, .begin 6, .tau, .repeatOver, .tau, .onceOver, .wrapped 1 8 1,
        .onceRun 0 (.wrapper 8 1), .begin 5] v ∧ Waits 8 s := by
  refine ⟨_, _, _, .step .nil (.call rfl), .call rfl, .step (.step (.step (.step (.step (.step (.step (.step (.step
    (.step .nil (.begin rfl)) (.next rfl)) (.next rfl)) (.next rfl)) (.next rfl)) (.next rfl)) (.next rfl))
    (.begin rfl)) (.next rfl)) (.next rfl), ?_⟩
  exact ⟨_, mem_singleton_self _, 1, rfl⟩

end Circuit.Spec.GameTasks
