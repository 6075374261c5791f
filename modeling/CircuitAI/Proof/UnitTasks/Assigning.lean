import CircuitAI.Proof.UnitTasks.Contracts

/-!
# `AssignTask` and `FallbackTask`

Both take a unit off its task, by `RemoveAssignee` or by stopping the task, and give it another one, which is then
started. Only the start of a wait or a retreat is known to do nothing more.
-/

set_option linter.unusedSectionVars false

namespace Circuit.Spec.TaskRuns

open Framework Impl.UnitTasks

variable {U ρ : Type} [DecidableEq U] {g : Game U ρ} {s s' s'' : State U ρ} {t t₀ : ℕ} {u : U}
  {call : Proc U → M U ρ Unit}

/-! ## `AssignTask` -/

structure Assignable (s : State U ρ) (t₀ t : ℕ) (u : U) : Prop where
  retreat₀ : s.kind t₀ ≠ .retreat
  ne : t ≠ t₀
  lt : t < s.nextTask
  live : s.isDead t = false
  kind : s.kind t ≠ .nil ∧ s.kind t ≠ .idle
  manager : s.manager t = s.manager t₀
  retreat : s.kind t = .retreat → s.units t = ∅

structure Parked (g : Game U ρ) (s s' : State U ρ) (t₀ t : ℕ) (u : U) : Prop where
  balanced : Balanced g s' t₀
  units : s.kind t₀ ≠ .builder .patrol → s'.units t₀ = (s.units t₀).erase u
  live : s'.isDead t = false
  shrinks : ∀ k < s.nextTask, k ≠ t → s.kind k ≠ .idle → s'.units k ⊆ s.units k

theorem Startable.removable (h : Startable g s t u) (hk : s.kind t ≠ .idle) : Removable g s t u where
  inv := h.inv
  mem := h.mem
  kind := hk
  live _ := h.live
  balanced := h.inv.wf.books.balanced t h.live

theorem Choosable.assignable (h : Choosable s t) (hk : s.kind t₀ ≠ .retreat) (hm : s.manager t₀ = .builder)
    (hne : t ≠ t₀) : Assignable s t₀ t u where
  retreat₀ := hk
  ne := hne
  lt := h.lt
  live := h.live
  kind := ⟨h.kind.1, h.kind.2.1⟩
  manager := h.manager.trans hm.symm
  retreat hk' := absurd hk' h.kind.2.2

theorem Assignable.joinable (ha : Assignable s t₀ t u) (h : Removable g s t₀ u) (hr : Removed g s s' t₀ u) :
    Joinable s' t u where
  lt := ha.lt.trans_le hr.frame.next
  live := by rw [hr.isDead ha.retreat₀ t ha.ne, ha.live]
  kind := by rw [hr.frame.kind ha.lt]; exact ha.kind
  task := by rw [hr.task, hr.frame.manager ha.lt, ha.manager]
  worker hm := by
    rw [hr.frame.manager ha.lt, ha.manager] at hm
    rw [hr.frame.workers]
    exact h.inv.wf.assigned.worker t₀ u h.mem hm
  retreat hk := by
    rw [hr.frame.kind ha.lt] at hk
    exact Finset.subset_empty.mp (ha.retreat hk ▸ hr.shrinks t ha.lt ha.kind.2)

theorem Parked.of_assignedTo (ha : Assignable s t₀ t u) (h : Removable g s t₀ u) (hr : Removed g s s' t₀ u)
    (hj : AssignedTo g s' s'' t u) : Parked g s s'' t₀ t u := by
  have hlt : t₀ < s.nextTask := h.inv.lt_of_mem h.mem
  have hother : ∀ k < s.nextTask, k ≠ t → s.kind k ≠ .idle → s''.units k = s'.units k ∧
      s''.buildPower k = s'.buildPower k ∧ s''.isDead k = s'.isDead k := fun k hk hkt hkind =>
    hj.other k (hk.trans_le hr.frame.next) hkt (by rw [hr.frame.kind hk]; exact hkind)
  obtain ⟨hu, hp, -⟩ := hother t₀ hlt ha.ne.symm h.kind
  refine ⟨hr.balanced.congr hj.frame.toCore (hlt.trans_le hr.frame.next) hu hp, fun hk => ?_, hj.live,
    fun k hk hkt hkind => ?_⟩
  · rw [hu, hr.units hk]
  · rw [(hother k hk hkt hkind).1]
    exact hr.shrinks k hk hkind

theorem assignTask_spec (hc : Contract g call) (h : Removable g s t₀ u) (ha : Assignable s t₀ t u) :
    Ensures (assignTask g call u t) s fun _ s' => Inv g s' ∧ Frame g s s' ∧
      (s.kind t = .wait ∨ s.kind t = .retreat → Parked g s s' t₀ t u) := by
  refine .read_seq ?_
  rw [h.inv.wf.assigned.pointer t₀ u h.mem]
  refine .seq (hc (.removeAssignee t₀ u) s h) fun _ s₁ hr => ?_
  refine .seq (assignTo_spec hr.inv (ha.joinable h hr)) fun _ s₂ hj => ?_
  refine (hc (.start t u) s₂ ⟨hj.inv, hj.mem, hj.live⟩).mono fun _ s₃ hst => ?_
  refine ⟨hst.inv, (hr.frame.trans hj.frame).trans hst.frame, fun hk => ?_⟩
  rw [← (hr.frame.trans hj.frame).kind ha.lt] at hk
  rw [hst.same hk]
  exact .of_assignedTo ha h hr hj

/-! ## `FallbackTask` -/

theorem fallbackTask_spec (hc : Contract g call) (htask : s.task u = some t₀) (hst : Stoppable g s t₀)
    (hm : s.manager t₀ = .builder) (hu : u ∈ s.workers) :
    Ensures (fallbackTask g call u) s fun _ s' => Inv g s' ∧ Frame g s s' ∧ s'.isDead t₀ = true := by
  refine .read_seq ?_
  rw [htask]
  refine .seq (hc (.dequeueTask t₀ false) s hst) fun _ s₁ h₁ => ?_
  refine .seq (newTask_unlisted (by decide) (.inl rfl) rfl) fun t s₂ h₂ => ?_
  have hidle : s₂.task u = some (idleTask .builder) := by
    rw [h₂.grown.task, h₁.released rfl u htask, hm]
  have hj : Joinable s₂ t u := by
    refine ⟨h₂.lt, h₂.new.isDead, h₂.new.kind, ?_, fun _ => ?_, fun _ => h₂.new.units⟩
    · rw [hidle, State.manager, h₂.tasks]
    · rwa [h₂.grown.workers, h₁.frame.workers]
  refine .seq (assignTo_spec (h₂.grown.inv h₁.inv) hj) fun _ s₃ h₃ => ?_
  refine (hc (.start t u) s₃ ⟨h₃.inv, h₃.mem, h₃.live⟩).mono fun _ s₄ h₄ => ?_
  have hf : Frame g s₁ s₄ := ((h₂.grown.frame h₁.inv.wf.assigned).trans h₃.frame).trans h₄.frame
  exact ⟨h₄.inv, h₁.frame.trans hf, hf.dead t₀ (hst.lt.trans_le h₁.frame.next) h₁.isDead⟩

end Circuit.Spec.TaskRuns
