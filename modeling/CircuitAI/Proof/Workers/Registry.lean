import CircuitAI.Spec.WorkerCensus

/-!
# Registered and finished workers

How the functions of `Impl.Workers` change the set of finished live workers: a worker enters it when its finished
handler runs (`finishedWorkers_finished`) and leaves it when it is unregistered (`finishedWorkers_unregister`).
`Counted` says that `GetCount` is the number of registered units of a definition; it holds in every run
(`Run.counts`), and lets the test on the count be read as one for another registered unit (`one_lt_count`).
-/

set_option linter.unusedSectionVars false

namespace Circuit.Spec.WorkerCensus

open Impl.Workers Impl.Workers.State Function Option List

variable {U D A : Type*} [DecidableEq U] [DecidableEq D] [DecidableEq A] {g : Game U D} {s t : State U D A} {u v : U}
  {area : Option A} {d : D}

theorem mem_finishedWorkers :
    u ∈ finishedWorkers g s ↔ u ∈ s.teamUnits ∧ g.isWorker u = true ∧ s.task u = .assigned := by
  simp [finishedWorkers]

theorem mem_members {a : Option A} :
    u ∈ members g s a d ↔ u ∈ finishedWorkers g s ∧ s.area u = a ∧ g.circuitDef u = d := by
  simp [members]

theorem mem_staffed : d ∈ staffed g s ↔ ∃ u ∈ finishedWorkers g s, g.circuitDef u = d := by
  simp [staffed]

theorem finishedWorkers_congr (hunits : t.teamUnits = s.teamUnits) (htask : t.task = s.task) :
    finishedWorkers g t = finishedWorkers g s := by
  rw [finishedWorkers, finishedWorkers, hunits, htask]

/-! ## Build lists -/

structure SameUnits (s t : State U D A) : Prop where
  teamUnits : t.teamUnits = s.teamUnits
  task : t.task = s.task
  area : t.area = s.area
  count : t.count = s.count
  buildAreas : t.buildAreas = s.buildAreas

theorem sameUnits_addBuildList : SameUnits s (s.addBuildList g u) := by
  simp only [addBuildList]
  split <;> exact ⟨rfl, rfl, rfl, rfl, rfl⟩

theorem sameUnits_removeBuildList : SameUnits s (s.removeBuildList g u) := by
  simp only [removeBuildList]
  split <;> exact ⟨rfl, rfl, rfl, rfl, rfl⟩

/-! ## Registration -/

theorem mem_getOrRegTeamUnit : v ∈ (s.getOrRegTeamUnit g u area).teamUnits ↔ v = u ∨ v ∈ s.teamUnits := by
  unfold getOrRegTeamUnit registerTeamUnit
  split <;> grind

theorem task_getOrRegTeamUnit (hv : v ∈ s.teamUnits) : (s.getOrRegTeamUnit g u area).task v = s.task v := by
  unfold getOrRegTeamUnit registerTeamUnit
  split
  · rfl
  · have hne : v ≠ u := by grind
    exact update_of_ne hne _ _

theorem area_getOrRegTeamUnit (hv : v ∈ s.teamUnits) : (s.getOrRegTeamUnit g u area).area v = s.area v := by
  unfold getOrRegTeamUnit registerTeamUnit
  split
  · rfl
  · have hne : v ≠ u := by grind
    exact update_of_ne hne _ _

theorem buildAreas_getOrRegTeamUnit : (s.getOrRegTeamUnit g u area).buildAreas = s.buildAreas := by
  unfold getOrRegTeamUnit
  split <;> rfl

theorem buildCounts_getOrRegTeamUnit : (s.getOrRegTeamUnit g u area).buildCounts = s.buildCounts := by
  unfold getOrRegTeamUnit
  split <;> rfl

theorem energyDefs_getOrRegTeamUnit : (s.getOrRegTeamUnit g u area).energyDefs = s.energyDefs := by
  unfold getOrRegTeamUnit
  split <;> rfl

theorem task_getOrRegTeamUnit_of_notMem (hu : u ∉ s.teamUnits) : (s.getOrRegTeamUnit g u area).task u = .null := by
  simp [getOrRegTeamUnit, registerTeamUnit, hu]

theorem finishedWorkers_getOrRegTeamUnit : finishedWorkers g (s.getOrRegTeamUnit g u area) = finishedWorkers g s := by
  ext v
  rw [mem_finishedWorkers, mem_finishedWorkers, mem_getOrRegTeamUnit]
  by_cases hv : v ∈ s.teamUnits
  · simp [hv, task_getOrRegTeamUnit hv]
  · simp only [hv, or_false, false_and, iff_false, not_and]
    rintro rfl _
    simp [task_getOrRegTeamUnit_of_notMem hv]

theorem members_getOrRegTeamUnit {a : Option A} : members g (s.getOrRegTeamUnit g u area) a d = members g s a d := by
  ext v
  rw [mem_members, mem_members, finishedWorkers_getOrRegTeamUnit]
  refine and_congr_right fun hv => ?_
  rw [area_getOrRegTeamUnit (mem_finishedWorkers.mp hv).1]

/-! ## Handlers -/

theorem finishedWorkers_created : finishedWorkers g (s.workerCreatedHandler u) = finishedWorkers g s := by
  unfold workerCreatedHandler
  split
  · ext v
    rw [mem_finishedWorkers, mem_finishedWorkers]
    by_cases hv : v = u
    · subst hv
      simp_all
    · simp [update_of_ne hv]
  · rfl

theorem finishedWorkers_finished (hu : u ∈ s.teamUnits) (hworker : g.isWorker u = true) :
    finishedWorkers g (s.workerFinishedHandler g u) = insert u (finishedWorkers g s) := by
  ext v
  rw [mem_finishedWorkers, Finset.mem_insert, mem_finishedWorkers, workerFinishedHandler,
    sameUnits_addBuildList.teamUnits, sameUnits_addBuildList.task]
  by_cases hv : v = u
  · subst hv
    simp [hu, hworker]
  · simp [hv]

theorem finishedWorkers_unregister (hnodup : s.teamUnits.Nodup) :
    finishedWorkers g (s.unregisterTeamUnit g u) = (finishedWorkers g s).erase u := by
  ext v
  rw [Finset.mem_erase, mem_finishedWorkers, mem_finishedWorkers, unregisterTeamUnit, hnodup.mem_erase_iff]
  tauto

theorem area_finished : (s.workerFinishedHandler g u).area = s.area := by
  rw [workerFinishedHandler, sameUnits_addBuildList.area]

theorem destroyed_cases (h : s.workerDestroyedHandler g u = some t) :
    (s.task u = .nil ∧ t = s) ∨ (s.task u = .assigned ∧
      t = removeBuildList g { s with buildAreas := s.buildAreas.add (s.area u) (g.circuitDef u) (-1) } u) := by
  unfold workerDestroyedHandler at h
  split at h
  · cases h
  · next htask =>
    cases h
    exact .inl ⟨htask, rfl⟩
  · next htask =>
    cases h
    exact .inr ⟨htask, rfl⟩

theorem teamUnits_destroyed (h : s.workerDestroyedHandler g u = some t) : t.teamUnits = s.teamUnits := by
  rcases destroyed_cases h with ⟨_, rfl⟩ | ⟨_, rfl⟩
  · rfl
  · exact sameUnits_removeBuildList.teamUnits

/-! ## The number of units -/

structure Counted (g : Game U D) (s : State U D A) : Prop where
  nodup : s.teamUnits.Nodup
  count_eq : ∀ d, s.count d = (s.teamUnits.countP (g.circuitDef · = d) : ℕ)

namespace Counted

theorem init : Counted g (State.init : State U D A) := ⟨nodup_nil, fun _ => rfl⟩

theorem one_lt_count (h : Counted g s) (hu : u ∈ s.teamUnits) :
    s.count (g.circuitDef u) > 1 ↔ ∃ v ∈ s.teamUnits, v ≠ u ∧ g.circuitDef v = g.circuitDef u := by
  have herase : s.teamUnits.countP (g.circuitDef · = g.circuitDef u) =
      (s.teamUnits.erase u).countP (g.circuitDef · = g.circuitDef u) + 1 := by
    rw [(perm_cons_erase hu).countP_eq, countP_cons_of_pos (by simp)]
  have hpos : 0 < (s.teamUnits.erase u).countP (g.circuitDef · = g.circuitDef u) ↔
      ∃ v ∈ s.teamUnits, v ≠ u ∧ g.circuitDef v = g.circuitDef u := by
    simp only [countP_pos_iff, h.nodup.mem_erase_iff, decide_eq_true_eq]
    exact ⟨fun ⟨v, hv, hd⟩ => ⟨v, hv.2, hv.1, hd⟩, fun ⟨v, hv, hne, hd⟩ => ⟨v, ⟨hne, hv⟩, hd⟩⟩
  rw [h.count_eq, herase, ← hpos]
  omega

theorem getOrRegTeamUnit (h : Counted g s) : Counted g (s.getOrRegTeamUnit g u area) := by
  unfold State.getOrRegTeamUnit
  split
  · exact h
  · next hu =>
    refine ⟨nodup_cons.mpr ⟨hu, h.nodup⟩, fun d => ?_⟩
    have hd := h.count_eq d
    simp only [registerTeamUnit, countP_cons, update_apply, decide_eq_true_eq]
    split <;> grind

theorem congr (h : Counted g s) (hunits : t.teamUnits = s.teamUnits) (hcount : t.count = s.count) : Counted g t := by
  refine ⟨hunits ▸ h.nodup, fun d => ?_⟩
  rw [hcount, hunits, h.count_eq]

theorem unregisterTeamUnit (h : Counted g s) (hu : u ∈ s.teamUnits) : Counted g (s.unregisterTeamUnit g u) := by
  refine ⟨h.nodup.erase _, fun d => ?_⟩
  have hd := h.count_eq d
  rw [(perm_cons_erase hu).countP_eq, countP_cons] at hd
  simp only [State.unregisterTeamUnit, update_apply]
  split <;> grind

theorem created (h : Counted g s) : Counted g (s.workerCreatedHandler u) := by
  unfold workerCreatedHandler
  split
  · exact h.congr rfl rfl
  · exact h

theorem finished (h : Counted g s) : Counted g (s.workerFinishedHandler g u) :=
  h.congr sameUnits_addBuildList.teamUnits sameUnits_addBuildList.count

theorem destroyed (h : Counted g s) (ht : s.workerDestroyedHandler g u = some t) : Counted g t := by
  rcases destroyed_cases ht with ⟨_, rfl⟩ | ⟨_, rfl⟩
  · exact h
  · exact h.congr sameUnits_removeBuildList.teamUnits sameUnits_removeBuildList.count

theorem handle (h : Counted g s) {e : Event U A} (ht : e.handle g s = some t) : Counted g t := by
  cases e with
  | unitCreated u area =>
    simp only [Event.handle, some.injEq] at ht
    subst ht
    split
    · exact h.getOrRegTeamUnit.created
    · exact h.getOrRegTeamUnit
  | unitFinished u area isBeingBuilt =>
    simp only [Event.handle] at ht
    split at ht
    · cases ht
      exact h.getOrRegTeamUnit
    · cases ht
      split
      · exact h.getOrRegTeamUnit.finished
      · exact h.getOrRegTeamUnit
  | unitDestroyed u =>
    simp only [Event.handle] at ht
    split at ht
    · next hu =>
      obtain ⟨t', ht', rfl⟩ := map_eq_some_iff.mp ht
      split at ht'
      · exact (h.destroyed ht').unregisterTeamUnit (teamUnits_destroyed ht' ▸ hu)
      · cases ht'
        exact h.unregisterTeamUnit hu
    · cases ht
      exact h
  | updateAreaUsers area =>
    cases ht
    exact h.congr rfl rfl

end Counted

theorem Run.counts {ok : State U D A → Event U A → Prop} (h : Run g ok s) : Counted g s := by
  induction h with
  | init => exact .init
  | step e _ _ _ ht ih => exact ih.handle ht

/-! ## The effect of an event -/

structure Quiet (g : Game U D) (s t : State U D A) : Prop where
  finishedWorkers : finishedWorkers g t = finishedWorkers g s
  members : ∀ a d, members g t a d = members g s a d
  buildCounts : t.buildCounts = s.buildCounts
  energyDefs : t.energyDefs = s.energyDefs
  buildAreas : t.buildAreas = s.buildAreas

namespace Quiet

theorem refl : Quiet g s s := ⟨rfl, fun _ _ => rfl, rfl, rfl, rfl⟩

theorem getOrRegTeamUnit : Quiet g s (s.getOrRegTeamUnit g u area) :=
  ⟨finishedWorkers_getOrRegTeamUnit, fun _ _ => members_getOrRegTeamUnit, buildCounts_getOrRegTeamUnit,
    energyDefs_getOrRegTeamUnit, buildAreas_getOrRegTeamUnit⟩

theorem created : Quiet g s (s.workerCreatedHandler u) := by
  have harea : (s.workerCreatedHandler u).area = s.area := by
    unfold workerCreatedHandler
    split <;> rfl
  refine ⟨finishedWorkers_created, fun a d => ?_, ?_, ?_, ?_⟩
  · rw [WorkerCensus.members, WorkerCensus.members, finishedWorkers_created, harea]
  all_goals
    unfold workerCreatedHandler
    split <;> rfl

theorem unregisterTeamUnit (hnodup : s.teamUnits.Nodup) (hu : u ∉ WorkerCensus.finishedWorkers g s) :
    Quiet g s (s.unregisterTeamUnit g u) := by
  have hfin : WorkerCensus.finishedWorkers g (s.unregisterTeamUnit g u) = WorkerCensus.finishedWorkers g s := by
    rw [finishedWorkers_unregister hnodup, Finset.erase_eq_of_notMem hu]
  refine ⟨hfin, fun a d => ?_, rfl, rfl, rfl⟩
  rw [WorkerCensus.members, WorkerCensus.members, hfin]
  rfl

theorem trans {r : State U D A} (h₁ : Quiet g s t) (h₂ : Quiet g t r) : Quiet g s r :=
  ⟨h₂.finishedWorkers.trans h₁.finishedWorkers, fun a d => (h₂.members a d).trans (h₁.members a d),
    h₂.buildCounts.trans h₁.buildCounts, h₂.energyDefs.trans h₁.energyDefs, h₂.buildAreas.trans h₁.buildAreas⟩

end Quiet

def lost (g : Game U D) (s : State U D A) (u : U) : State U D A :=
  (removeBuildList g { s with buildAreas := s.buildAreas.add (s.area u) (g.circuitDef u) (-1) } u).unregisterTeamUnit g u

theorem handle_cases (hs : Counted g s) {e : Event U A} (ht : e.handle g s = some t) : Quiet g s t ∨
    (∃ u area, e = .unitFinished u area false ∧ g.isWorker u = true ∧
      t = (s.getOrRegTeamUnit g u area).workerFinishedHandler g u) ∨
    (∃ u, e = .unitDestroyed u ∧ u ∈ finishedWorkers g s ∧ t = lost g s u) ∨
    ∃ area, e = .updateAreaUsers area ∧ t = s.updateAreaUsers g area := by
  cases e with
  | unitCreated u area =>
    simp only [Event.handle, some.injEq] at ht
    subst ht
    refine .inl ?_
    split
    · exact Quiet.getOrRegTeamUnit.trans .created
    · exact .getOrRegTeamUnit
  | unitFinished u area isBeingBuilt =>
    cases isBeingBuilt with
    | true =>
      cases ht
      exact .inl .getOrRegTeamUnit
    | false =>
      simp only [Event.handle, Bool.false_eq_true, if_false, some.injEq] at ht
      subst ht
      split
      · next hworker => exact .inr (.inl ⟨u, area, rfl, hworker, rfl⟩)
      · exact .inl .getOrRegTeamUnit
  | unitDestroyed u =>
    simp only [Event.handle] at ht
    split at ht
    · next hu =>
      obtain ⟨t', ht', rfl⟩ := map_eq_some_iff.mp ht
      split at ht'
      · next hworker =>
        rcases destroyed_cases ht' with ⟨htask, rfl⟩ | ⟨htask, rfl⟩
        · refine .inl (.unregisterTeamUnit hs.nodup ?_)
          simp [mem_finishedWorkers, htask]
        · exact .inr (.inr (.inl ⟨u, rfl, mem_finishedWorkers.mpr ⟨hu, hworker, htask⟩, rfl⟩))
      · next hworker =>
        cases ht'
        refine .inl (.unregisterTeamUnit hs.nodup ?_)
        simp [mem_finishedWorkers, hworker]
    · cases ht
      exact .inl .refl
  | updateAreaUsers area =>
    cases ht
    exact .inr (.inr (.inr ⟨area, rfl, rfl⟩))

theorem finishedWorkers_lost (hs : Counted g s) : finishedWorkers g (lost g s u) = (finishedWorkers g s).erase u := by
  rw [lost, finishedWorkers_unregister (by rw [sameUnits_removeBuildList.teamUnits]; exact hs.nodup),
    finishedWorkers_congr sameUnits_removeBuildList.teamUnits sameUnits_removeBuildList.task]
  rfl

theorem area_lost : (lost g s u).area = s.area := by
  rw [lost, unregisterTeamUnit, sameUnits_removeBuildList.area]

end Circuit.Spec.WorkerCensus
