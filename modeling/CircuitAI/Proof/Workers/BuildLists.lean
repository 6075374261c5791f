import CircuitAI.Proof.Workers.Registry

/-!
# Build counts

The build count of a definition is meant to be the number of staffed definitions that can build it (`Listed`).
`AddBuildList` and `RemoveBuildList` change it when the definition of the worker has no other registered unit, finished
or not. That is the right moment if every other registered unit is finished (`Listed.finished`, `Listed.lost`), so that
the counts are right in every run whose events are `Paired` (`buildCounts_run`). Two nanoframes of one definition break
them (`buildCounts_negative`).
-/

set_option linter.unusedSectionVars false

namespace Circuit.Spec.WorkerCensus

open Impl.Workers Impl.Workers.State Finset

variable {U D A : Type*} [DecidableEq U] [DecidableEq D] [DecidableEq A] {g : Game U D} {s t : State U D A} {u : U}
  {area : Option A}

structure Listed (g : Game U D) (s : State U D A) : Prop where
  buildCounts_eq : ∀ d, s.buildCounts d = ((builders g s d).card : ℤ)
  mem_energyDefs : ∀ d, d ∈ s.energyDefs ↔ 0 < s.buildCounts d

namespace Listed

theorem init : Listed g (State.init : State U D A) :=
  ⟨fun _ => rfl, fun _ => by simp [State.init]⟩

theorem congr (h : Listed g s) (hstaffed : staffed g t = staffed g s) (hcounts : t.buildCounts = s.buildCounts)
    (henergy : t.energyDefs = s.energyDefs) : Listed g t := by
  refine ⟨fun d => ?_, fun d => ?_⟩
  · rw [hcounts, h.buildCounts_eq, builders, builders, hstaffed]
  · rw [hcounts, henergy, h.mem_energyDefs]

theorem quiet (h : Listed g s) (ht : Quiet g s t) : Listed g t := by
  refine h.congr ?_ ht.buildCounts ht.energyDefs
  rw [staffed, staffed, ht.finishedWorkers]

theorem nonneg (h : Listed g s) (d : D) : 0 ≤ s.buildCounts d := by
  rw [h.buildCounts_eq]
  exact Int.natCast_nonneg _

theorem staff (h : Listed g s) {w : D} (hw : w ∉ staffed g s) (hstaffed : staffed g t = insert w (staffed g s))
    (hcounts : ∀ d, t.buildCounts d = if d ∈ g.buildOptions w then s.buildCounts d + 1 else s.buildCounts d)
    (henergy : t.energyDefs = s.energyDefs ∪ {d ∈ g.buildOptions w | s.buildCounts d = 0}) : Listed g t := by
  refine ⟨fun d => ?_, fun d => ?_⟩
  · rw [hcounts, h.buildCounts_eq, builders, builders, hstaffed, filter_insert]
    simp only [Game.canBuild, decide_eq_true_eq]
    split
    · rw [card_insert_of_notMem (by simp [hw])]
      push_cast
      rfl
    · rfl
  · have hnonneg := h.nonneg d
    simp only [hcounts, henergy, mem_union, mem_filter, h.mem_energyDefs]
    split <;> grind

theorem unstaff (h : Listed g s) {w : D} (hw : w ∈ staffed g s) (hstaffed : staffed g t = (staffed g s).erase w)
    (hcounts : ∀ d, t.buildCounts d = if d ∈ g.buildOptions w then s.buildCounts d - 1 else s.buildCounts d)
    (henergy : t.energyDefs = s.energyDefs \ {d ∈ g.buildOptions w | s.buildCounts d - 1 = 0}) : Listed g t := by
  refine ⟨fun d => ?_, fun d => ?_⟩
  · rw [hcounts, h.buildCounts_eq, builders, builders, hstaffed, filter_erase]
    split
    · next hd =>
      have hmem : w ∈ ({w ∈ staffed g s | g.canBuild w d} : Finset D) := by simp [hw, Game.canBuild, hd]
      have hcard := card_erase_add_one hmem
      omega
    · next hd =>
      rw [erase_eq_of_notMem (by simp [Game.canBuild, hd])]
  · simp only [hcounts, henergy, mem_sdiff, mem_filter, h.mem_energyDefs]
    split <;> grind

theorem finished (h : Listed g s) (hs : Counted g s) (hworker : g.isWorker u = true) (hu : u ∉ finishedWorkers g s)
    (hpeers : PeersFinished g s u) : Listed g ((s.getOrRegTeamUnit g u area).workerFinishedHandler g u) := by
  have hreg : Listed g (s.getOrRegTeamUnit g u area) := h.quiet .getOrRegTeamUnit
  have hmem : u ∈ (s.getOrRegTeamUnit g u area).teamUnits := mem_getOrRegTeamUnit.mpr (.inl rfl)
  have hstaffed : staffed g ((s.getOrRegTeamUnit g u area).workerFinishedHandler g u) =
      insert (g.circuitDef u) (staffed g (s.getOrRegTeamUnit g u area)) := by
    rw [staffed, finishedWorkers_finished hmem hworker, image_insert]
    rfl
  have hcount : (s.getOrRegTeamUnit g u area).count (g.circuitDef u) > 1 ↔
      ∃ v ∈ s.teamUnits, v ≠ u ∧ g.circuitDef v = g.circuitDef u := by
    rw [hs.getOrRegTeamUnit.one_lt_count hmem]
    simp only [mem_getOrRegTeamUnit]
    grind
  by_cases hother : ∃ v ∈ s.teamUnits, v ≠ u ∧ g.circuitDef v = g.circuitDef u
  · -- the definition is staffed already, and nothing is added
    obtain ⟨v, hv, _, hd⟩ := hpeers hother
    have hin : g.circuitDef u ∈ staffed g (s.getOrRegTeamUnit g u area) := by
      rw [mem_staffed, finishedWorkers_getOrRegTeamUnit]
      exact ⟨v, hv, hd⟩
    refine hreg.congr (hstaffed.trans (insert_eq_of_mem hin)) ?_ ?_ <;>
      simp only [workerFinishedHandler, addBuildList, if_pos (hcount.mpr hother)]
  · have hout : g.circuitDef u ∉ staffed g (s.getOrRegTeamUnit g u area) := by
      rw [mem_staffed, finishedWorkers_getOrRegTeamUnit]
      rintro ⟨v, hv, hd⟩
      exact hother ⟨v, (mem_finishedWorkers.mp hv).1, fun heq => hu (heq ▸ hv), hd⟩
    refine hreg.staff hout hstaffed (fun d => ?_) ?_ <;>
      simp only [workerFinishedHandler, addBuildList, if_neg fun hc => hother (hcount.mp hc)]

theorem lost (h : Listed g s) (hs : Counted g s) (hu : u ∈ finishedWorkers g s) (hpeers : PeersFinished g s u) :
    Listed g (lost g s u) := by
  have hmem := (mem_finishedWorkers.mp hu).1
  have hcount := hs.one_lt_count hmem
  by_cases hother : ∃ v ∈ s.teamUnits, v ≠ u ∧ g.circuitDef v = g.circuitDef u
  · -- another finished worker keeps the definition staffed
    obtain ⟨v, hv, hne, hd⟩ := hpeers hother
    have hstaffed : staffed g (WorkerCensus.lost g s u) = staffed g s := by
      ext d
      simp only [mem_staffed, finishedWorkers_lost hs, mem_erase]
      grind
    refine h.congr hstaffed ?_ ?_ <;>
      simp only [WorkerCensus.lost, unregisterTeamUnit, removeBuildList, if_pos (hcount.mpr hother)]
  · have hstaffed : staffed g (WorkerCensus.lost g s u) = (staffed g s).erase (g.circuitDef u) := by
      ext d
      simp only [mem_staffed, finishedWorkers_lost hs, mem_erase]
      constructor
      · rintro ⟨v, ⟨hne, hv⟩, rfl⟩
        exact ⟨fun hd => hother ⟨v, (mem_finishedWorkers.mp hv).1, hne, hd⟩, v, hv, rfl⟩
      · rintro ⟨hne, v, hv, rfl⟩
        exact ⟨v, ⟨fun heq => hne (heq ▸ rfl), hv⟩, rfl⟩
    refine h.unstaff (mem_staffed.mpr ⟨u, hu, rfl⟩) hstaffed (fun d => ?_) ?_ <;>
      simp only [WorkerCensus.lost, unregisterTeamUnit, removeBuildList, if_neg fun hc => hother (hcount.mp hc)]

theorem updateAreaUsers (h : Listed g s) (area : U → Option A) : Listed g (s.updateAreaUsers g area) :=
  h.congr rfl rfl rfl

end Listed

theorem Run.listed (h : Run g (Paired g) s) : Listed g s := by
  induction h with
  | init => exact .init
  | step e hs honce hok ht ih =>
    rcases handle_cases hs.counts ht with hquiet | ⟨u, area, rfl, hworker, rfl⟩ | ⟨u, rfl, hu, rfl⟩ | ⟨area, rfl, rfl⟩
    · exact ih.quiet hquiet
    · exact ih.finished hs.counts hworker (honce rfl) (hok hworker rfl)
    · exact ih.lost hs.counts hu (hok hu)
    · exact ih.updateAreaUsers area

/-- In every run of paired events the build count of a definition is the number of worker definitions with a finished
live worker that can build it, and the economy manager knows the definitions with a positive count. -/
theorem buildCounts_run (h : Run g (Paired g) s) :
    (∀ d, s.buildCounts d = ((builders g s d).card : ℤ) ∧ 0 ≤ s.buildCounts d) ∧
      ∀ d, d ∈ s.energyDefs ↔ 0 < s.buildCounts d :=
  ⟨fun d => ⟨h.listed.buildCounts_eq d, h.listed.nonneg d⟩, h.listed.mem_energyDefs⟩

/-! ## Two nanoframes -/

/-- A worker finishes, a second one finishes beside it, and the first one is destroyed. -/
theorem buildCounts_run_second : ∃ s : State ℕ ℕ ℕ, Run oneWorkerDef (Paired oneWorkerDef) s ∧
    finishedWorkers oneWorkerDef s = {1} ∧ s.buildCounts 1 = ((builders oneWorkerDef s 1).card : ℤ) ∧
    s.buildCounts 1 = 1 ∧ 1 ∈ s.energyDefs := by
  have hcreated : Run oneWorkerDef (Paired oneWorkerDef)
      ((State.init.getOrRegTeamUnit oneWorkerDef 0 none).workerCreatedHandler 0 : State ℕ ℕ ℕ) :=
    .step (.unitCreated 0 none) .init trivial trivial rfl
  have hfinished := Run.step (.unitFinished 0 none false) hcreated (fun _ => by decide)
    (fun _ _ hother => absurd hother (by decide)) rfl
  have hcreated' := Run.step (.unitCreated 1 none) hfinished trivial trivial rfl
  have hfinished' := Run.step (.unitFinished 1 none false) hcreated' (fun _ => by decide)
    (fun _ _ _ => ⟨0, by decide, by decide, rfl⟩) rfl
  have hrun := Run.step (.unitDestroyed 0) hfinished' trivial (fun _ _ => ⟨1, by decide, by decide, rfl⟩) rfl
  obtain ⟨hcounts, henergy⟩ := buildCounts_run hrun
  exact ⟨_, hrun, by decide, (hcounts 1).1, rfl, (henergy 1).2 (by decide)⟩

/-- Two nanoframes of one definition are created, both finish and both are destroyed: nothing was added at either
finish, and one is taken away at the last destruction. -/
theorem buildCounts_negative : ∃ s : State ℕ ℕ ℕ, Run oneWorkerDef (fun _ _ => True) s ∧ s.buildCounts 1 = -1 := by
  refine ⟨_, .step (.unitDestroyed 1) (.step (.unitDestroyed 0) (.step (.unitFinished 1 none false)
    (.step (.unitFinished 0 none false) (.step (.unitCreated 1 none) (.step (.unitCreated 0 none) .init
      trivial trivial rfl) trivial trivial rfl) ?_ trivial rfl) ?_ trivial rfl) trivial trivial rfl)
        trivial trivial rfl, rfl⟩ <;>
    intro _ <;> decide

end Circuit.Spec.WorkerCensus
