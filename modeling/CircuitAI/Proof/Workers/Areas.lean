import CircuitAI.Proof.Workers.Registry

/-!
# The workers of each area

`Census` says that `buildAreas` counts the finished live workers of each area and definition. The handlers keep it
(`Census.finished`, `Census.lost`); `UpdateAreaUsers` counts all units of a worker definition
(`count_updateAreaUsers`), nanoframes included, and keeps it exactly when there are none. With it, `IsBuilderInArea`
answers whether a finished live worker can build the definition and reach the position (`isBuilderInArea_iff`).
-/

set_option linter.unusedSectionVars false

namespace Circuit.Spec.WorkerCensus

open Impl.Workers Impl.Workers.State Finset List

variable {U D A P : Type*} [DecidableEq U] [DecidableEq D] [DecidableEq A] {g : Game U D} {s t : State U D A} {u : U}
  {a : Option A} {d : D} {area : Option A}

structure Census (g : Game U D) (s : State U D A) : Prop where
  count_eq : ∀ a d, s.buildAreas.count a d = ((members g s a d).card : ℤ)
  mem_keys : ∀ a d, (members g s a d).Nonempty → (a, d) ∈ s.buildAreas.keys

theorem mem_keys_add {b : BuildAreas D A} {n : ℤ} {k : Option A × D} :
    k ∈ (b.add a d n).keys ↔ k = (a, d) ∨ k ∈ b.keys := by
  simp [BuildAreas.add]

namespace Census

theorem init : Census g (State.init : State U D A) :=
  ⟨fun _ _ => rfl, fun _ _ h => absurd h (by simp [members, finishedWorkers, State.init])⟩

theorem quiet (h : Census g s) (ht : Quiet g s t) : Census g t := by
  refine ⟨fun a d => ?_, fun a d hne => ?_⟩
  · rw [ht.buildAreas, ht.members, h.count_eq]
  · rw [ht.members] at hne
    rw [ht.buildAreas]
    exact h.mem_keys a d hne

theorem join (h : Census g s) (hu : u ∉ finishedWorkers g s) (harea : t.area = s.area)
    (hworkers : finishedWorkers g t = insert u (finishedWorkers g s))
    (hareas : t.buildAreas = s.buildAreas.add (s.area u) (g.circuitDef u) 1) : Census g t := by
  have hmembers : ∀ a d, members g t a d =
      if a = s.area u ∧ d = g.circuitDef u then insert u (members g s a d) else members g s a d := by
    intro a d
    ext v
    rw [mem_members, hworkers, harea]
    split <;> simp only [mem_insert, mem_members] <;> grind
  refine ⟨fun a d => ?_, fun a d hne => ?_⟩
  · rw [hmembers, hareas]
    simp only [BuildAreas.add]
    split
    · next hkey =>
      rw [card_insert_of_notMem fun hmem => hu (mem_members.mp hmem).1, hkey.1, hkey.2, h.count_eq]
      push_cast
      rfl
    · exact h.count_eq a d
  · rw [hareas, mem_keys_add]
    rw [hmembers] at hne
    split at hne
    · next hkey => exact .inl (Prod.ext hkey.1 hkey.2)
    · exact .inr (h.mem_keys a d hne)

theorem leave (h : Census g s) (hu : u ∈ finishedWorkers g s) (harea : t.area = s.area)
    (hworkers : finishedWorkers g t = (finishedWorkers g s).erase u)
    (hareas : t.buildAreas = s.buildAreas.add (s.area u) (g.circuitDef u) (-1)) : Census g t := by
  have hmembers : ∀ a d, members g t a d = (members g s a d).erase u := by
    intro a d
    ext v
    rw [mem_members, hworkers, harea, mem_erase, mem_erase, mem_members, and_assoc]
  refine ⟨fun a d => ?_, fun a d hne => ?_⟩
  · rw [hmembers, hareas]
    simp only [BuildAreas.add]
    split
    · next hkey =>
      have hmem : u ∈ members g s a d := mem_members.mpr ⟨hu, hkey.1.symm, hkey.2.symm⟩
      have hcard := card_erase_add_one hmem
      rw [← hkey.1, ← hkey.2, h.count_eq]
      omega
    · next hkey =>
      have hmem : u ∉ members g s a d := fun hmem => hkey ⟨(mem_members.mp hmem).2.1.symm, (mem_members.mp hmem).2.2.symm⟩
      rw [erase_eq_of_notMem hmem, h.count_eq]
  · rw [hareas, mem_keys_add]
    rw [hmembers] at hne
    exact .inr (h.mem_keys a d (hne.mono (erase_subset _ _)))

theorem finished (h : Census g s) (hworker : g.isWorker u = true) (hu : u ∉ finishedWorkers g s) :
    Census g ((s.getOrRegTeamUnit g u area).workerFinishedHandler g u) := by
  have hreg : Census g (s.getOrRegTeamUnit g u area) := h.quiet .getOrRegTeamUnit
  refine hreg.join (u := u) ?_ area_finished ?_ sameUnits_addBuildList.buildAreas
  · rwa [finishedWorkers_getOrRegTeamUnit]
  · exact finishedWorkers_finished (mem_getOrRegTeamUnit.mpr (.inl rfl)) hworker

theorem lost (h : Census g s) (hs : Counted g s) (hu : u ∈ finishedWorkers g s) : Census g (lost g s u) := by
  refine h.leave hu area_lost (finishedWorkers_lost hs) ?_
  rw [WorkerCensus.lost, unregisterTeamUnit, sameUnits_removeBuildList.buildAreas]

end Census

/-! ## Area updates -/

theorem count_foldl_countUser (us : List U) (b : BuildAreas D A) : (us.foldl (countUser g s) b).count a d =
      b.count a d + (us.countP fun u => g.isWorker u ∧ s.area u = a ∧ g.circuitDef u = d : ℕ) := by
  induction us generalizing b with
  | nil => simp
  | cons u us ih =>
    rw [foldl_cons, ih, countP_cons, countUser]
    by_cases hworker : g.isWorker u = true
    · simp only [hworker, if_true, BuildAreas.add, decide_eq_true_eq, true_and]
      by_cases hkey : a = s.area u ∧ d = g.circuitDef u
      · obtain ⟨rfl, rfl⟩ := hkey
        simp only [and_self, if_true]
        omega
      · rw [if_neg hkey, if_neg fun h => hkey ⟨h.1.symm, h.2.symm⟩]
        simp
    · simp [hworker]

theorem mem_keys_foldl_countUser {k : Option A × D} (us : List U) (b : BuildAreas D A) :
    k ∈ (us.foldl (countUser g s) b).keys ↔
      k ∈ b.keys ∨ ∃ u ∈ us, g.isWorker u = true ∧ k = (s.area u, g.circuitDef u) := by
  induction us generalizing b with
  | nil => simp
  | cons u us ih =>
    rw [foldl_cons, ih, countUser]
    split
    · rw [mem_keys_add]
      grind
    · grind

theorem Census.updateAreaUsers (hs : Counted g s) (hsettled : ∀ u ∈ s.teamUnits, g.isWorker u = true →
    u ∈ finishedWorkers g s) (area : U → Option A) : Census g (s.updateAreaUsers g area) := by
  have hfinished : finishedWorkers g (s.updateAreaUsers g area) = finishedWorkers g s := rfl
  refine ⟨fun a d => ?_, fun a d hne => ?_⟩
  · have hmembers : members g (s.updateAreaUsers g area) a d =
        (s.teamUnits.filter fun u => g.isWorker u ∧ (s.updateAreaUsers g area).area u = a ∧
          g.circuitDef u = d).toFinset := by
      ext u
      rw [mem_members, hfinished, mem_toFinset, mem_filter, decide_eq_true_eq]
      constructor
      · rintro ⟨hu, hrest⟩
        exact ⟨(mem_finishedWorkers.mp hu).1, (mem_finishedWorkers.mp hu).2.1, hrest⟩
      · rintro ⟨hu, hworker, hrest⟩
        exact ⟨hsettled u hu hworker, hrest⟩
    rw [hmembers, toFinset_card_of_nodup (hs.nodup.filter _), ← countP_eq_length_filter]
    exact (count_foldl_countUser _ _).trans (zero_add _)
  · obtain ⟨u, hu⟩ := hne
    obtain ⟨hu, harea, hdef⟩ := mem_members.mp hu
    have hmem := mem_finishedWorkers.mp hu
    refine (mem_keys_foldl_countUser _ _).mpr (.inr ⟨u, hmem.1, hmem.2.1, ?_⟩)
    rw [← harea, ← hdef]
    rfl

/-! ## Runs -/

theorem Run.census (h : Run g (Settled g) s) : Census g s := by
  induction h with
  | init => exact .init
  | step e hs honce hok ht ih =>
    rcases handle_cases hs.counts ht with hquiet | ⟨u, area, rfl, hworker, rfl⟩ | ⟨u, rfl, hu, rfl⟩ | ⟨area, rfl, rfl⟩
    · exact ih.quiet hquiet
    · exact ih.finished hworker (honce rfl)
    · exact ih.lost hs.counts hu
    · exact .updateAreaUsers hs.counts hok area

theorem Census.isBuilderInArea_iff (h : Census g s) (terrain : Terrain A P) (buildDef : D) (position : P) :
    s.isBuilderInArea g terrain buildDef (some position) = true ↔
      ∃ u ∈ finishedWorkers g s, g.canBuild (g.circuitDef u) buildDef = true ∧
        terrain.canMobileReachAt (s.area u) position (g.buildDistance (g.circuitDef u)) = true := by
  simp only [isBuilderInArea, any_eq_true, Bool.and_eq_true, decide_eq_true_eq, h.count_eq]
  constructor
  · rintro ⟨k, _, ⟨hpos, hbuild⟩, hreach⟩
    obtain ⟨u, hu⟩ := card_pos.mp (Int.natCast_pos.mp hpos)
    obtain ⟨hu, harea, hdef⟩ := mem_members.mp hu
    exact ⟨u, hu, hdef ▸ hbuild, harea ▸ hdef ▸ hreach⟩
  · rintro ⟨u, hu, hbuild, hreach⟩
    have hmem : u ∈ members g s (s.area u) (g.circuitDef u) := mem_members.mpr ⟨hu, rfl, rfl⟩
    exact ⟨(s.area u, g.circuitDef u), h.mem_keys _ _ ⟨u, hmem⟩,
      ⟨Int.natCast_pos.mpr (card_pos.mpr ⟨u, hmem⟩), hbuild⟩, hreach⟩

/-- In every run whose area updates find no unfinished worker, `buildAreas` counts the finished live workers, and
`IsBuilderInArea` finds one that can build and reach. -/
theorem buildAreas_run (h : Run g (Settled g) s) :
    (∀ a d, s.buildAreas.count a d = ((members g s a d).card : ℤ) ∧ 0 ≤ s.buildAreas.count a d) ∧
      ∀ (terrain : Terrain A P) (buildDef : D) (position : P),
        s.isBuilderInArea g terrain buildDef (some position) = true ↔
          ∃ u ∈ finishedWorkers g s, g.canBuild (g.circuitDef u) buildDef = true ∧
            terrain.canMobileReachAt (s.area u) position (g.buildDistance (g.circuitDef u)) = true := by
  refine ⟨fun a d => ⟨h.census.count_eq a d, ?_⟩, h.census.isBuilderInArea_iff⟩
  rw [h.census.count_eq]
  exact Int.natCast_nonneg _

theorem buildAreas_run_finished : ∃ s : State ℕ ℕ ℕ, Run oneWorkerDef (Settled oneWorkerDef) s ∧
    (∀ terrain : Terrain ℕ ℕ, s.isBuilderInArea oneWorkerDef terrain 1 (some 0) = true) ∧
      s.buildAreas.count none 0 = 1 := by
  have hfinished : Run oneWorkerDef (Settled oneWorkerDef)
      ((State.init.getOrRegTeamUnit oneWorkerDef 0 none).workerFinishedHandler oneWorkerDef 0 : State ℕ ℕ ℕ) :=
    .step (.unitFinished 0 none false) .init (by intro _; decide) trivial rfl
  have hrun := Run.step (.updateAreaUsers fun _ => none) hfinished trivial (by decide : ∀ u ∈ [0], _) rfl
  exact ⟨_, hrun, fun terrain => ((buildAreas_run hrun).2 terrain 1 0).mpr ⟨0, by decide, rfl, rfl⟩, rfl⟩

/-- An area update counts a nanoframe, and `IsBuilderInArea` answers for it. -/
theorem buildAreas_nanoframe : ∃ s : State ℕ ℕ ℕ, Run oneWorkerDef (fun _ _ => True) s ∧
    finishedWorkers oneWorkerDef s = ∅ ∧ s.buildAreas.count none 0 = 1 ∧
      ∀ terrain : Terrain ℕ ℕ, s.isBuilderInArea oneWorkerDef terrain 1 (some 0) = true := by
  refine ⟨_, .step (.updateAreaUsers fun _ => none) (.step (.unitCreated 0 none) .init trivial trivial rfl)
    trivial trivial rfl, by decide, rfl, fun terrain => rfl⟩

end Circuit.Spec.WorkerCensus
