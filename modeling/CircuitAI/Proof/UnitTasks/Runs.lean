import CircuitAI.Proof.UnitTasks.Handlers

/-!
# Every run

A run stays in good states (`Run.good`), which is what the repairer links and the power of the workers need. That a
worker is on its task, and that the metal pull is right, fails once a task is executed after it was stopped: the update of
a task executes it for every unit that has travelled, and the first one can stop it. The two runs at the end show what
happens then: a second fallback stops the idle task and drops its units (`idle_stopped`), a second abort takes the pull of
the task off again (`pull_counted_twice`).
-/

set_option linter.unusedSectionVars false

namespace Circuit.Spec.TaskRuns

open Framework Impl.UnitTasks Finset Option Bool

variable {U ρ : Type} [DecidableEq U] {g : Game U ρ} {s : State U ρ} {t : ℕ} {u : U} {n : ℕ}

theorem initTasks_cases (t : ℕ) : (initTasks t).hasBuildDef = false ∧
    ((initTasks t).kind = .nil ∨ (initTasks t).kind = .idle ∧ t = idleTask (initTasks t).manager ∨
      (initTasks t).kind = .wait) := by
  unfold initTasks
  split <;> simp [idleTask]

theorem initTasks_kind (t : ℕ) (bt : BuildType) : (initTasks t).kind ≠ .builder bt := by
  intro hk
  rcases (initTasks_cases t).2 with h | ⟨h, -⟩ | h <;> rw [h] at hk <;> cases hk

theorem shape_init : Shape (.init : State U ρ) where
  idle m := by cases m <;> rfl
  eq_idle t ht := by
    change (initTasks t).kind = .idle at ht
    rcases (initTasks_cases t).2 with h | h | h
    · rw [h] at ht
      cases ht
    · exact h.2
    · rw [h] at ht
      cases ht
  nil m := by cases m <;> rfl
  four_le := le_rfl
  manager t bt hk := absurd hk (initTasks_kind t bt)
  buildDef t ht := by
    rw [show (State.init.tasks t).hasBuildDef = false from (initTasks_cases t).1] at ht
    cases ht

theorem inv_init : Inv g (.init : State U ρ) where
  wf := {
    shape := shape_init
    assigned := {
      lt := fun _ _ h => by cases h
      nil := fun _ _ => rfl
      pointer := fun _ u h => absurd h (notMem_empty u)
      member := fun _ _ h => by cases h
      worker := fun _ u h => absurd h (notMem_empty u)
      task := fun u h => absurd h (notMem_empty u)
      team := Finset.Subset.refl _
      single := fun _ _ u h => absurd h (notMem_empty u)
      update := Finset.Subset.refl _
      idle := fun _ u h => absurd h (notMem_empty u) }
    lists := {
      listed := fun _ h => by cases h
      buildDef := fun t _ h => by
        obtain ⟨bt, hbt, -⟩ := (shape_init (ρ := ρ)).buildDef t h
        exact absurd hbt (initTasks_kind t bt)
      target := fun t h => absurd h (initTasks_kind t _)
      repaired := fun _ _ h => by cases h
      reclaimed := fun _ _ h => by cases h
      unfinished := fun _ _ h => by cases h
      idle := fun _ => rfl
      queued := fun _ h => by cases h }
    books := {
      balanced := fun _ _ _ _ => rfl
      traveled := fun _ _ _ _ => Finset.Subset.refl _ } }
  linked t := {
    query := fun _ _ _ h => by cases h
    repairer := fun _ _ _ h => by cases h }

theorem good_init : Good g (.init : State U ρ) where
  inv := inv_init
  settled _ _ _ := rfl
  power := by
    classical
    unfold activePower
    exact (sum_eq_zero fun u hu => absurd (mem_filter.mp hu).1 (notMem_empty u)).symm
  placed u hu := absurd hu (notMem_empty u)
  pull _ := (sum_eq_zero fun t _ => ite_self 0).symm
  builder u hu := absurd hu (notMem_empty u)
  finished u hu := absurd hu (notMem_empty u)

theorem Run.good (h : Run g s) : Good g s := by
  induction h with
  | init => exact good_init
  | step e n answers rest _ hproper h ih => exact handle_spec ih hproper answers () _ rest h

/-! ## Repairers -/

/-- The repairer of a retreating unit is a unit of the team whose task is to repair that unit. -/
theorem repairer_repairs (h : Run g s) {r : U} (hk : s.kind t = .retreat) (hlive : s.isDead t = false)
    (hr : s.repairer t = some r) : ∃ u, s.units t = {u} ∧ r ∈ s.teamUnits ∧
      ∃ t', s.task r = some t' ∧ s.isDead t' = false ∧ s.kind t' = .builder .repair ∧ s.target t' = some u := by
  have hi := h.good.inv
  have ha := hi.wf.assigned
  obtain ⟨u, hu, t', hmem, hd, hk', htarget⟩ := (hi.linked t).repairer hk hlive r hr
  refine ⟨u, hu, ha.team ?_, t', ha.pointer t' r hmem, hd, hk', htarget⟩
  exact ha.worker t' r hmem (hi.wf.shape.manager t' _ hk')

/-! ## Power of the workers -/

/-- The power counts the workers that do not guard, and so do the roles of the military manager. -/
theorem workerPower_eq (h : Run g s) : s.workerPower = activePower g s ∧
    ∀ u ∈ s.workers, ∀ r, g.isRespRole u r = true → (u ∈ (s.roleInfos r).units ↔ ¬ OnGuard s u) :=
  ⟨h.good.power, h.good.placed⟩

/-! ## Workers and their tasks -/

/-- As long as no stopped task was executed into a fallback, workers are on their task and on no other one. -/
theorem worker_assigned (h : Run g s) (hl : s.isLateFallback = false) :
    (∀ u ∈ s.workers, ∃ t, s.task u = some t ∧ u ∈ s.units t ∧ ∀ k, u ∈ s.units k → k = t) ∧
      s.isDead (idleTask .builder) = false := by
  have hi := h.good.inv
  have ha := hi.wf.assigned
  refine ⟨fun u hu => ?_, hi.wf.lists.idle hl⟩
  obtain ⟨t, ht, hnil, hm⟩ := ha.task u hu
  refine ⟨t, ht, ?_, fun k hk => ?_⟩
  · rcases (ha.member u t ht).resolve_left hnil with hidle | hmem
    · have heq : t = idleTask .builder := by rw [hi.wf.shape.eq_idle t hidle, hm]
      rw [heq] at ht ⊢
      exact ha.idle hl u hu ht
    · exact hmem
  · exact some.inj ((ha.pointer k u hk).symm.trans ht)

/-! ## Metal pull -/

theorem Good.pullSum_eq (h : Good g s) : pullSum g s = totalPull g s := by
  have hs := h.inv.wf.shape
  rw [pullSum, totalPull, sum_filter]
  refine sum_congr rfl fun t _ => ?_
  cases hd : s.isDead t with
  | false => simp
  | true =>
    by_cases hp : (s.tasks t).isPull = true
    · obtain ⟨bt, hbt, -⟩ := hs.pull_kind hp
      have hempty : s.units t = ∅ := h.settled t (hbt.trans_ne nofun) hd
      simp [assigned, hempty]
    · simp [hp]

/-- As long as no stopped task was executed into an abort, the pull is the sum over live tasks. -/
theorem metalPull_eq (h : Run g s) (hl : s.isLateAbort = false) : s.metalPull = totalPull g s := by
  rw [← h.good.pullSum_eq]
  exact h.good.pull hl

/-! ## Pointers and maps -/

/-- The task that a unit points to has the unit and is live, unless it is the nil or the idle task of a manager; no
other task has the unit. -/
theorem task_has_unit (h : Run g s) (ht : s.task u = some t) :
    (∀ k, u ∈ s.units k → k = t) ∧ (s.kind t = .nil ∨ s.kind t = .idle ∨ s.isDead t = false ∧ u ∈ s.units t) := by
  have ha := h.good.inv.wf.assigned
  refine ⟨fun k hk => some.inj ((ha.pointer k u hk).symm.trans ht), ?_⟩
  rcases ha.member u t ht with hnil | hidle | hu
  · exact .inl hnil
  · exact .inr (.inl hidle)
  · by_cases hidle : s.kind t = .idle
    · exact .inr (.inl hidle)
    · refine .inr (.inr ⟨eq_false_iff.mpr fun hdead => ?_, hu⟩)
      -- a stopped task has been left by all its assignees
      rw [h.good.settled t hidle hdead] at hu
      exact notMem_empty u hu

/-- Units that have travelled for a live builder task are of the team, and it is their task. -/
theorem traveled_task (h : Run g s) {bt : BuildType} (hk : s.kind t = .builder bt) (hlive : s.isDead t = false)
    (hu : u ∈ s.traveled t) : s.task u = some t ∧ u ∈ s.teamUnits := by
  have hw := h.good.inv.wf
  have hmem := hw.books.traveled t bt hk hlive hu
  exact ⟨hw.assigned.pointer t u hmem, hw.assigned.team (hw.assigned.worker t u hmem (hw.shape.manager t bt hk))⟩

def Mapped (s : State U ρ) (u : U) (t : ℕ) : Prop :=
  s.repairedUnits u = some t ∨ s.reclaimedUnits u = some t ∨ s.unfinishedUnits u = some t

theorem Lists.mapped (hl : Lists s) (ht : Mapped s u t) : s.isListed t = true ∧ s.target t = some u := by
  rcases ht with ht | ht | ht
  · exact ⟨(hl.repaired u t ht).1, (hl.repaired u t ht).2.2⟩
  · exact ⟨(hl.reclaimed u t ht).1, (hl.reclaimed u t ht).2.2⟩
  · exact ⟨(hl.unfinished u t ht).1, (hl.unfinished u t ht).2.2.2⟩

/-- The maps lead to live tasks for the unit, no two units lead to one task, and its kind tells which map it is in. -/
theorem mapped_live (h : Run g s) (ht : Mapped s u t) :
    s.isListed t = true ∧ s.isDead t = false ∧ s.target t = some u ∧ (∀ v, Mapped s v t → v = u) ∧
      (s.repairedUnits u = some t ↔ s.kind t = .builder .repair) ∧
      (s.reclaimedUnits u = some t ↔ s.kind t = .builder .reclaim) := by
  have hl := h.good.inv.wf.lists
  obtain ⟨hlisted, htarget⟩ := hl.mapped ht
  refine ⟨hlisted, (hl.listed t hlisted).2.1, htarget,
    fun v hv => some.inj ((hl.mapped hv).2.symm.trans htarget), ?_, ?_⟩
  · refine ⟨fun hr => (hl.repaired u t hr).2.1, fun hk => ?_⟩
    rcases ht with hr | hc | hf
    · exact hr
    · exact absurd (hk.symm.trans (hl.reclaimed u t hc).2.1) (by decide)
    · exact absurd hk (hl.unfinished u t hf).2.1
  · refine ⟨fun hc => (hl.reclaimed u t hc).2.1, fun hk => ?_⟩
    rcases ht with hr | hc | hf
    · exact absurd (hk.symm.trans (hl.repaired u t hr).2.1) (by decide)
    · exact hc
    · exact absurd hk (hl.unfinished u t hf).2.2.1

/-! ## Concrete runs -/

def after (g : Game U ρ) (n : ℕ) (s : State U ρ) (e : Event U × List (Answer U)) : State U ρ :=
  ((e.1.handle g n s e.2).map (·.1.2)).getD s

def takes (g : Game U ρ) (n : ℕ) : State U ρ → List (Event U × List (Answer U)) → Bool
  | _, [] => true
  | _, (.unitCreated .., _) :: _ => false
  | _, (.unitFinished _, _) :: _ => false
  | s, e :: l => (e.1.handle g n s e.2).isSome && takes g n (after g n s e) l

theorem Run.after (h : Run g s) (e : Event U) (answers : List (Answer U)) (hp : Proper s e)
    (hsome : (e.handle g n s answers).isSome = true) : Run g (after g n s (e, answers)) := by
  obtain ⟨⟨⟨⟨⟩, s'⟩, rest⟩, hs'⟩ := isSome_iff_exists.mp hsome
  have heq : TaskRuns.after g n s (e, answers) = s' := by
    rw [TaskRuns.after, hs']
    rfl
  rw [heq]
  exact .step e n answers rest h hp hs'

theorem Run.events (l : List (Event U × List (Answer U))) : ∀ {s : State U ρ}, Run g s → takes g n s l = true →
    Run g (l.foldl (TaskRuns.after g n) s) := by
  induction l with
  | nil => exact fun h _ => h
  | cons e l ih =>
    intro s h ht
    obtain ⟨e, answers⟩ := e
    cases e with
    | unitCreated => cases ht
    | unitFinished => cases ht
    | _ =>
      obtain ⟨hsome, ht'⟩ := and_eq_true_iff.mp ht
      exact ih (h.after _ answers trivial hsome) ht'

def yard : Game (Fin 4) Unit where
  manager u := if u = 3 then none else some .builder
  buildSpeed u := if u = 3 then 0 else u.val + 1
  costM _ := 1
  isRespRole _ _ := true
  slowUpdateRate := 1

def crew : State (Fin 4) Unit :=
  [(.unitFinished 0, []), (.unitFinished 1, []), (.unitFinished 2, []), (.unitCreated 3 none true, [])].foldl
    (after yard 8) .init

theorem run_crew : Run yard crew := by
  have h₀ : Run yard (.init : State (Fin 4) Unit) := .init
  have h₁ := h₀.after (n := 8) (.unitFinished 0) [] ⟨fun _ => ⟨rfl, fun _ => nofun⟩, nofun⟩ rfl
  have h₂ := h₁.after (n := 8) (.unitFinished 1) [] ⟨fun _ => ⟨rfl, fun _ => nofun⟩, nofun⟩ rfl
  have h₃ := h₂.after (n := 8) (.unitFinished 2) [] ⟨fun _ => ⟨rfl, fun _ => nofun⟩, nofun⟩ rfl
  exact h₃.after (n := 8) (.unitCreated 3 none true) [] ⟨fun _ => ⟨rfl, fun _ => nofun⟩, fun _ => by decide⟩ rfl

abbrev Course := List (Event (Fin 4) × List (Answer (Fin 4)))

def atEnd (l : Course) : State (Fin 4) Unit := l.foldl (after yard 8) crew

def Ends (l : Course) (p : State (Fin 4) Unit → Prop) [DecidablePred p] : Bool := takes yard 8 crew l && p (atEnd l)

theorem Ends.run {l : Course} {p : State (Fin 4) Unit → Prop} [DecidablePred p] (h : Ends l p = true) :
    Run yard (atEnd l) ∧ p (atEnd l) := by
  obtain ⟨ht, hp⟩ := and_eq_true_iff.mp h
  exact ⟨run_crew.events l ht, of_decide_eq_true hp⟩

def retreating : Course :=
  [(.updateIdle, [.order [0, 1, 2], .flag false, .requests [], .choice (.request .wait), .flag true, .flag true]),
    (.unitDamaged 0, [.flag true, .flag true, .flag false, .flag false]),
    (.updateIdle, [.order [1, 2], .flag false, .requests [], .choice (.listed 6), .flag false, .flag true, .flag false,
      .flag true]),
    (.travelEnd 1, []),
    (.updateBuild, [.flag false, .order [1], .flag true, .flag true, .order [0], .unit 1, .flag false, .flag true,
      .flag false, .flag false, .order [0], .flag false]),
    (.costMapReady 0, [.flag true])]

theorem repairer_repairs_retreating : ∃ s : State (Fin 4) Unit,
    (s.kind 5 = .retreat ∧ s.isDead 5 = false ∧ s.repairer 5 = some 1) ∧ ∃ u, s.units 5 = {u} ∧ 1 ∈ s.teamUnits ∧
      ∃ t', s.task 1 = some t' ∧ s.isDead t' = false ∧ s.kind t' = .builder .repair ∧ s.target t' = some u :=
  have h := Ends.run (l := retreating)
    (p := fun s => s.kind 5 = .retreat ∧ s.isDead 5 = false ∧ s.repairer 5 = some 1) (by decide +kernel)
  ⟨atEnd retreating, h.2, repairer_repairs h.1 h.2.1 h.2.2.1 h.2.2.2⟩

theorem task_has_unit_retreating : ∃ s : State (Fin 4) Unit, s.task 1 = some 6 ∧ ∀ k, 1 ∈ s.units k → k = 6 :=
  have h := Ends.run (l := retreating) (p := fun s => s.task 1 = some 6) rfl
  ⟨atEnd retreating, h.2, (task_has_unit h.1 h.2).1⟩

theorem mapped_live_retreating : ∃ s : State (Fin 4) Unit, s.repairedUnits 0 = some 6 ∧ s.target 6 = some 0 :=
  have h := Ends.run (l := retreating) (p := fun s => s.repairedUnits 0 = some 6) rfl
  ⟨atEnd retreating, h.2, (mapped_live h.1 (.inl h.2)).2.2.1⟩

def guarding : Course :=
  [(.updateIdle, [.order [0, 1, 2], .flag false, .requests [], .choice (.request .guard), .flag false, .flag true,
    .flag false, .flag true, .flag true])]

theorem workerPower_eq_guarding : ∃ s : State (Fin 4) Unit, s.workerPower = 5 ∧ s.workerPower = activePower yard s ∧
    ∀ u ∈ s.workers, ∀ r, yard.isRespRole u r = true → (u ∈ (s.roleInfos r).units ↔ ¬ OnGuard s u) :=
  have h := Ends.run (l := guarding) (p := fun s => s.workerPower = 5) (by decide +kernel)
  ⟨atEnd guarding, h.2, workerPower_eq h.1⟩

def building : Course :=
  [(.enqueue (.construct .energy), [.flag false, .flag false]),
    (.updateIdle, [.order [0, 1, 2], .flag false, .requests [], .choice (.listed 4), .flag false, .flag true, .flag false,
      .flag false, .requests [], .choice (.listed 4), .flag false, .flag true, .flag false, .flag true]),
    (.travelEnd 0, []), (.travelEnd 1, [])]

theorem worker_assigned_building : ∃ s : State (Fin 4) Unit, (s.isLateFallback = false ∧ s.workers = {0, 1, 2}) ∧
    (∀ u ∈ s.workers, ∃ t, s.task u = some t ∧ u ∈ s.units t ∧ ∀ k, u ∈ s.units k → k = t) ∧
      s.isDead (idleTask .builder) = false :=
  have h := Ends.run (l := building) (p := fun s => s.isLateFallback = false ∧ s.workers = {0, 1, 2}) (by decide +kernel)
  ⟨atEnd building, h.2, worker_assigned h.1 h.2.1⟩

theorem traveled_task_building : (atEnd building).task 1 = some 4 ∧ 1 ∈ (atEnd building).teamUnits :=
  traveled_task (Ends.run (p := fun _ => True) rfl).1 rfl rfl (by decide)

theorem metalPull_eq_building : ∃ s : State (Fin 4) Unit, (s.isLateAbort = false ∧ s.metalPull = 3) ∧
    s.metalPull = totalPull yard s :=
  have h := Ends.run (l := building) (p := fun s => s.isLateAbort = false ∧ s.metalPull = 3) (by decide +kernel)
  ⟨atEnd building, h.2, metalPull_eq h.1 h.2.1⟩

def fallen : Course := building.concat (.updateBuild, [.flag false, .order [0, 1], .flag false, .flag false, .flag false])

/-- The second fallback stops the idle task, which worker `2` points to and is not on any more. -/
theorem idle_stopped : Run yard (atEnd fallen) ∧ (atEnd fallen).isDead (idleTask .builder) = true ∧
    2 ∈ (atEnd fallen).workers ∧ (atEnd fallen).task 2 = some (idleTask .builder) ∧
      2 ∉ (atEnd fallen).units (idleTask .builder) :=
  Ends.run (p := fun s => s.isDead (idleTask .builder) = true ∧ 2 ∈ s.workers ∧ s.task 2 = some (idleTask .builder) ∧
    2 ∉ s.units (idleTask .builder)) (by decide +kernel)

def repaired : Course :=
  [(.enqueue (.repair 3), [.flag true, .flag false]),
    (.updateIdle, [.order [0, 1, 2], .flag false, .requests [], .choice (.listed 4), .flag false, .flag true, .flag false,
      .flag false, .requests [], .choice (.listed 4), .flag false, .flag true, .flag false, .flag true]),
    (.travelEnd 0, []), (.travelEnd 1, []),
    (.updateBuild, [.flag false, .order [0, 1], .flag false, .flag false])]

/-- The pull of the two workers is taken off twice. -/
theorem pull_counted_twice :
    Run yard (atEnd repaired) ∧ (atEnd repaired).metalPull = -3 ∧ totalPull yard (atEnd repaired) = 0 :=
  Ends.run (p := fun s => s.metalPull = -3 ∧ totalPull yard s = 0) (by decide +kernel)

end Circuit.Spec.TaskRuns
