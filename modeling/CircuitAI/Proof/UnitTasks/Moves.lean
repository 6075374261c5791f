import CircuitAI.Proof.UnitTasks.Invariant
import Mathlib.Algebra.Order.Ring.Int
import Mathlib.Tactic.Ring

/-!
# Moves of units between tasks

What the invariant needs to know of the small steps that methods are made of: units leave a task, one of them or all that
a stopped task has (`Leaves`), and a unit joins one (`Joins`).
-/

set_option linter.unusedSectionVars false

namespace Circuit.Spec.TaskRuns

open Framework Impl.UnitTasks Function Finset

variable {U ρ : Type} [DecidableEq U] {g : Game U ρ} {s s' s'' : State U ρ} {t : ℕ} {u : U} {k : ℕ}

structure Kept (s s' : State U ρ) : Prop where
  tasks : s'.tasks = s.tasks
  nextTask : s'.nextTask = s.nextTask
  isDead : s'.isDead = s.isDead
  target : s'.target = s.target
  repairer : s'.repairer = s.repairer
  costQuery : s'.costQuery = s.costQuery
  queries : s'.queries = s.queries
  isLateAbort : s'.isLateAbort = s.isLateAbort

namespace Kept

theorem kind (he : Kept s s') (k : ℕ) : s'.kind k = s.kind k := by
  rw [State.kind, he.tasks]

theorem repairs (he : Kept s s') {r v : U}
    (hunits : ∀ R, s.kind R = .builder .repair → s.isDead R = false → r ∈ s.units R → r ∈ s'.units R) (h : Repairs s r v) :
    Repairs s' r v := by
  obtain ⟨R, hrR, hRd, hRk, hRt⟩ := h
  exact ⟨R, hunits R hRk hRd hrR, by rw [he.isDead, hRd], by rw [he.kind, hRk], by rw [he.target, hRt]⟩

theorem linked (he : Kept s s') (hl : Linked s k)
    (hunits : s.kind k = .retreat → s.isDead k = false → s'.units k = s.units k)
    (hrepairs : ∀ r v, s.kind k = .retreat → s.repairer k = some r → Repairs s r v → Repairs s' r v) : Linked s' k := by
  constructor <;> intro hk hd <;> rw [he.kind] at hk <;> rw [he.isDead] at hd <;> rw [hunits hk hd]
  · rw [he.costQuery, he.queries]
    exact hl.query hk hd
  · rw [he.repairer]
    intro r hr
    obtain ⟨v, hv, hrep⟩ := hl.repairer hk hd r hr
    exact ⟨v, hv, hrepairs r v hk hr hrep⟩

end Kept

structure Moves (s s' : State U ρ) : Prop extends Kept s s' where
  isListed : s'.isListed = s.isListed
  workers : s'.workers = s.workers
  teamUnits : s'.teamUnits = s.teamUnits
  unfinishedUnits : s'.unfinishedUnits = s.unfinishedUnits
  repairedUnits : s'.repairedUnits = s.repairedUnits
  reclaimedUnits : s'.reclaimedUnits = s.reclaimedUnits
  isLateFallback : s'.isLateFallback = s.isLateFallback
  buildUpdates : s'.buildUpdates = s.buildUpdates

namespace Moves

theorem shape (he : Moves s s') (h : Shape s) : Shape s' where
  idle := he.tasks ▸ h.idle
  eq_idle := by simpa only [State.kind, State.manager, he.tasks] using h.eq_idle
  nil := by simpa only [State.kind, he.tasks] using h.nil
  four_le := he.nextTask ▸ h.four_le
  manager := by simpa only [State.kind, State.manager, he.tasks] using h.manager
  buildDef := by simpa only [State.kind, he.tasks] using h.buildDef

theorem lists (he : Moves s s') (h : Lists s) : Lists s' where
  listed := by simpa only [State.kind, he.tasks, he.isListed, he.isDead, he.nextTask] using h.listed
  buildDef := by simpa only [he.tasks, he.isListed, he.isDead, he.nextTask] using h.buildDef
  target := by simpa only [State.kind, he.tasks, he.target] using h.target
  repaired := by simpa only [State.kind, he.tasks, he.isListed, he.target, he.repairedUnits] using h.repaired
  reclaimed := by simpa only [State.kind, he.tasks, he.isListed, he.target, he.reclaimedUnits] using h.reclaimed
  unfinished := by simpa only [State.kind, he.tasks, he.isListed, he.target, he.unfinishedUnits] using h.unfinished
  idle := by simpa only [he.isLateFallback, he.isDead] using h.idle
  queued := by simpa only [State.kind, he.tasks, he.nextTask, he.buildUpdates] using h.queued

theorem core (he : Moves s s') (hsettled : ∀ k, s.kind k ≠ .idle → s.isDead k = true → s'.units k ≠ ∅ → s.units k ≠ ∅)
    (hpull : s.isLateAbort = false → s'.metalPull - pullSum g s' = s.metalPull - pullSum g s)
    (hfree : ∀ u, (∀ t, s.task u = some t → t < s.nextTask ∧ s.kind t = .nil) → s'.task u = s.task u) :
    Core g s s' where
  next := he.nextTask.ge
  tasks k _ := by rw [he.tasks]
  dead k _ hd := by rwa [he.isDead]
  workers := he.workers
  team := he.teamUnits
  lateFallback hl := by rwa [he.isLateFallback]
  lateAbort hl := by rwa [he.isLateAbort]
  settled k hk hd hne := by
    rw [he.kind] at hk
    rw [he.isDead] at hd
    exact ⟨hk, hd, hsettled k hk hd hne⟩
  pull hl := hpull (he.isLateAbort ▸ hl)
  free := hfree

end Moves

/-! ## Leaving -/

structure Leaves (s s' : State U ρ) (t : ℕ) (left : Finset U) : Prop extends Moves s s' where
  units : ∀ k, s'.units k =
    if k = idleTask (s.manager t) then s.units k ∪ left else if k = t then s.units k \ left else s.units k
  task : ∀ v, s'.task v = if v ∈ left then some (idleTask (s.manager t)) else s.task v
  updateUnits : s'.updateUnits = s.updateUnits

theorem leaves_unitRemoveAssignee (hs : Shape s) (hk : s.kind t ≠ .idle) :
    Leaves s (s.unitRemoveAssignee t u) t {u} := by
  have hne := (hs.ne_idle hk (s.manager t)).symm
  refine ⟨by repeat' constructor, fun k => ?_, fun v => ?_, rfl⟩
  · simp only [State.unitRemoveAssignee, State.idleAssignTo, State.eraseUnit, update_apply, if_neg hne, erase_eq,
      insert_eq, union_comm {u}]
    split_ifs <;> simp_all
  · simp only [State.unitRemoveAssignee, State.idleAssignTo, State.eraseUnit, update_apply, mem_singleton]

theorem leaves_builderRemoveAssignee (hs : Shape s) (hk : s.kind t ≠ .idle) :
    Leaves s (s.builderRemoveAssignee g t u) t {u} := by
  have h := leaves_unitRemoveAssignee (u := u) hs hk
  exact ⟨by repeat' constructor, h.units, h.task, rfl⟩

theorem leaves_releaseUnits (hs : Shape s) (hk : s.kind t ≠ .idle) : Leaves s (s.releaseUnits t) t (s.units t) := by
  have hne := hs.ne_idle hk (s.manager t)
  refine ⟨by repeat' constructor, fun k => ?_, fun v => rfl, rfl⟩
  simp only [State.releaseUnits, update_apply]
  split_ifs <;> simp_all

namespace Leaves

variable {left : Finset U} (he : Leaves s s' t left) (hs : Shape s) (h : Assigned s) (hsub : left ⊆ s.units t)
  (hk : s.kind t ≠ .idle)

include he hs h hsub hk in
theorem assigned : Assigned s' := by
  obtain ⟨⟨⟨htasks, hnext, -, -, -, -, -, -⟩, -, hw, htm, -, -, -, hl, -⟩, hunits, htask, hup⟩ := he
  have hidle := hs.idle (s.manager t)
  have hne := (hs.ne_idle hk (s.manager t)).symm
  have hneb := (hs.ne_idle hk .builder).symm
  have hlt := hs.idle_lt (s.manager t)
  constructor
  · intro v k; have := h.lt v k; grind
  · intro k; have := h.nil k; have := h.nil t; grind
  · intro k v; have := h.pointer k v; have := h.pointer t v; grind
  · intro v k; have := h.member v k; grind
  · intro k v; have := h.worker k v; have := h.worker t v; grind
  · intro v; have := h.task v; have := h.pointer t v; grind
  · have := h.team; grind
  · intro k; have := h.single k; grind
  · have := h.update; have := hunits (idleTask .builder); grind
  · have := h.idle; have := hunits (idleTask .builder); grind

include he hs in
theorem units_other {k : ℕ} (hk' : s.kind k ≠ .idle) (hkt : k ≠ t) : s'.units k = s.units k := by
  rw [he.units, if_neg (hs.ne_idle hk' _), if_neg hkt]

include he hs hk in
theorem units_self : s'.units t = s.units t \ left := by
  rw [he.units, if_neg (hs.ne_idle hk _), if_pos rfl]

include he hs in
theorem subset {k : ℕ} (hk' : s.kind k ≠ .idle) : s'.units k ⊆ s.units k := by
  rw [he.units, if_neg (hs.ne_idle hk' _)]
  split_ifs
  · exact sdiff_subset
  · exact subset_rfl

include he hs in
theorem query {k : ℕ} (hl : Linked s k) (hkt : k ≠ t) (hk' : s'.kind k = .retreat) (hd : s'.isDead k = false) (q : ℕ)
    (hq : s'.costQuery k = some q) : ∃ v, s'.units k = {v} ∧ s'.queries[q]? = some v := by
  rw [he.kind] at hk'
  rw [he.units_other hs (hk'.trans_ne nofun) hkt, he.queries]
  exact hl.query hk' (he.isDead ▸ hd) q (he.costQuery ▸ hq)

include he hs in
theorem linked {k : ℕ} (hl : Linked s k) (hkt : s.isDead k = false → k ≠ t)
    (hr : s.kind t = .builder .repair → s.isDead t = false → ∀ r ∈ left, s.repairer k ≠ some r) : Linked s' k := by
  refine he.toKept.linked hl (fun hk' hd => he.units_other hs (hk'.trans_ne nofun) (hkt hd)) fun r v _ hr' =>
    he.toKept.repairs fun R hRk hRd hrR => ?_
  rw [he.units, if_neg (hs.ne_idle_of_builder hRk _)]
  split_ifs with hRt
  · exact mem_sdiff.mpr ⟨hrR, fun hleft => hr (hRt ▸ hRk) (hRt ▸ hRd) r hleft hr'⟩
  · exact hrR

include he hs h hsub in
theorem onGuard (v : U) : OnGuard s' v ↔ OnGuard s v ∧ ¬ (v ∈ left ∧ s.kind t = .builder .guard) := by
  have hunits := he.units
  constructor
  · rintro ⟨k, hkg, hv⟩
    rw [he.kind] at hkg
    rw [hunits, if_neg (hs.ne_idle_of_builder hkg _)] at hv
    have hvk : v ∈ s.units k := by grind
    refine ⟨⟨k, hkg, hvk⟩, fun hleft => ?_⟩
    have := h.pointer k v hvk
    have := h.pointer t v (hsub hleft.1)
    grind
  · rintro ⟨⟨k, hkg, hv⟩, hn⟩
    refine ⟨k, by rw [he.kind, hkg], ?_⟩
    rw [hunits, if_neg (hs.ne_idle_of_builder hkg _)]
    grind

section Power

variable {power : ℚ} (hp : ∑ v ∈ left, g.buildSpeed v = power)

include he hs hsub hk hp in
theorem assigned_sub : TaskRuns.assigned g s' t = TaskRuns.assigned g s t - power := by
  rw [TaskRuns.assigned, TaskRuns.assigned, he.units_self hs hk, ← hp, sum_sdiff_eq_sub hsub]

include he hs hsub hk hp in
theorem balanced {k : ℕ} (hb : Balanced g s k)
    (hbp : (s.tasks k).isPull = true → s'.buildPower k = if k = t then s.buildPower k - power else s.buildPower k) :
    Balanced g s' k := by
  intro hl hpull
  rw [he.tasks] at hpull
  rw [hbp hpull, hb (he.isLateAbort ▸ hl) hpull]
  split_ifs with hkt
  · rw [hkt, he.assigned_sub hs hsub hk hp]
  · obtain ⟨bt, hbt, -⟩ := hs.pull_kind hpull
    rw [TaskRuns.assigned, TaskRuns.assigned, he.units_other hs (hbt.trans_ne (by simp)) hkt]

include he hs hsub hk hp in
theorem books (hb : Books g s)
    (hbp : ∀ k, s.isDead k = false → (s.tasks k).isPull = true →
      s'.buildPower k = if k = t then s.buildPower k - power else s.buildPower k)
    (htr : ∀ k bt, s.kind k = .builder bt → s.isDead k = false →
      s'.traveled k = if k = t then s.traveled k \ left else s.traveled k) : Books g s' where
  balanced k hd := he.balanced hs hsub hk hp (hb.balanced k (he.isDead ▸ hd)) (hbp k (he.isDead ▸ hd))
  traveled k bt hkb hd := by
    rw [he.kind] at hkb
    rw [he.isDead] at hd
    have := hb.traveled k bt hkb hd
    rw [htr k bt hkb hd, he.units, if_neg (hs.ne_idle_of_builder hkb _)]
    split_ifs
    · exact sdiff_subset_sdiff this subset_rfl
    · exact this

include he hs h hsub hk hp in
theorem core (ht : t < s.nextTask) (hmp : s.isLateAbort = false →
    s'.metalPull = if (s.tasks t).isPull then s.metalPull - power else s.metalPull) : Core g s s' := by
  refine he.toMoves.core (fun k hk' _ hne hempty => hne (subset_empty.mp (hempty ▸ he.subset hs hk'))) (fun hl => ?_)
    fun v hv => ?_
  · have hsum := pullSum_eq (g := g) he.nextTask ht he.tasks fun k hkt hpull => by
      rw [he.units, if_neg (hs.ne_idle_of_pull hpull _), if_neg hkt]
    rw [hmp hl, hsum, he.assigned_sub hs hsub hk hp]
    split_ifs <;> ring
  · rw [he.task, if_neg]
    intro hleft
    have hu := hsub hleft
    simp [h.nil t (hv t (h.pointer t v hu)).2] at hu

include he hs h hsub hk hp in
theorem frame (ht : t < s.nextTask) (hg : s.kind t ≠ .builder .guard) (hwp : s'.workerPower = s.workerPower)
    (hroles : s'.roleInfos = s.roleInfos) (hmp : s.isLateAbort = false →
      s'.metalPull = if (s.tasks t).isPull then s.metalPull - power else s.metalPull) : Frame g s s' :=
  (he.core hs h hsub hk hp ht hmp).frame (fun v => by rw [he.onGuard hs h hsub]; tauto) hwp hroles

end Power

end Leaves

/-! ## Joining -/

structure Joins (s s' : State U ρ) (t : ℕ) (u : U) : Prop extends Moves s s' where
  units : ∀ k, s'.units k =
    if k = t then insert u (s.units k) else if k = idleTask (s.manager t) then (s.units k).erase u else s.units k
  task : ∀ v, s'.task v = if v = u then some t else s.task v
  updateUnits : s'.updateUnits =
    if s.manager t = .builder ∧ u ∈ s.units (idleTask (s.manager t)) then s.updateUnits.erase u else s.updateUnits

theorem joins_unitAssignTo (hs : Shape s) (hk : s.kind t ≠ .idle) : Joins s (s.unitAssignTo t u) t u := by
  have hne := hs.ne_idle hk (s.manager t)
  refine ⟨by repeat' constructor, fun k => ?_, fun v => ?_, rfl⟩
  · simp only [State.unitAssignTo, State.idleRemoveAssignee, State.setTask, State.insertUnit, update_apply,
      if_neg hne]
    split_ifs <;> simp_all
  · simp only [State.unitAssignTo, State.idleRemoveAssignee, State.setTask, State.insertUnit, update_apply]

theorem joins_builderAssignTo (hs : Shape s) (hk : s.kind t ≠ .idle) : Joins s (s.builderAssignTo g t u) t u := by
  have h := joins_unitAssignTo (u := u) hs hk
  exact ⟨by repeat' constructor, h.units, h.task, rfl⟩

structure Joinable (s : State U ρ) (t : ℕ) (u : U) : Prop where
  lt : t < s.nextTask
  live : s.isDead t = false
  kind : s.kind t ≠ .nil ∧ s.kind t ≠ .idle
  task : s.task u = some (idleTask (s.manager t))
  worker : s.manager t = .builder → u ∈ s.workers
  retreat : s.kind t = .retreat → s.units t = ∅

namespace Joins

variable (he : Joins s s' t u) (hs : Shape s) (h : Assigned s) (hj : Joinable s t u)

include hs h hj in
theorem notMem (hk : s.kind k ≠ .idle) : u ∉ s.units k := fun hu => by
  have := h.pointer k u hu
  rw [hj.task, Option.some_inj] at this
  exact hs.ne_idle hk _ this.symm

include he hs h hj in
theorem assigned : Assigned s' := by
  obtain ⟨⟨⟨htasks, hnext, -, -, -, -, -, -⟩, -, hw, htm, -, -, -, hl, -⟩, hunits, htask, hup⟩ := he
  obtain ⟨hlt, hlive, ⟨hnil, hidle'⟩, htu, hwk, hret⟩ := hj
  have hidle := hs.idle (s.manager t)
  have hne := (hs.ne_idle hidle' (s.manager t)).symm
  have hneb := (hs.ne_idle hidle' .builder).symm
  have hib := hs.idle .builder
  constructor
  · intro v k; have := h.lt v k; grind
  · intro k; have := h.nil k; grind
  · intro k v; have := h.pointer k v; grind
  · intro v k; have := h.member v k; grind
  · intro k v; have := h.worker k v; grind
  · intro v; have := h.task v; grind
  · have := h.team; grind
  · intro k; have := h.single k;  grind
  · have := h.update; have := hunits (idleTask .builder); grind
  · have := h.idle; grind

include he hs h hj in
theorem linked (hl : ∀ k, Linked s k) (k : ℕ) : Linked s' k := by
  rcases eq_or_ne k t with rfl | hkt
  · -- a retreat task that a unit joins has neither a query nor a repairer
    constructor <;> intro hk' hd <;> rw [he.kind] at hk' <;> have hempty := hj.retreat hk'
    · intro q hq
      obtain ⟨v, hv, -⟩ := (hl k).query hk' hj.live q (he.costQuery ▸ hq)
      simp [hempty] at hv
    · intro r hr
      obtain ⟨v, hv, -⟩ := (hl k).repairer hk' hj.live r (he.repairer ▸ hr)
      simp [hempty] at hv
  · refine he.toKept.linked (hl k) (fun hk' _ => ?_) fun r v _ _ => he.toKept.repairs fun R hRk _ hrR => ?_
    · rw [he.units, if_neg hkt, if_neg (hs.ne_idle_of_retreat hk' _)]
    · rw [he.units, if_neg (hs.ne_idle_of_builder hRk _)]
      split_ifs
      · exact mem_insert_of_mem hrR
      · exact hrR

include he hs h hj in
theorem onGuard (v : U) : OnGuard s' v ↔ OnGuard s v ∨ (v = u ∧ s.kind t = .builder .guard) := by
  have hunits := he.units
  constructor
  · rintro ⟨k, hkg, hv⟩
    rw [he.kind] at hkg
    rw [hunits, if_neg (hs.ne_idle_of_builder hkg _)] at hv
    by_cases hkt : k = t
    · subst hkt
      rcases mem_insert.mp (by simpa using hv) with rfl | hv'
      · exact .inr ⟨rfl, hkg⟩
      · exact .inl ⟨k, hkg, hv'⟩
    · rw [if_neg hkt] at hv
      exact .inl ⟨k, hkg, hv⟩
  · rintro (⟨k, hkg, hv⟩ | ⟨rfl, hkg⟩)
    · refine ⟨k, by rw [he.kind, hkg], ?_⟩
      rw [hunits, if_neg (hs.ne_idle_of_builder hkg _)]
      grind
    · exact ⟨t, by rw [he.kind, hkg], by rw [hunits, if_pos rfl]; exact mem_insert_self ..⟩

include he hs h hj in
theorem assigned_add (g : Game U ρ) : TaskRuns.assigned g s' t = TaskRuns.assigned g s t + g.buildSpeed u := by
  rw [TaskRuns.assigned, TaskRuns.assigned, he.units, if_pos rfl, sum_insert (notMem hs h hj hj.kind.2), add_comm]

include he hs h hj in
theorem books (hb : Books g s) (hbp : ∀ k, (s.tasks k).isPull = true →
      s'.buildPower k = if k = t then s.buildPower k + g.buildSpeed u else s.buildPower k)
    (htr : s'.traveled = s.traveled) : Books g s' where
  balanced k hd hl hp := by
    rw [he.tasks] at hp
    rw [hbp k hp, hb.balanced k (he.isDead ▸ hd) (he.isLateAbort ▸ hl) hp]
    split_ifs with hkt
    · rw [hkt, he.assigned_add hs h hj]
    · rw [TaskRuns.assigned, TaskRuns.assigned, he.units, if_neg hkt, if_neg (hs.ne_idle_of_pull hp _)]
  traveled k bt hkb hd := by
    rw [he.kind] at hkb
    rw [htr, he.units, if_neg (hs.ne_idle_of_builder hkb _)]
    have := hb.traveled k bt hkb (he.isDead ▸ hd)
    split_ifs
    · exact this.trans (subset_insert ..)
    · exact this

include he hs h hj in
theorem core (hmp : s'.metalPull = if (s.tasks t).isPull then s.metalPull + g.buildSpeed u else s.metalPull) :
    Core g s s' := by
  refine he.toMoves.core (fun k hk hd hne => ?_) (fun _ => ?_) fun v hv => ?_
  · have hkt : k ≠ t := fun h' => by rw [h', hj.live] at hd; cases hd
    rwa [he.units, if_neg hkt, if_neg (hs.ne_idle hk _)] at hne
  · have hsum := pullSum_eq (g := g) he.nextTask hj.lt he.tasks fun k hkt hp => by
      rw [he.units, if_neg hkt, if_neg (hs.ne_idle_of_pull hp _)]
    rw [hmp, hsum, he.assigned_add hs h hj]
    split_ifs <;> ring
  · rw [he.task, if_neg]
    rintro rfl
    have hk := (hv _ hj.task).2
    rw [hs.kind_idle] at hk
    cases hk

include he hs h hj in
theorem frame (hg : s.kind t ≠ .builder .guard) (hwp : s'.workerPower = s.workerPower)
    (hroles : s'.roleInfos = s.roleInfos)
    (hmp : s'.metalPull = if (s.tasks t).isPull then s.metalPull + g.buildSpeed u else s.metalPull) : Frame g s s' :=
  (he.core hs h hj hmp).frame (fun v => by rw [he.onGuard hs h hj]; tauto) hwp hroles

end Joins

/-! ## Steps that move no unit -/

structure Same (s s' : State U ρ) : Prop extends Moves s s' where
  units : s'.units = s.units
  task : s'.task = s.task
  updateUnits : s'.updateUnits = s.updateUnits
  buildPower : s'.buildPower = s.buildPower
  traveled : s'.traveled = s.traveled

namespace Same

theorem refl (s : State U ρ) : Same s s :=
  ⟨by repeat' constructor, rfl, rfl, rfl, rfl, rfl⟩

theorem trans (h : Same s s') (h' : Same s' s'') : Same s s'' where
  tasks := h'.tasks.trans h.tasks
  nextTask := h'.nextTask.trans h.nextTask
  isDead := h'.isDead.trans h.isDead
  target := h'.target.trans h.target
  isListed := h'.isListed.trans h.isListed
  repairer := h'.repairer.trans h.repairer
  costQuery := h'.costQuery.trans h.costQuery
  workers := h'.workers.trans h.workers
  teamUnits := h'.teamUnits.trans h.teamUnits
  unfinishedUnits := h'.unfinishedUnits.trans h.unfinishedUnits
  repairedUnits := h'.repairedUnits.trans h.repairedUnits
  reclaimedUnits := h'.reclaimedUnits.trans h.reclaimedUnits
  queries := h'.queries.trans h.queries
  isLateFallback := h'.isLateFallback.trans h.isLateFallback
  isLateAbort := h'.isLateAbort.trans h.isLateAbort
  buildUpdates := h'.buildUpdates.trans h.buildUpdates
  units := h'.units.trans h.units
  task := h'.task.trans h.task
  updateUnits := h'.updateUnits.trans h.updateUnits
  buildPower := h'.buildPower.trans h.buildPower
  traveled := h'.traveled.trans h.traveled

theorem onGuard (he : Same s s') (v : U) : OnGuard s' v ↔ OnGuard s v := by
  simp only [OnGuard, he.kind, he.units]

theorem assigned (he : Same s s') (h : Assigned s) : Assigned s' := by
  obtain ⟨⟨⟨htasks, hnext, -, -, -, -, -, -⟩, -, hw, htm, -, -, -, hl, -⟩, hunits, htask, hup, -, -⟩ := he
  constructor
  · rw [htask, hnext]; exact h.lt
  · simpa only [State.kind, htasks, hunits] using h.nil
  · rw [htask, hunits]; exact h.pointer
  · simpa only [State.kind, htasks, hunits, htask] using h.member
  · simpa only [State.manager, htasks, hunits, hw] using h.worker
  · simpa only [State.kind, State.manager, htasks, htask, hw] using h.task
  · rw [hw, htm]; exact h.team
  · simpa only [State.kind, htasks, hunits] using h.single
  · rw [hup, hunits]; exact h.update
  · simpa only [hl, hw, htask, hunits] using h.idle

theorem balanced (he : Same s s') (hb : Balanced g s t) : Balanced g s' t := by
  simpa only [Balanced, TaskRuns.assigned, he.isLateAbort, he.tasks, he.buildPower, he.units] using hb

theorem books (he : Same s s') (h : Books g s) : Books g s' where
  balanced k hd := he.balanced (h.balanced k (he.isDead ▸ hd))
  traveled := by simpa only [State.kind, he.tasks, he.isDead, he.traveled, he.units] using h.traveled

theorem linked (he : Same s s') (h : Linked s t) : Linked s' t :=
  he.toKept.linked h (fun _ _ => by rw [he.units]) fun _ _ _ _ => he.toKept.repairs fun _ _ _ hr => by rwa [he.units]

theorem inv (he : Same s s') (h : Inv g s) : Inv g s' where
  wf := ⟨he.shape h.wf.shape, he.assigned h.wf.assigned, he.lists h.wf.lists, he.books h.wf.books⟩
  linked k := he.linked (h.linked k)

theorem core (he : Same s s') (hmp : s'.metalPull = s.metalPull) : Core g s s' := by
  refine he.toMoves.core (fun k _ _ hne => he.units ▸ hne) (fun _ => ?_) fun _ _ => by rw [he.task]
  rw [hmp, pullSum_congr he.nextTask he.tasks fun k _ => by rw [he.units]]

theorem frame (he : Same s s') (hmp : s'.metalPull = s.metalPull) (hwp : s'.workerPower = s.workerPower)
    (hroles : s'.roleInfos = s.roleInfos) : Frame g s s' := (he.core hmp).frame he.onGuard hwp hroles

end Same

/-! ## Idle units -/

structure Idles (s s' : State U ρ) : Prop extends Kept s s' where
  buildPower : s'.buildPower = s.buildPower
  traveled : s'.traveled = s.traveled
  units : ∀ k, s.kind k ≠ .idle → s'.units k = s.units k

namespace Idles

variable (he : Idles s s')

include he in
theorem units_builder {bt : BuildType} (hk : s.kind k = .builder bt) : s'.units k = s.units k :=
  he.units k (hk.trans_ne nofun)

include he in
theorem units_pull (hs : Shape s) (hp : (s.tasks k).isPull = true) : s'.units k = s.units k :=
  let ⟨_, hbt, _⟩ := hs.pull_kind hp
  he.units_builder hbt

include he in
theorem onGuard (v : U) : OnGuard s' v ↔ OnGuard s v := by
  refine exists_congr fun k => ?_
  rw [he.kind]
  refine and_congr_right fun hk => ?_
  rw [he.units_builder hk]

include he in
theorem pullSum_eq (hs : Shape s) : pullSum g s' = pullSum g s :=
  pullSum_congr he.nextTask he.tasks fun _ => he.units_pull hs

include he in
theorem settled (h : Settled s) : Settled s' := by
  intro k hk hd
  rw [he.kind] at hk
  rw [he.units k hk]
  exact h k hk (he.isDead ▸ hd)

include he in
theorem books (hs : Shape s) (h : Books g s) : Books g s' where
  balanced k hd hl hp := by
    rw [he.tasks] at hp
    rw [he.buildPower, TaskRuns.assigned, he.units_pull hs hp]
    exact h.balanced k (he.isDead ▸ hd) (he.isLateAbort ▸ hl) hp
  traveled k bt hk hd := by
    rw [he.kind] at hk
    rw [he.traveled, he.units_builder hk]
    exact h.traveled k bt hk (he.isDead ▸ hd)

include he in
theorem linked (h : Linked s t) : Linked s' t :=
  he.toKept.linked h (fun hk _ => he.units t (hk.trans_ne nofun)) fun _ _ _ _ =>
    he.toKept.repairs fun _ hk _ hr => by rwa [he.units_builder hk]

end Idles

theorem idles_update (hs : Shape s) (m : Manager) (units workers updateUnits : Finset U) (task : U → Option ℕ)
    (power : ℚ) (roles : ρ → SRoleInfo U) : Idles s { s with
      units := update s.units (idleTask m) units, workers := workers, updateUnits := updateUnits, task := task,
      workerPower := power, roleInfos := roles } :=
  ⟨by repeat' constructor, rfl, rfl, fun _ hk => update_of_ne (hs.ne_idle hk _) ..⟩

theorem same_addBuildPower : Same s (s.addBuildPower g u) :=
  ⟨by repeat' constructor, rfl, rfl, rfl, rfl, rfl⟩

theorem same_delBuildPower : Same s (s.delBuildPower g u) :=
  ⟨by repeat' constructor, rfl, rfl, rfl, rfl, rfl⟩

end Circuit.Spec.TaskRuns
