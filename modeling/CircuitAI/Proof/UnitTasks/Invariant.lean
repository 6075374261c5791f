import CircuitAI.Spec.TaskRuns
import Mathlib.Algebra.BigOperators.Group.Finset.Basic

/-!
# The invariant of the task managers

`Inv` holds whenever a method of a task is called: pointers and sets of assignees agree (`Assigned`), the maps of the
builder manager hold live tasks (`Lists`), the counters of live tasks are right (`Books`), and the repairer of a
retreating unit is on the repair task for it (`Linked`). `Frame` is what every method keeps between two such states;
the counters of the builder manager differ from the sums they stand for by the same amount before and after.
-/

set_option linter.unusedSectionVars false

namespace Circuit.Spec.TaskRuns

open Framework Impl.UnitTasks Finset Bool

variable {U ρ : Type} [DecidableEq U] {g : Game U ρ} {s s' s'' : State U ρ} {t : ℕ} {u : U}

/-! ## Invariants -/

structure Shape (s : State U ρ) : Prop where
  idle : ∀ m, s.tasks (idleTask m) = { manager := m, kind := .idle }
  eq_idle : ∀ t, s.kind t = .idle → t = idleTask (s.manager t)
  nil : ∀ m, s.kind (nilTask m) = .nil
  four_le : 4 ≤ s.nextTask
  manager : ∀ t bt, s.kind t = .builder bt → s.manager t = .builder
  buildDef : ∀ t, (s.tasks t).hasBuildDef = true →
    ∃ bt, s.kind t = .builder bt ∧ bt ≠ .guard ∧ bt ≠ .patrol ∧ bt ≠ .reclaim

structure Assigned (s : State U ρ) : Prop where
  lt : ∀ u t, s.task u = some t → t < s.nextTask
  nil : ∀ t, s.kind t = .nil → s.units t = ∅
  pointer : ∀ t u, u ∈ s.units t → s.task u = some t
  member : ∀ u t, s.task u = some t → s.kind t = .nil ∨ s.kind t = .idle ∨ u ∈ s.units t
  worker : ∀ t u, u ∈ s.units t → s.manager t = .builder → u ∈ s.workers
  task : ∀ u ∈ s.workers, ∃ t, s.task u = some t ∧ s.kind t ≠ .nil ∧ s.manager t = .builder
  team : s.workers ⊆ s.teamUnits
  single : ∀ t, s.kind t = .retreat → ∀ u ∈ s.units t, ∀ v ∈ s.units t, u = v
  update : s.updateUnits ⊆ s.units (idleTask .builder)
  idle : s.isLateFallback = false →
    ∀ u ∈ s.workers, s.task u = some (idleTask .builder) → u ∈ s.units (idleTask .builder)

structure Lists (s : State U ρ) : Prop where
  listed : ∀ t, s.isListed t = true → t < s.nextTask ∧ s.isDead t = false ∧ ∃ bt, s.kind t = .builder bt
  buildDef : ∀ t < s.nextTask, (s.tasks t).hasBuildDef = true → s.isDead t = false → s.isListed t = true
  target : ∀ t, s.kind t = .builder .repair → s.target t ≠ none
  repaired : ∀ u t, s.repairedUnits u = some t →
    s.isListed t = true ∧ s.kind t = .builder .repair ∧ s.target t = some u
  reclaimed : ∀ u t, s.reclaimedUnits u = some t →
    s.isListed t = true ∧ s.kind t = .builder .reclaim ∧ s.target t = some u
  unfinished : ∀ u t, s.unfinishedUnits u = some t →
    s.isListed t = true ∧ s.kind t ≠ .builder .repair ∧ s.kind t ≠ .builder .reclaim ∧ s.target t = some u
  idle : s.isLateFallback = false → s.isDead (idleTask .builder) = false
  queued : ∀ t ∈ s.buildUpdates, t < s.nextTask ∧ s.kind t ≠ .nil ∧ s.kind t ≠ .idle

def Balanced (g : Game U ρ) (s : State U ρ) (t : ℕ) : Prop :=
  s.isLateAbort = false → (s.tasks t).isPull = true → s.buildPower t = assigned g s t

structure Books (g : Game U ρ) (s : State U ρ) : Prop where
  balanced : ∀ t, s.isDead t = false → Balanced g s t
  traveled : ∀ t bt, s.kind t = .builder bt → s.isDead t = false → s.traveled t ⊆ s.units t

structure Wf (g : Game U ρ) (s : State U ρ) : Prop where
  shape : Shape s
  assigned : Assigned s
  lists : Lists s
  books : Books g s

def Repairs (s : State U ρ) (r u : U) : Prop :=
  ∃ t, r ∈ s.units t ∧ s.isDead t = false ∧ s.kind t = .builder .repair ∧ s.target t = some u

structure Linked (s : State U ρ) (t : ℕ) : Prop where
  query : s.kind t = .retreat → s.isDead t = false →
    ∀ q, s.costQuery t = some q → ∃ u, s.units t = {u} ∧ s.queries[q]? = some u
  repairer : s.kind t = .retreat → s.isDead t = false →
    ∀ r, s.repairer t = some r → ∃ u, s.units t = {u} ∧ Repairs s r u

theorem Linked.of_not_retreat (hk : s.kind t ≠ .retreat) : Linked s t :=
  ⟨fun h => absurd h hk, fun h => absurd h hk⟩

structure Inv (g : Game U ρ) (s : State U ρ) : Prop where
  wf : Wf g s
  linked : ∀ t, Linked s t

def Settled (s : State U ρ) : Prop :=
  ∀ t, s.kind t ≠ .idle → s.isDead t = true → s.units t = ∅

/-! ## Frames -/

def pullSum (g : Game U ρ) (s : State U ρ) : ℚ :=
  ∑ t ∈ range s.nextTask, if (s.tasks t).isPull then assigned g s t else 0

def Placed (s : State U ρ) (u : U) (r : ρ) : Prop := u ∈ (s.roleInfos r).units ↔ ¬ OnGuard s u

structure Core (g : Game U ρ) (s s' : State U ρ) : Prop where
  next : s.nextTask ≤ s'.nextTask
  tasks : ∀ t < s.nextTask, s'.tasks t = s.tasks t
  dead : ∀ t < s.nextTask, s.isDead t = true → s'.isDead t = true
  workers : s'.workers = s.workers
  team : s'.teamUnits = s.teamUnits
  lateFallback : s.isLateFallback = true → s'.isLateFallback = true
  lateAbort : s.isLateAbort = true → s'.isLateAbort = true
  settled : ∀ t, s'.kind t ≠ .idle → s'.isDead t = true → s'.units t ≠ ∅ →
    s.kind t ≠ .idle ∧ s.isDead t = true ∧ s.units t ≠ ∅
  pull : s'.isLateAbort = false → s'.metalPull - pullSum g s' = s.metalPull - pullSum g s
  /-- A unit that is not finished gets no task. -/
  free : ∀ u, (∀ t, s.task u = some t → t < s.nextTask ∧ s.kind t = .nil) → s'.task u = s.task u

structure Frame (g : Game U ρ) (s s' : State U ρ) : Prop extends Core g s s' where
  power : s'.workerPower - activePower g s' = s.workerPower - activePower g s
  role : ∀ u ∈ s.workers, ∀ r, g.isRespRole u r = true → Placed s u r → Placed s' u r

namespace Core

theorem refl (g : Game U ρ) (s : State U ρ) : Core g s s where
  next := le_rfl
  tasks _ _ := rfl
  dead _ _ h := h
  workers := rfl
  team := rfl
  lateFallback := id
  lateAbort := id
  settled _ hk hd hu := ⟨hk, hd, hu⟩
  pull _ := rfl
  free _ _ := rfl

theorem trans (h : Core g s s') (h' : Core g s' s'') : Core g s s'' where
  next := h.next.trans h'.next
  tasks t ht := (h'.tasks t (ht.trans_le h.next)).trans (h.tasks t ht)
  dead t ht hd := h'.dead t (ht.trans_le h.next) (h.dead t ht hd)
  workers := h'.workers.trans h.workers
  team := h'.team.trans h.team
  lateFallback hl := h'.lateFallback (h.lateFallback hl)
  lateAbort hl := h'.lateAbort (h.lateAbort hl)
  settled t hk hd hu := by
    obtain ⟨hk', hd', hu'⟩ := h'.settled t hk hd hu
    exact h.settled t hk' hd' hu'
  pull hl := (h'.pull hl).trans (h.pull (eq_false_iff.mpr fun hl' => by simp [h'.lateAbort hl'] at hl))
  free u hu := by
    refine (h'.free u fun t ht => ?_).trans (h.free u hu)
    obtain ⟨hlt, hk⟩ := hu t (h.free u hu ▸ ht)
    exact ⟨hlt.trans_le h.next, by rw [State.kind, h.tasks t hlt]; exact hk⟩

theorem settle (h : Core g s s') (hs : Settled s) : Settled s' := by
  intro t hk hd
  by_contra hu
  obtain ⟨hk', hd', hu'⟩ := h.settled t hk hd hu
  exact hu' (hs t hk' hd')

theorem kind (h : Core g s s') (ht : t < s.nextTask) : s'.kind t = s.kind t := by
  rw [State.kind, State.kind, h.tasks t ht]

theorem manager (h : Core g s s') (ht : t < s.nextTask) : s'.manager t = s.manager t := by
  rw [State.manager, State.manager, h.tasks t ht]

end Core

namespace Frame

theorem refl (g : Game U ρ) (s : State U ρ) : Frame g s s where
  toCore := .refl g s
  power := rfl
  role _ _ _ _ h := h

theorem trans (h : Frame g s s') (h' : Frame g s' s'') : Frame g s s'' where
  toCore := h.toCore.trans h'.toCore
  power := h'.power.trans h.power
  role u hu r hr hp := h'.role u (h.workers ▸ hu) r hr (h.role u hu r hr hp)

end Frame

/-! ## Sums -/

theorem activePower_congr (hw : s'.workers = s.workers) (hg : ∀ u ∈ s.workers, OnGuard s' u ↔ OnGuard s u) :
    activePower g s' = activePower g s := by
  classical
  unfold activePower
  rw [hw]
  exact sum_congr (filter_congr fun u hu => not_congr (hg u hu)) fun _ _ => rfl

theorem activePower_leave {left : Finset U} (hw : s'.workers = s.workers) (hsub : left ⊆ s.workers)
    (hon : ∀ u ∈ left, OnGuard s u) (hg : ∀ u ∈ s.workers, OnGuard s' u ↔ OnGuard s u ∧ u ∉ left) :
    activePower g s' = activePower g s + ∑ u ∈ left, g.buildSpeed u := by
  classical
  unfold activePower
  have hdisj : Disjoint (s.workers.filter fun u => ¬ OnGuard s u) left := by
    rw [disjoint_left]
    intro u hu hl
    exact (mem_filter.mp hu).2 (hon u hl)
  rw [hw, ← sum_union hdisj]
  refine sum_congr (ext fun u => ?_) fun _ _ => rfl
  simp only [mem_filter, mem_union]
  constructor
  · rintro ⟨hu, hn⟩
    rw [hg u hu] at hn
    tauto
  · rintro (⟨hu, hn⟩ | hl)
    · exact ⟨hu, fun h' => hn ((hg u hu).mp h').1⟩
    · exact ⟨hsub hl, fun h' => ((hg u (hsub hl)).mp h').2 hl⟩

theorem Core.frame (h : Core g s s') (hg : ∀ u, OnGuard s' u ↔ OnGuard s u) (hwp : s'.workerPower = s.workerPower)
    (hroles : s'.roleInfos = s.roleInfos) : Frame g s s' where
  toCore := h
  power := by rw [hwp, activePower_congr h.workers fun u _ => hg u]
  role u _ r _ hp := by rwa [Placed, hroles, hg]

theorem pullSum_eq (hn : s'.nextTask = s.nextTask) (ht : t < s.nextTask) (htasks : s'.tasks = s.tasks)
    (hunits : ∀ k, k ≠ t → (s.tasks k).isPull = true → s'.units k = s.units k) :
    pullSum g s' = pullSum g s + if (s.tasks t).isPull then assigned g s' t - assigned g s t else 0 := by
  unfold pullSum
  rw [hn, htasks, ← sub_eq_iff_eq_add', ← sum_sub_distrib,
    sum_eq_single_of_mem t (mem_range.mpr ht)]
  · split_ifs <;> simp
  · intro k _ hk
    split_ifs with hp
    · rw [assigned, assigned, hunits k hk hp, sub_self]
    · rw [sub_self]

theorem pullSum_congr (hn : s'.nextTask = s.nextTask) (htasks : s'.tasks = s.tasks)
    (hunits : ∀ k, (s.tasks k).isPull = true → s'.units k = s.units k) : pullSum g s' = pullSum g s := by
  unfold pullSum
  rw [hn, htasks]
  refine sum_congr rfl fun k _ => ?_
  split_ifs with hp
  · rw [assigned, assigned, hunits k hp]
  · rfl

/-! ## Kinds of tasks -/

namespace Shape

section

variable (h : Shape s)
include h

theorem ne_idle (hk : s.kind t ≠ .idle) (m : Manager) : t ≠ idleTask m := by
  rintro rfl
  exact hk (by rw [State.kind, h.idle])

theorem ne_idle_of_builder {bt : BuildType} (hk : s.kind t = .builder bt) (m : Manager) : t ≠ idleTask m :=
  h.ne_idle (hk.trans_ne nofun) m

theorem ne_idle_of_retreat (hk : s.kind t = .retreat) (m : Manager) : t ≠ idleTask m :=
  h.ne_idle (hk.trans_ne nofun) m

theorem ne_idle_of_pull (hp : (s.tasks t).isPull = true) (m : Manager) : t ≠ idleTask m := by
  refine h.ne_idle (fun hk => ?_) m
  obtain ⟨bt, hbt, -⟩ := h.buildDef t (and_eq_true _ _ ▸ hp).1
  rw [hbt] at hk
  cases hk

theorem idle_lt (m : Manager) : idleTask m < s.nextTask := by
  have h4 := h.four_le
  cases m <;> simp only [idleTask] <;> omega

theorem kind_idle (m : Manager) : s.kind (idleTask m) = .idle := by
  rw [State.kind, h.idle]

theorem pull_kind (hp : (s.tasks t).isPull = true) :
    ∃ bt, s.kind t = .builder bt ∧ bt ≠ .guard ∧ bt ≠ .patrol ∧ bt ≠ .reclaim := by
  refine h.buildDef t ?_
  rw [IUnitTask.isPull, and_eq_true] at hp
  exact hp.1

theorem not_pull (hk : ∀ bt, s.kind t ≠ .builder bt) : (s.tasks t).isPull ≠ true := fun hp =>
  let ⟨bt, hbt, _⟩ := h.pull_kind hp
  hk bt hbt

end

end Shape

end Circuit.Spec.TaskRuns
