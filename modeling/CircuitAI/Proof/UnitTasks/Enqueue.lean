import CircuitAI.Proof.UnitTasks.Moves

/-!
# New tasks

Whatever other modules enqueue, a state only grows (`Grown`): it has more tasks, which nobody has joined, and the maps of
the builder manager may lead to them. The invariant survives this. What `MakeTask` returns is a live task of the builder
manager (`Choosable`).
-/

set_option linter.unusedSectionVars false

namespace Circuit.Spec.TaskRuns

open Framework Impl.UnitTasks Function Finset Option

variable {U ρ : Type} [DecidableEq U] {g : Game U ρ} {s s' s'' : State U ρ} {t : ℕ} {u : U} {k : IUnitTask}

structure New (s : State U ρ) (t : ℕ) : Prop where
  units : s.units t = ∅
  isDead : s.isDead t = false
  buildPower : s.buildPower t = 0
  traveled : s.traveled t = ∅
  repairer : s.repairer t = none
  costQuery : s.costQuery t = none
  kind : s.kind t ≠ .nil ∧ s.kind t ≠ .idle
  manager : ∀ bt, s.kind t = .builder bt → s.manager t = .builder
  buildDef : (s.tasks t).hasBuildDef = true → s.isListed t = true ∧
    ∃ bt, s.kind t = .builder bt ∧ bt ≠ .guard ∧ bt ≠ .patrol ∧ bt ≠ .reclaim
  listed : s.isListed t = true → ∃ bt, s.kind t = .builder bt
  repair : s.kind t = .builder .repair → s.target t ≠ none

structure Old (s s' : State U ρ) (t : ℕ) : Prop where
  tasks : s'.tasks t = s.tasks t
  units : s'.units t = s.units t
  isDead : s'.isDead t = s.isDead t
  target : s'.target t = s.target t
  buildPower : s'.buildPower t = s.buildPower t
  traveled : s'.traveled t = s.traveled t
  isListed : s'.isListed t = s.isListed t
  repairer : s'.repairer t = s.repairer t
  costQuery : s'.costQuery t = s.costQuery t

theorem Old.kind (h : Old s s' t) : s'.kind t = s.kind t := by
  rw [State.kind, h.tasks]

theorem Old.manager (h : Old s s' t) : s'.manager t = s.manager t := by
  rw [State.manager, h.tasks]

theorem Old.trans (h : Old s s' t) (h' : Old s' s'' t) : Old s s'' t where
  tasks := h'.tasks.trans h.tasks
  units := h'.units.trans h.units
  isDead := h'.isDead.trans h.isDead
  target := h'.target.trans h.target
  buildPower := h'.buildPower.trans h.buildPower
  traveled := h'.traveled.trans h.traveled
  isListed := h'.isListed.trans h.isListed
  repairer := h'.repairer.trans h.repairer
  costQuery := h'.costQuery.trans h.costQuery

theorem New.old (h : New s t) (h' : Old s s' t) : New s' t where
  units := h'.units.trans h.units
  isDead := h'.isDead.trans h.isDead
  buildPower := h'.buildPower.trans h.buildPower
  traveled := h'.traveled.trans h.traveled
  repairer := h'.repairer.trans h.repairer
  costQuery := h'.costQuery.trans h.costQuery
  kind := by rw [h'.kind]; exact h.kind
  manager := by rw [h'.kind, h'.manager]; exact h.manager
  buildDef := by rw [h'.tasks, h'.isListed, h'.kind]; exact h.buildDef
  listed := by rw [h'.isListed, h'.kind]; exact h.listed
  repair := by rw [h'.kind, h'.target]; exact h.repair

def Leads (s s' : State U ρ) (bt : BuildType) (map map' : U → Option ℕ) : Prop :=
  ∀ u t, map' u = some t → map u = some t ∨
    s.nextTask ≤ t ∧ t < s'.nextTask ∧ s'.isListed t = true ∧ s'.kind t = .builder bt ∧ s'.target t = some u

theorem Leads.trans {bt : BuildType} {m m' m'' : U → Option ℕ} (h : Leads s s' bt m m') (h' : Leads s' s'' bt m' m'')
    (hn : s.nextTask ≤ s'.nextTask) (hn' : s'.nextTask ≤ s''.nextTask) (hold : ∀ t < s'.nextTask, Old s' s'' t) :
    Leads s s'' bt m m'' := by
  intro u t ht
  rcases h' u t ht with ht' | ⟨h₁, h₂, h₃⟩
  · rcases h u t ht' with ht'' | ⟨h₁, h₂, h₃, h₄, h₅⟩
    · exact .inl ht''
    · have ho := hold t h₂
      exact .inr ⟨h₁, by omega, by rw [ho.isListed, h₃], by rw [ho.kind, h₄], by rw [ho.target, h₅]⟩
  · exact .inr ⟨by omega, h₂, h₃⟩

structure Grown (s s' : State U ρ) : Prop where
  next : s.nextTask ≤ s'.nextTask
  old : ∀ t, t < s.nextTask ∨ s'.nextTask ≤ t → Old s s' t
  new : ∀ t, s.nextTask ≤ t → t < s'.nextTask → New s' t
  task : s'.task = s.task
  teamUnits : s'.teamUnits = s.teamUnits
  workers : s'.workers = s.workers
  updateUnits : s'.updateUnits = s.updateUnits
  unfinishedUnits : s'.unfinishedUnits = s.unfinishedUnits
  repaired : Leads s s' .repair s.repairedUnits s'.repairedUnits
  reclaimed : Leads s s' .reclaim s.reclaimedUnits s'.reclaimedUnits
  metalPull : s'.metalPull = s.metalPull
  workerPower : s'.workerPower = s.workerPower
  roleInfos : s'.roleInfos = s.roleInfos
  queries : s'.queries = s.queries
  isLateFallback : s'.isLateFallback = s.isLateFallback
  isLateAbort : s'.isLateAbort = s.isLateAbort
  buildUpdates : ∀ t ∈ s'.buildUpdates, t ∈ s.buildUpdates ∨ s.nextTask ≤ t ∧ t < s'.nextTask

namespace Grown

theorem refl (s : State U ρ) : Grown s s where
  next := le_rfl
  old _ _ := ⟨rfl, rfl, rfl, rfl, rfl, rfl, rfl, rfl, rfl⟩
  new _ ht ht' := absurd ht' ht.not_gt
  task := rfl
  teamUnits := rfl
  workers := rfl
  updateUnits := rfl
  unfinishedUnits := rfl
  repaired _ _ h := .inl h
  reclaimed _ _ h := .inl h
  metalPull := rfl
  workerPower := rfl
  roleInfos := rfl
  queries := rfl
  isLateFallback := rfl
  isLateAbort := rfl
  buildUpdates _ h := .inl h

theorem old_or_new (h : Grown s s') (t : ℕ) : Old s s' t ∨ New s' t := by
  by_cases ht : t < s.nextTask ∨ s'.nextTask ≤ t
  · exact .inl (h.old t ht)
  · exact .inr (h.new t (by omega) (by omega))

theorem trans (h : Grown s s') (h' : Grown s' s'') : Grown s s'' where
  next := h.next.trans h'.next
  old t ht := by
    have hn := h.next
    have hn' := h'.next
    exact (h.old t (by omega)).trans (h'.old t (by omega))
  new t ht ht' := by
    by_cases hlt : t < s'.nextTask
    · exact (h.new t ht hlt).old (h'.old t (.inl hlt))
    · exact h'.new t (not_lt.mp hlt) ht'
  task := h'.task.trans h.task
  teamUnits := h'.teamUnits.trans h.teamUnits
  workers := h'.workers.trans h.workers
  updateUnits := h'.updateUnits.trans h.updateUnits
  unfinishedUnits := h'.unfinishedUnits.trans h.unfinishedUnits
  repaired := h.repaired.trans h'.repaired h.next h'.next fun t ht => h'.old t (.inl ht)
  reclaimed := h.reclaimed.trans h'.reclaimed h.next h'.next fun t ht => h'.old t (.inl ht)
  metalPull := h'.metalPull.trans h.metalPull
  workerPower := h'.workerPower.trans h.workerPower
  roleInfos := h'.roleInfos.trans h.roleInfos
  queries := h'.queries.trans h.queries
  isLateFallback := h'.isLateFallback.trans h.isLateFallback
  isLateAbort := h'.isLateAbort.trans h.isLateAbort
  buildUpdates t ht := by
    have hn := h.next
    have hn' := h'.next
    rcases h'.buildUpdates t ht with ht' | ht'
    · rcases h.buildUpdates t ht' with ht'' | ht''
      · exact .inl ht''
      · exact .inr (by omega)
    · exact .inr (by omega)

/-! ## The invariant -/

section

variable (he : Grown s s')
include he

theorem shape (h : Shape s) : Shape s' where
  idle m := by rw [(he.old _ (.inl (h.idle_lt m))).tasks, h.idle]
  eq_idle t hk := by
    rcases he.old_or_new t with ho | hn
    · rw [ho.kind] at hk
      rw [ho.manager]
      exact h.eq_idle t hk
    · exact absurd hk hn.kind.2
  nil m := by
    have h4 := h.four_le
    rw [(he.old (nilTask m) (.inl (by cases m <;> simp only [nilTask] <;> omega))).kind, h.nil]
  four_le := h.four_le.trans he.next
  manager t bt hk := by
    rcases he.old_or_new t with ho | hn
    · rw [ho.manager]
      exact h.manager t bt (ho.kind ▸ hk)
    · exact hn.manager bt hk
  buildDef t hb := by
    rcases he.old_or_new t with ho | hn
    · rw [ho.tasks] at hb
      rw [ho.kind]
      exact h.buildDef t hb
    · exact (hn.buildDef hb).2

theorem assigned (hs : Shape s) (h : Assigned s) : Assigned s' where
  lt v k hv := (h.lt v k (he.task ▸ hv)).trans_le he.next
  nil k hk := by
    rcases he.old_or_new k with ho | hn
    · rw [ho.units]
      exact h.nil k (ho.kind ▸ hk)
    · exact hn.units
  pointer k v hv := by
    rw [he.task]
    rcases he.old_or_new k with ho | hn
    · exact h.pointer k v (ho.units ▸ hv)
    · simp [hn.units] at hv
  member v k hv := by
    rw [he.task] at hv
    have ho := he.old k (.inl (h.lt v k hv))
    rw [ho.kind, ho.units]
    exact h.member v k hv
  worker k v hv hm := by
    rw [he.workers]
    rcases he.old_or_new k with ho | hn
    · exact h.worker k v (ho.units ▸ hv) (ho.manager ▸ hm)
    · simp [hn.units] at hv
  task v hv := by
    obtain ⟨k, hk, hnil, hm⟩ := h.task v (he.workers ▸ hv)
    have ho := he.old k (.inl (h.lt v k hk))
    exact ⟨k, by rw [he.task, hk], by rw [ho.kind]; exact hnil, by rw [ho.manager, hm]⟩
  team := by rw [he.workers, he.teamUnits]; exact h.team
  single k hk v hv w hw := by
    rcases he.old_or_new k with ho | hn
    · exact h.single k (ho.kind ▸ hk) v (ho.units ▸ hv) w (ho.units ▸ hw)
    · simp [hn.units] at hv
  update := by
    rw [he.updateUnits, (he.old _ (.inl (hs.idle_lt _))).units]
    exact h.update
  idle hl v hv htask := by
    rw [(he.old _ (.inl (hs.idle_lt _))).units]
    exact h.idle (he.isLateFallback ▸ hl) v (he.workers ▸ hv) (he.task ▸ htask)

theorem leads {bt : BuildType} {m m' : U → Option ℕ} (h : Lists s) (hm : Leads s s' bt m m')
    (hold : ∀ u t, m u = some t → s.isListed t = true ∧ s.kind t = .builder bt ∧ s.target t = some u) (v : U) (k : ℕ)
    (hk : m' v = some k) : s'.isListed k = true ∧ s'.kind k = .builder bt ∧ s'.target k = some v := by
  rcases hm v k hk with hk' | ⟨-, -, hk'⟩
  · obtain ⟨hl, hkind, ht⟩ := hold v k hk'
    have ho := he.old k (.inl (h.listed k hl).1)
    exact ⟨by rw [ho.isListed, hl], by rw [ho.kind, hkind], by rw [ho.target, ht]⟩
  · exact hk'

theorem lists (hs : Shape s) (h : Lists s) : Lists s' where
  listed k hk := by
    by_cases hk' : k < s.nextTask ∨ s'.nextTask ≤ k
    · have ho := he.old k hk'
      obtain ⟨hlt, hd, hb⟩ := h.listed k (ho.isListed ▸ hk)
      exact ⟨hlt.trans_le he.next, by rw [ho.isDead, hd], by rw [ho.kind]; exact hb⟩
    · have hn := he.new k (by omega) (by omega)
      exact ⟨by omega, hn.isDead, hn.listed hk⟩
  buildDef k hlt hb hd := by
    by_cases hk' : k < s.nextTask
    · have ho := he.old k (.inl hk')
      rw [ho.isListed]
      exact h.buildDef k hk' (ho.tasks ▸ hb) (ho.isDead ▸ hd)
    · exact ((he.new k (not_lt.mp hk') hlt).buildDef hb).1
  target k hk := by
    rcases he.old_or_new k with ho | hn
    · rw [ho.target]
      exact h.target k (ho.kind ▸ hk)
    · exact hn.repair hk
  repaired := he.leads h he.repaired h.repaired
  reclaimed := he.leads h he.reclaimed h.reclaimed
  unfinished v k hk := by
    obtain ⟨hl, hk₁, hk₂, ht⟩ := h.unfinished v k (he.unfinishedUnits ▸ hk)
    have ho := he.old k (.inl (h.listed k hl).1)
    rw [ho.isListed, ho.kind, ho.target]
    exact ⟨hl, hk₁, hk₂, ht⟩
  idle hl := by
    rw [(he.old _ (.inl (hs.idle_lt _))).isDead]
    exact h.idle (he.isLateFallback ▸ hl)
  queued k hk := by
    rcases he.buildUpdates k hk with hk' | ⟨hge, hlt⟩
    · obtain ⟨hlt, hkind⟩ := h.queued k hk'
      rw [(he.old k (.inl hlt)).kind]
      exact ⟨hlt.trans_le he.next, hkind⟩
    · exact ⟨hlt, (he.new k hge hlt).kind⟩

theorem balanced_old (ho : Old s s' t) (hb : Balanced g s t) : Balanced g s' t := by
  intro hl hp
  rw [ho.buildPower, hb (he.isLateAbort ▸ hl) (ho.tasks ▸ hp), TaskRuns.assigned, TaskRuns.assigned, ho.units]

theorem books (h : Books g s) : Books g s' where
  balanced k hd := by
    rcases he.old_or_new k with ho | hn
    · exact he.balanced_old ho (h.balanced k (ho.isDead ▸ hd))
    · intro _ _
      rw [hn.buildPower, TaskRuns.assigned, hn.units, sum_empty]
  traveled k bt hk hd := by
    rcases he.old_or_new k with ho | hn
    · rw [ho.traveled, ho.units]
      exact h.traveled k bt (ho.kind ▸ hk) (ho.isDead ▸ hd)
    · rw [hn.traveled]
      exact empty_subset _

theorem linked (ha : Assigned s) (h : ∀ k, Linked s k) (k : ℕ) : Linked s' k := by
  rcases he.old_or_new k with ho | hn
  · constructor
    · intro hk hd q hq
      rw [ho.units, he.queries]
      exact (h k).query (ho.kind ▸ hk) (ho.isDead ▸ hd) q (ho.costQuery ▸ hq)
    · intro hk hd r hr
      obtain ⟨v, hv, R, hrR, hRd, hRk, hRt⟩ := (h k).repairer (ho.kind ▸ hk) (ho.isDead ▸ hd) r (ho.repairer ▸ hr)
      have hoR := he.old R (.inl (ha.lt r R (ha.pointer R r hrR)))
      exact ⟨v, by rw [ho.units, hv], R, by rw [hoR.units]; exact hrR, by rw [hoR.isDead, hRd], by rw [hoR.kind, hRk],
        by rw [hoR.target, hRt]⟩
  · constructor
    · intro _ _ q hq
      rw [hn.costQuery] at hq
      cases hq
    · intro _ _ r hr
      rw [hn.repairer] at hr
      cases hr

theorem inv (h : Inv g s) : Inv g s' where
  wf := ⟨he.shape h.wf.shape, he.assigned h.wf.shape h.wf.assigned, he.lists h.wf.shape h.wf.lists, he.books h.wf.books⟩
  linked := he.linked h.wf.assigned h.linked

theorem onGuard (ha : Assigned s) (v : U) : OnGuard s' v ↔ OnGuard s v := by
  constructor
  · rintro ⟨k, hk, hv⟩
    rcases he.old_or_new k with ho | hn
    · exact ⟨k, ho.kind ▸ hk, ho.units ▸ hv⟩
    · simp [hn.units] at hv
  · rintro ⟨k, hk, hv⟩
    have ho := he.old k (.inl (ha.lt v k (ha.pointer k v hv)))
    exact ⟨k, by rw [ho.kind, hk], by rw [ho.units]; exact hv⟩

theorem pullSum_eq : pullSum g s' = pullSum g s := by
  unfold pullSum
  rw [← sum_subset (range_subset_range.mpr he.next)]
  · refine sum_congr rfl fun k hk => ?_
    have ho := he.old k (.inl (mem_range.mp hk))
    rw [ho.tasks, TaskRuns.assigned, TaskRuns.assigned, ho.units]
  · intro k hk hk'
    have hn := he.new k (by simpa using hk') (mem_range.mp hk)
    rw [TaskRuns.assigned, hn.units, sum_empty, ite_self]

theorem frame (ha : Assigned s) : Frame g s s' where
  next := he.next
  tasks k hk := (he.old k (.inl hk)).tasks
  dead k hk hd := by rw [(he.old k (.inl hk)).isDead, hd]
  workers := he.workers
  team := he.teamUnits
  lateFallback hl := by rwa [he.isLateFallback]
  lateAbort hl := by rwa [he.isLateAbort]
  settled k hk hd hne := by
    rcases he.old_or_new k with ho | hn
    · exact ⟨ho.kind ▸ hk, ho.isDead ▸ hd, ho.units ▸ hne⟩
    · exact absurd hn.units hne
  pull _ := by rw [he.metalPull, he.pullSum_eq]
  free _ _ := by rw [he.task]
  power := by rw [he.workerPower, activePower_congr he.workers fun v _ => he.onGuard ha v]
  role v _ r _ hp := by
    rw [Placed, he.roleInfos, he.onGuard ha]
    exact hp

end

end Grown

/-! ## Enqueueing -/

structure Makeable (k : IUnitTask) (target : Option U) (isListed : Bool) : Prop where
  kind : k.kind ≠ .nil ∧ k.kind ≠ .idle
  manager : ∀ bt, k.kind = .builder bt → k.manager = .builder
  buildDef : k.hasBuildDef = true → isListed = true ∧
    ∃ bt, k.kind = .builder bt ∧ bt ≠ .guard ∧ bt ≠ .patrol ∧ bt ≠ .reclaim
  listed : isListed = true → ∃ bt, k.kind = .builder bt
  repair : k.kind = .builder .repair → target ≠ none

theorem grown_push {target : Option U} {isListed : Bool} (h : Makeable k target isListed) :
    Grown s (s.push k target isListed) where
  next := Nat.le_succ _
  old t ht := by
    have hne : t ≠ s.nextTask := by
      change t < s.nextTask ∨ s.nextTask + 1 ≤ t at ht
      omega
    constructor <;> exact update_of_ne hne ..
  new t ht ht' := by
    obtain rfl : t = s.nextTask := by
      change t < s.nextTask + 1 at ht'
      omega
    have htask : (s.push k target isListed).tasks s.nextTask = k := update_self ..
    have hlisted : (s.push k target isListed).isListed s.nextTask = isListed := update_self ..
    have htarget : (s.push k target isListed).target s.nextTask = target := update_self ..
    constructor
    · exact update_self ..
    · exact update_self ..
    · exact update_self ..
    · exact update_self ..
    · exact update_self ..
    · exact update_self ..
    · rw [State.kind, htask]; exact h.kind
    · rw [State.kind, State.manager, htask]; exact h.manager
    · rw [State.kind, htask, hlisted]; exact h.buildDef
    · rw [State.kind, htask, hlisted]; exact h.listed
    · rw [State.kind, htask, htarget]; exact h.repair
  task := rfl
  teamUnits := rfl
  workers := rfl
  updateUnits := rfl
  unfinishedUnits := rfl
  repaired _ _ h := .inl h
  reclaimed _ _ h := .inl h
  metalPull := rfl
  workerPower := rfl
  roleInfos := rfl
  queries := rfl
  isLateFallback := rfl
  isLateAbort := rfl
  buildUpdates t ht := by
    change t ∈ (if k.manager = .builder then s.buildUpdates ++ [s.nextTask] else s.buildUpdates) at ht
    split_ifs at ht
    · rcases List.mem_append.mp ht with ht' | ht'
      · exact .inl ht'
      · rw [List.mem_singleton.mp ht']
        exact .inr ⟨le_rfl, Nat.lt_succ_self _⟩
    · exact .inl ht

structure Made (s s' : State U ρ) (t : ℕ) (k : IUnitTask) (target : Option U) (isListed : Bool) : Prop where
  grown : Grown s s'
  eq : t = s.nextTask
  lt : t < s'.nextTask
  tasks : s'.tasks t = k
  target : s'.target t = target
  isListed : s'.isListed t = isListed

theorem newTask_spec {target : Option U} {isListed : Bool} (h : Makeable k target isListed) :
    Ensures (newTask k target isListed) s fun t s' => Made s s' t k target isListed :=
  .read_seq <| .write_seq <| .ret ⟨grown_push h, rfl, Nat.lt_succ_self _, update_self ..,
    update_self .., update_self ..⟩

structure Choosable (s : State U ρ) (t : ℕ) : Prop where
  lt : t < s.nextTask
  live : s.isDead t = false
  kind : s.kind t ≠ .nil ∧ s.kind t ≠ .idle ∧ s.kind t ≠ .retreat
  manager : s.manager t = .builder

theorem Lists.choosable (h : Lists s) (hs : Shape s) (ht : s.isListed t = true) : Choosable s t := by
  obtain ⟨hlt, hd, bt, hbt⟩ := h.listed t ht
  refine ⟨hlt, hd, ?_, hs.manager t bt hbt⟩
  exact ⟨hbt.trans_ne nofun, hbt.trans_ne nofun, hbt.trans_ne nofun⟩

namespace Made

variable {k : IUnitTask} {target : Option U} {isListed : Bool} (h : Made s s' t k target isListed)

include h in
theorem new : New s' t := h.grown.new t h.eq.ge h.lt

include h in
theorem choosable (hk : k.kind ≠ .retreat) (hm : k.manager = .builder) : Choosable s' t where
  lt := h.lt
  live := h.new.isDead
  kind := ⟨h.new.kind.1, h.new.kind.2, by rw [State.kind, h.tasks]; exact hk⟩
  manager := by rw [State.manager, h.tasks, hm]

end Made

theorem Leads.update {bt : BuildType} {m m' : U → Option ℕ} {k : IUnitTask} (h : Leads s s' bt m m')
    (hm : Made s s' t k (some u) true) (hk : k.kind = .builder bt) : Leads s s' bt m (update m' u (some t)) := by
  intro v k' hv
  rw [update_apply] at hv
  split_ifs at hv with hvu
  · cases hv
    exact .inr ⟨hm.eq.ge, hm.lt, hm.isListed, (congrArg IUnitTask.kind hm.tasks).trans hk, hvu ▸ hm.target⟩
  · exact h v k' hv

theorem askFlag_seq {β : Type} {f : Bool → M U ρ β} {Q : β → State U ρ → Prop} (h : ∀ b, Ensures (f b) s Q) :
    Ensures (askFlag >>= f) s Q :=
  .ask_seq fun _ b _ => h b

theorem askOrder_seq {β : Type} {units : Finset U} {f : List U → M U ρ β} {Q : β → State U ρ → Prop}
    (h : ∀ l : List U, l.Nodup → l.toFinset = units → Ensures (f l) s Q) : Ensures (askOrder units >>= f) s Q := by
  refine .ask_seq fun x l hl => ?_
  cases x with
  | order l' =>
    simp only [ite_none_right_eq_some, some.injEq] at hl
    obtain ⟨⟨hnodup, hunits⟩, rfl⟩ := hl
    exact h l' hnodup hunits
  | _ => cases hl

theorem enqueueTask_spec {bt : BuildType} (hbt : bt.isConstruct = true) :
    Ensures (enqueueTask bt) s fun t s' => Grown s s' ∧ Choosable s' t ∧ s.nextTask ≤ t := by
  refine askFlag_seq fun isIgnorePull => askFlag_seq fun isPlop => ?_
  refine (newTask_spec ⟨⟨Kind.noConfusion, Kind.noConfusion⟩, fun _ _ => rfl, fun _ => ⟨rfl, bt, rfl, ?_⟩,
    fun _ => ⟨bt, rfl⟩, ?_⟩).mono fun t s' hm => ⟨hm.grown, hm.choosable nofun rfl, hm.eq.ge⟩
  · refine ⟨?_, ?_, ?_⟩ <;> rintro rfl <;> cases hbt
  · rintro ⟨⟩
    cases hbt

theorem enqueueRepair_spec (hs : Shape s) (hl : Lists s) :
    Ensures (enqueueRepair u) s fun t s' => Grown s s' ∧ Choosable s' t := by
  refine .read_seq ?_
  split
  · rename_i t ht
    exact .ret ⟨.refl s, hl.choosable hs (hl.repaired u t ht).1⟩
  · refine askFlag_seq fun isBeingBuilt => askFlag_seq fun isIgnorePull => ?_
    refine .seq (newTask_spec ⟨⟨nofun, nofun⟩, fun _ _ => rfl, fun _ => ⟨rfl, _, rfl, ?_⟩,
      fun _ => ⟨_, rfl⟩, fun _ => some_ne_none u⟩) fun t s' hm => ?_
    · exact ⟨nofun, nofun, nofun⟩
    · refine .write_seq <| .ret ⟨?_, { hm.choosable nofun rfl with }⟩
      exact { hm.grown with
        old := fun k hk => { hm.grown.old k hk with }
        new := fun k hk hk' => { hm.grown.new k hk hk' with }
        repaired := hm.grown.repaired.update hm rfl }

theorem enqueueReclaim_spec (hs : Shape s) (hl : Lists s) (target : Option U) :
    Ensures (enqueueReclaim target) s fun t s' => Grown s s' ∧ Choosable s' t ∧
      (s.nextTask ≤ t ∨ target.bind s.reclaimedUnits = some t) := by
  refine .read_seq ?_
  split
  · rename_i t ht
    obtain ⟨u, rfl, hu⟩ := bind_eq_some_iff.mp ht
    exact .ret ⟨.refl s, hl.choosable hs (hl.reclaimed u t hu).1, .inr ht⟩
  · refine .seq (newTask_spec ⟨⟨nofun, nofun⟩, fun _ _ => rfl, nofun,
      fun _ => ⟨_, rfl⟩, fun h => ?_⟩) fun t s' hm => ?_
    · cases h
    · refine .write_seq <| .ret ⟨?_, { hm.choosable nofun rfl with }, .inl hm.eq.ge⟩
      refine { hm.grown with
        old := fun k hk => { hm.grown.old k hk with }
        new := fun k hk hk' => { hm.grown.new k hk hk' with }
        reclaimed := ?_ }
      cases target with
      | none => exact hm.grown.reclaimed
      | some u => exact hm.grown.reclaimed.update hm rfl

theorem newTask_unlisted (hkind : k.kind ≠ .nil ∧ k.kind ≠ .idle ∧ k.kind ≠ .builder .repair)
    (hm : k.manager = .builder ∨ ∀ bt, k.kind ≠ .builder bt) (hb : k.hasBuildDef = false) :
    Ensures (newTask k none false) s fun t s' => Made s s' t k none false := by
  refine newTask_spec ⟨⟨hkind.1, hkind.2.1⟩, fun bt hbt => ?_, fun h => ?_, nofun, fun h => ?_⟩
  · exact hm.resolve_right fun hm' => hm' bt hbt
  · rw [hb] at h
    cases h
  · exact absurd h hkind.2.2

theorem enqueue_spec (hs : Shape s) (hl : Lists s) (r : Request U) :
    Ensures (enqueue r) s fun t s' => Grown s s' ∧ Choosable s' t := by
  have hunlisted : ∀ k : IUnitTask, k.kind ≠ .nil ∧ k.kind ≠ .idle ∧ k.kind ≠ .builder .repair → k.kind ≠ .retreat →
      k.manager = .builder → k.hasBuildDef = false →
      Ensures (newTask k none false) s fun t s' => Grown s s' ∧ Choosable s' t := fun k hkind hret hm hb =>
    (newTask_unlisted hkind (.inl hm) hb).mono fun t s' h => ⟨h.grown, h.choosable hret hm⟩
  cases r with
  | construct bt =>
    change Ensures (if bt.isConstruct = true then enqueueTask bt else failure) s _
    split_ifs with hbt
    · exact (enqueueTask_spec hbt).mono fun t s' h => ⟨h.1, h.2.1⟩
    · exact .fail
  | repair target =>
    refine .read_seq ?_
    split_ifs
    · exact enqueueRepair_spec hs hl
    · exact .fail
  | reclaim => exact (enqueueReclaim_spec hs hl none).mono fun t s' h => ⟨h.1, h.2.1⟩
  | reclaimUnit target =>
    refine .read_seq ?_
    split_ifs
    · exact (enqueueReclaim_spec hs hl (some target)).mono fun t s' h => ⟨h.1, h.2.1⟩
    · exact .fail
  | terraform =>
    refine askFlag_seq fun hasTarget => askFlag_seq fun isIgnorePull => ?_
    refine (newTask_spec ⟨⟨Kind.noConfusion, Kind.noConfusion⟩, fun _ _ => rfl, fun _ => ⟨rfl, _, rfl, ?_⟩,
      fun _ => ⟨_, rfl⟩, fun h => ?_⟩).mono fun t s' hm => ⟨hm.grown, hm.choosable nofun rfl⟩
    · exact ⟨nofun, nofun, nofun⟩
    · cases h
  | patrol | guard | wait | combat => exact hunlisted _ (by decide) (by decide) rfl rfl

theorem enqueueAll_spec (hs : Shape s) (hl : Lists s) : Ensures enqueueAll s fun _ s' => Grown s s' := by
  refine .ask_seq fun _ requests _ => ?_
  refine Ensures.forEach (I := fun _ s' => Grown s s') (fun r l s' h => ?_) (.refl s)
  exact .seq (enqueue_spec (h.shape hs) (h.lists hs hl) r) fun t s'' h' => .ret (h.trans h'.1)

theorem makeTask_spec (hs : Shape s) (hl : Lists s) :
    Ensures makeTask s fun task s' => Grown s s' ∧ ∀ t, task = some t → Choosable s' t := by
  refine .seq (enqueueAll_spec hs hl) fun _ s' h => .ask_seq fun _ choice _ => ?_
  have hs' := h.shape hs
  have hl' := h.lists hs hl
  cases choice with
  | nothing => exact .ret ⟨h, fun _ ht => by cases ht⟩
  | listed t =>
    refine .read_seq ?_
    split_ifs with ht
    · refine .ret ⟨h, fun t' ht' => ?_⟩
      cases ht'
      exact hl'.choosable hs' ht
    · exact .fail
  | request r =>
    refine .seq (enqueue_spec hs' hl' r) fun t s'' h' => .ret ⟨h.trans h'.1, fun t' ht' => ?_⟩
    cases ht'
    exact h'.2

end Circuit.Spec.TaskRuns
