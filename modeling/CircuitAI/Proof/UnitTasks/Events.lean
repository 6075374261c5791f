import CircuitAI.Proof.UnitTasks.Updates

/-!
# Events of the managers

Between events a state is `Good`: the invariant holds, stopped tasks have no assignees, and the counters of the builder
manager are the sums they stand for. Whatever runs under the contracts keeps this (`Good.step`). The rest are the steps
that the managers make themselves: a unit appears, is finished (`Good.finish`) or is taken off the books
(`Good.destroy`).
-/

set_option linter.unusedSectionVars false

namespace Circuit.Spec.TaskRuns

open Framework Impl.UnitTasks Function Finset

variable {U ρ : Type} [DecidableEq U] {g : Game U ρ} {s s' s'' : State U ρ} {t : ℕ} {u : U} {n : ℕ}

structure Good (g : Game U ρ) (s : State U ρ) : Prop where
  inv : Inv g s
  settled : Settled s
  power : s.workerPower = activePower g s
  placed : ∀ u ∈ s.workers, ∀ r, g.isRespRole u r = true → Placed s u r
  pull : s.isLateAbort = false → s.metalPull = pullSum g s
  builder : ∀ u ∈ s.workers, g.manager u = some .builder
  finished : ∀ u ∈ s.teamUnits, ∀ t, s.task u = some t → s.kind t ≠ .nil → g.manager u = some .builder → u ∈ s.workers

theorem Good.step (h : Good g s) (hi : Inv g s') (hf : Frame g s s') : Good g s' where
  inv := hi
  settled := hf.settle h.settled
  power := by
    have := hf.power
    rw [h.power, sub_self] at this
    exact sub_eq_zero.mp this
  placed u hu r hr := by
    rw [hf.workers] at hu
    exact hf.role u hu r hr (h.placed u hu r hr)
  pull hl := by
    have hl' : s.isLateAbort = false := Bool.eq_false_iff.mpr fun h' => by simp [hf.lateAbort h'] at hl
    have := hf.pull hl
    rw [h.pull hl', sub_self] at this
    exact sub_eq_zero.mp this
  builder u hu := h.builder u (hf.workers ▸ hu)
  finished u hu t ht hk hm := by
    rw [hf.workers]
    by_contra hw
    -- a unit that is no worker has at most a nil task, and keeps it
    have hnil : ∀ k, s.task u = some k → k < s.nextTask ∧ s.kind k = .nil := by
      intro k hk'
      refine ⟨h.inv.wf.assigned.lt u k hk', by_contra fun hne => hw ?_⟩
      exact h.finished u (hf.team ▸ hu) k hk' hne hm
    rw [hf.free u hnil] at ht
    obtain ⟨hlt, hnil'⟩ := hnil t ht
    rw [hf.kind hlt] at hk
    exact hk hnil'

/-! ## New units -/

theorem Unfinished.notMem (hu : Unfinished s u) (hi : Inv g s) (k : ℕ) : u ∉ s.units k := fun hmem => by
  have hk := hu k (hi.wf.assigned.pointer k u hmem)
  rw [hi.wf.assigned.nil k hk] at hmem
  exact notMem_empty u hmem

theorem Unfinished.not_worker (hu : Unfinished s u) (hi : Inv g s) : u ∉ s.workers := fun hw => by
  obtain ⟨t, ht, hk, -⟩ := hi.wf.assigned.task u hw
  exact hk (hu t ht)

theorem Good.join (h : Good g s) (hu : u ∉ s.teamUnits → Unfinished s u) :
    Good g { s with teamUnits := insert u s.teamUnits } := by
  refine { h with inv := ⟨⟨{ h.inv.wf.shape with }, { h.inv.wf.assigned with team := ?_ }, { h.inv.wf.lists with },
    { h.inv.wf.books with }⟩, fun k => { h.inv.linked k with }⟩, finished := fun v hv t ht hk hm => ?_ }
  · exact h.inv.wf.assigned.team.trans (subset_insert ..)
  · by_cases hv' : v ∈ s.teamUnits
    · exact h.finished v hv' t ht hk hm
    · rcases mem_insert.mp hv with rfl | hv''
      · exact absurd (hu hv' t ht) hk
      · exact absurd hv'' hv'

theorem Good.create (h : Good g s) (htask : s.task u = none) (m : Manager) : Good g (s.setTask u (nilTask m)) := by
  have ha := h.inv.wf.assigned
  have hnil := h.inv.wf.shape.nil m
  have hout : ∀ k, u ∉ s.units k := fun k hu => by
    rw [ha.pointer k u hu] at htask
    cases htask
  have hworker : u ∉ s.workers := fun hw => by
    obtain ⟨t, ht, -⟩ := ha.task u hw
    rw [ht] at htask
    cases htask
  have hset : ∀ v, (s.setTask u (nilTask m)).task v = if v = u then some (nilTask m) else s.task v := fun v =>
    update_apply ..
  have hother : ∀ v, v ≠ u → (s.setTask u (nilTask m)).task v = s.task v := fun v hv => by rw [hset, if_neg hv]
  have hassigned : Assigned (s.setTask u (nilTask m)) := by
    refine { ha with lt := ?_, pointer := ?_, member := ?_, task := ?_, idle := ?_ }
    · intro v k hv
      rw [hset] at hv
      split_ifs at hv
      · cases hv
        have := h.inv.wf.shape.four_le
        change nilTask m < s.nextTask
        cases m <;> simp only [nilTask] <;> omega
      · exact ha.lt v k hv
    · intro k v hv
      rw [hother v fun hvu => hout k (hvu ▸ hv)]
      exact ha.pointer k v hv
    · intro v k hv
      rw [hset] at hv
      split_ifs at hv
      · cases hv
        exact .inl hnil
      · exact ha.member v k hv
    · intro v hv
      rw [hother v fun hvu => hworker (hvu ▸ hv)]
      exact ha.task v hv
    · intro hl v hv hvt
      rw [hother v fun hvu => hworker (hvu ▸ hv)] at hvt
      exact ha.idle hl v hv hvt
  refine { h with
    inv := ⟨⟨{ h.inv.wf.shape with }, hassigned, { h.inv.wf.lists with }, { h.inv.wf.books with }⟩,
      fun k => { h.inv.linked k with }⟩
    finished := fun v hv t ht hk hm => ?_ }
  rw [hset] at ht
  split_ifs at ht
  · cases ht
    exact absurd hnil hk
  · exact h.finished v hv t ht hk hm

/-! ## Finished units -/

structure Finishes (s s' : State U ρ) (m : Manager) (u : U) : Prop where
  tasks : s'.tasks = s.tasks
  nextTask : s'.nextTask = s.nextTask
  teamUnits : s'.teamUnits = s.teamUnits
  updateUnits : s'.updateUnits = s.updateUnits
  isLateFallback : s'.isLateFallback = s.isLateFallback
  units : ∀ k, s'.units k = if k = idleTask m then insert u (s.units k) else s.units k
  task : ∀ v, s'.task v = if v = u then some (idleTask m) else s.task v
  workers : ∀ v, v ∈ s'.workers ↔ v ∈ s.workers ∨ v = u ∧ m = .builder

theorem Finishes.assigned {m : Manager} (he : Finishes s s' m u) (hi : Inv g s) (hu : Unfinished s u)
    (hteam : u ∈ s.teamUnits) : Assigned s' := by
  have hs := hi.wf.shape
  have ha := hi.wf.assigned
  have hout := hu.notMem hi
  have hnw := hu.not_worker hi
  have hidle := hs.idle m
  have hib := hs.idle .builder
  have hlt := hs.idle_lt m
  obtain ⟨htasks, hnext, htm, hup, hl, hunits, htask, hworkers⟩ := he
  constructor
  · intro v k; have := ha.lt v k; grind
  · intro k; have := ha.nil k; grind
  · intro k v; have := ha.pointer k v; grind
  · intro v k; have := ha.member v k; grind
  · intro k v; have := ha.worker k v; grind
  · intro v hv
    simp only [State.kind, State.manager, htasks, htask]
    split_ifs with hvu
    · have hm := ((hworkers v).mp hv).resolve_left fun hw => hnw (hvu ▸ hw)
      exact ⟨idleTask m, rfl, by rw [hidle]; exact ⟨nofun, hm.2⟩⟩
    · exact ha.task v (((hworkers v).mp hv).resolve_right fun h => hvu h.1)
  · intro v hv; have := @ha.team v; grind
  · intro k; have := ha.single k; grind
  · have := ha.update; have := hunits (idleTask .builder); grind
  · have := ha.idle; grind

theorem units_idleAssignTo (m : Manager) (k : ℕ) :
    (s.idleAssignTo m u).units k = if k = idleTask m then insert u (s.units k) else s.units k := by
  change update s.units (idleTask m) _ k = _
  rw [update_apply]
  split_ifs with hk
  · rw [hk]
  · rfl

section Finish

variable (h : Good g s) (hu : Unfinished s u) (hteam : u ∈ s.teamUnits)

include h hu hteam in
theorem Good.finishFighter (hm : g.manager u = some .military) : Good g (s.idleAssignTo .military u) := by
  have hi := h.inv
  have he : Idles s (s.idleAssignTo .military u) := idles_update hi.wf.shape ..
  have hfin : Finishes s (s.idleAssignTo .military u) .military u := by
    refine ⟨rfl, rfl, rfl, rfl, rfl, units_idleAssignTo .military, fun v => update_apply .., fun v => ?_⟩
    change v ∈ s.workers ↔ _
    simp
  refine ⟨⟨⟨{ hi.wf.shape with }, hfin.assigned hi hu hteam, { hi.wf.lists with }, he.books hi.wf.shape hi.wf.books⟩,
    fun k => he.linked (hi.linked k)⟩, he.settled h.settled, ?_, fun v hv r hr => ?_, fun hl => ?_, h.builder,
    fun v hv t ht hk hm' => ?_⟩
  · have hsum : activePower g (s.idleAssignTo .military u) = activePower g s := activePower_congr rfl fun v _ => he.onGuard v
    rw [hsum]
    exact h.power
  · rw [Placed, he.onGuard]
    exact h.placed v hv r hr
  · rw [he.pullSum_eq hi.wf.shape]
    exact h.pull hl
  · have hvu : v ≠ u := by
      rintro rfl
      rw [hm] at hm'
      cases hm'
    rw [hfin.task, if_neg hvu] at ht
    exact h.finished v hv t ht hk hm'

abbrev finishWorker (g : Game U ρ) (s : State U ρ) (u : U) : State U ρ :=
  { (s.idleAssignTo .builder u).addBuildPower g u with workers := insert u s.workers }

include h hu in
theorem activePower_finishWorker : activePower g (finishWorker g s u) = activePower g s + g.buildSpeed u := by
  classical
  have he : Idles s (finishWorker g s u) := idles_update h.inv.wf.shape ..
  have hoff : ¬ OnGuard s u := fun ⟨k, _, hmem⟩ => hu.notMem h.inv k hmem
  have hfilter : (insert u s.workers).filter (fun v => ¬ OnGuard (finishWorker g s u) v) =
      insert u (s.workers.filter fun v => ¬ OnGuard s v) := by
    ext v
    simp only [mem_filter, mem_insert, he.onGuard]
    constructor
    · rintro ⟨rfl | hv, hn⟩
      · exact .inl rfl
      · exact .inr ⟨hv, hn⟩
    · rintro (rfl | ⟨hv, hn⟩)
      · exact ⟨.inl rfl, hoff⟩
      · exact ⟨.inr hv, hn⟩
  have hnotMem : u ∉ s.workers.filter fun v => ¬ OnGuard s v := fun hmem =>
    hu.not_worker h.inv (mem_filter.mp hmem).1
  change ∑ v ∈ (insert u s.workers).filter (fun v => ¬ OnGuard (finishWorker g s u) v), g.buildSpeed v = _
  rw [hfilter, sum_insert hnotMem, add_comm]
  rfl

include h hu hteam in
theorem Good.finishWorker (hm : g.manager u = some .builder) : Good g (finishWorker g s u) := by
  have hi := h.inv
  have he : Idles s (TaskRuns.finishWorker g s u) := idles_update hi.wf.shape ..
  have hfin : Finishes s (TaskRuns.finishWorker g s u) .builder u := by
    refine ⟨rfl, rfl, rfl, rfl, rfl, units_idleAssignTo .builder, fun v => update_apply .., fun v => ?_⟩
    rw [and_iff_left rfl, or_comm]
    exact mem_insert
  have hoff : ¬ OnGuard s u := fun ⟨k, _, hmem⟩ => hu.notMem hi k hmem
  refine ⟨⟨⟨{ hi.wf.shape with }, hfin.assigned hi hu hteam, { hi.wf.lists with }, he.books hi.wf.shape hi.wf.books⟩,
    fun k => he.linked (hi.linked k)⟩, he.settled h.settled, ?_, fun v hv r hr => ?_, fun hl => ?_, fun v hv => ?_,
    fun v hv t ht hk hm' => ?_⟩
  · rw [activePower_finishWorker h hu, ← h.power]
    rfl
  · rw [Placed, he.onGuard]
    change v ∈ (if g.isRespRole u r = true then _ else _ : SRoleInfo U).units ↔ _
    rcases eq_or_ne v u with rfl | hne
    · rw [if_pos hr]
      simp [hoff]
    · have hv' : v ∈ s.workers := (mem_insert.mp hv).resolve_left hne
      refine Iff.trans ?_ (h.placed v hv' r hr)
      split_ifs
      · exact ⟨fun h' => (mem_insert.mp h').resolve_left hne, mem_insert_of_mem⟩
      · exact Iff.rfl
  · rw [he.pullSum_eq hi.wf.shape]
    exact h.pull hl
  · rcases mem_insert.mp hv with rfl | hv'
    · exact hm
    · exact h.builder v hv'
  · rw [hfin.workers]
    rcases eq_or_ne v u with rfl | hvu
    · exact .inr ⟨rfl, rfl⟩
    · rw [hfin.task, if_neg hvu] at ht
      exact .inl (h.finished v hv t ht hk hm')

end Finish

/-! ## Destroyed units -/

structure Destroys (s s' : State U ρ) (m : Manager) (u : U) : Prop where
  tasks : s'.tasks = s.tasks
  nextTask : s'.nextTask = s.nextTask
  teamUnits : s.teamUnits.erase u ⊆ s'.teamUnits
  task : s'.task = s.task
  isLateFallback : s'.isLateFallback = s.isLateFallback
  updateUnits : s'.updateUnits =
    if m = .builder ∧ u ∈ s.units (idleTask m) then s.updateUnits.erase u else s.updateUnits
  units : ∀ k, s'.units k = if k = idleTask m then (s.units k).erase u else s.units k
  workers : s'.workers = s.workers.erase u

theorem Destroys.assigned {m : Manager} (he : Destroys s s' m u) (hi : Inv g s) (htask : s.task u = some (idleTask m)) :
    Assigned s' := by
  have ha := hi.wf.assigned
  have hidle := hi.wf.shape.idle m
  have hinj : idleTask .builder = idleTask m → m = .builder := by cases m <;> decide
  obtain ⟨htasks, hnext, htm, htask', hl, hup, hunits, hworkers⟩ := he
  constructor
  · intro v k; have := ha.lt v k; grind
  · intro k; have := ha.nil k; grind
  · intro k v; have := ha.pointer k v; grind
  · intro v k; have := ha.member v k; grind
  · intro k v; have := ha.worker k v; have := ha.pointer k v; grind
  · intro v; have := ha.task v; grind
  · intro v hv; have := @ha.team v; have := @htm v; grind
  · intro k; have := ha.single k; grind
  · have := ha.update; have := hunits (idleTask .builder); grind
  · have := ha.idle; grind

theorem units_idleRemoveAssignee (m : Manager) (k : ℕ) :
    (s.idleRemoveAssignee m u).units k = if k = idleTask m then (s.units k).erase u else s.units k := by
  change update s.units (idleTask m) _ k = _
  rw [update_apply]
  split_ifs with hk
  · rw [hk]
  · rfl

section Destroy

variable (h : Good g s) {m : Manager} (htask : s.task u = some (idleTask m))

include h htask in
theorem Good.destroyFighter (hm : g.manager u ≠ some .builder) : Good g (s.idleRemoveAssignee m u) := by
  have hi := h.inv
  have he : Idles s (s.idleRemoveAssignee m u) := idles_update hi.wf.shape ..
  have hd : Destroys s (s.idleRemoveAssignee m u) m u :=
    ⟨rfl, rfl, erase_subset .., rfl, rfl, rfl, units_idleRemoveAssignee m,
      (erase_eq_of_notMem fun hu => hm (h.builder u hu)).symm⟩
  refine ⟨⟨⟨{ hi.wf.shape with }, hd.assigned hi htask, { hi.wf.lists with }, he.books hi.wf.shape hi.wf.books⟩,
    fun k => he.linked (hi.linked k)⟩, he.settled h.settled, ?_, fun v hv r hr => ?_, fun hl => ?_, h.builder, h.finished⟩
  · have hsum : activePower g (s.idleRemoveAssignee m u) = activePower g s := activePower_congr rfl fun v _ => he.onGuard v
    rw [hsum]
    exact h.power
  · rw [Placed, he.onGuard]
    exact h.placed v hv r hr
  · rw [he.pullSum_eq hi.wf.shape]
    exact h.pull hl

abbrev destroyWorker (g : Game U ρ) (s : State U ρ) (m : Manager) (u : U) : State U ρ :=
  { (s.idleRemoveAssignee m u).delBuildPower g u with
    workers := s.workers.erase u, teamUnits := s.teamUnits.erase u }

theorem idles_destroyWorker (hs : Shape s) (m : Manager) : Idles s (destroyWorker g s m u) :=
  ⟨by repeat' constructor, rfl, rfl, fun _ hk => update_of_ne (hs.ne_idle hk _) ..⟩

include h htask in
theorem activePower_destroyWorker (hu : u ∈ s.workers) :
    activePower g (destroyWorker g s m u) = activePower g s - g.buildSpeed u := by
  classical
  have hs := h.inv.wf.shape
  have he := idles_destroyWorker h.inv.wf.shape (g := g) (u := u) m
  have hoff : ¬ OnGuard s u := by
    rintro ⟨k, hk, hmem⟩
    rw [h.inv.wf.assigned.pointer k u hmem, Option.some_inj] at htask
    exact hs.ne_idle_of_builder hk m htask
  have hfilter : (s.workers.erase u).filter (fun v => ¬ OnGuard (destroyWorker g s m u) v) =
      (s.workers.filter fun v => ¬ OnGuard s v).erase u := by
    ext v
    simp only [mem_filter, mem_erase, he.onGuard, and_assoc]
  have hmem : u ∈ s.workers.filter fun v => ¬ OnGuard s v := mem_filter.mpr ⟨hu, hoff⟩
  change ∑ v ∈ (s.workers.erase u).filter (fun v => ¬ OnGuard (destroyWorker g s m u) v), g.buildSpeed v = _
  rw [hfilter, sum_erase_eq_sub hmem]
  rfl

include h htask in
theorem Good.destroyWorker (hteam : u ∈ s.teamUnits) (hm : g.manager u = some .builder) :
    Good g (destroyWorker g s m u) := by
  have hi := h.inv
  have he := idles_destroyWorker hi.wf.shape (g := g) (u := u) m
  have hd : Destroys s (TaskRuns.destroyWorker g s m u) m u :=
    ⟨rfl, rfl, Finset.Subset.refl _, rfl, rfl, rfl, units_idleRemoveAssignee m, rfl⟩
  have hu : u ∈ s.workers := by
    refine h.finished u hteam _ htask ?_ hm
    rw [hi.wf.shape.kind_idle]
    exact nofun
  have hne : ∀ v ∈ s.workers.erase u, v ≠ u ∧ v ∈ s.workers := fun v hv => mem_erase.mp hv
  refine ⟨⟨⟨{ hi.wf.shape with }, hd.assigned hi htask, { hi.wf.lists with }, he.books hi.wf.shape hi.wf.books⟩,
    fun k => he.linked (hi.linked k)⟩, he.settled h.settled, ?_, fun v hv r hr => ?_, fun hl => ?_,
    fun v hv => h.builder v (hne v hv).2, fun v hv t ht hk hm' => ?_⟩
  · rw [activePower_destroyWorker h htask hu, ← h.power]
    rfl
  · rw [Placed, he.onGuard]
    change v ∈ (if g.isRespRole u r = true then _ else _ : SRoleInfo U).units ↔ _
    refine Iff.trans ?_ (h.placed v (hne v hv).2 r hr)
    split_ifs
    · exact ⟨mem_of_mem_erase, fun h' => mem_erase.mpr ⟨(hne v hv).1, h'⟩⟩
    · exact Iff.rfl
  · rw [he.pullSum_eq hi.wf.shape]
    exact h.pull hl
  · obtain ⟨hvu, hv'⟩ := mem_erase.mp hv
    exact mem_erase.mpr ⟨hvu, h.finished v hv' t ht hk hm'⟩

theorem Good.leave (h : Good g s) (hu : u ∉ s.workers) : Good g { s with teamUnits := s.teamUnits.erase u } := by
  refine { h with
    inv := ⟨⟨{ h.inv.wf.shape with }, { h.inv.wf.assigned with team := fun v hv => ?_ }, { h.inv.wf.lists with },
      { h.inv.wf.books with }⟩, fun k => { h.inv.linked k with }⟩
    finished := fun v hv => h.finished v (mem_of_mem_erase hv) }
  refine mem_erase.mpr ⟨?_, h.inv.wf.assigned.team hv⟩
  rintro rfl
  exact hu hv

end Destroy

/-! ## Handlers -/

theorem removeNil_spec (hk : s.kind t = .nil) : Ensures (run g n (.removeAssignee t u)) s fun _ s' => s' = s := by
  cases n with
  | zero => exact .fail
  | succ n =>
    refine .read_seq ?_
    rw [hk]
    exact .ret rfl

theorem removeIdle_spec (hk : s.kind t = .idle) :
    Ensures (run g n (.removeAssignee t u)) s fun _ s' => s' = s.idleRemoveAssignee (s.manager t) u := by
  cases n with
  | zero => exact .fail
  | succ n =>
    refine .read_seq ?_
    rw [hk]
    exact .write rfl

inductive Dropped (g : Game U ρ) (s : State U ρ) (u : U) : Bool → State U ρ → Prop
  | unfinished (t : ℕ) (htask : s.task u = some t) (hk : s.kind t = .nil) : Dropped g s u false s
  | finished (s₁ : State U ρ) (m : Manager) (hi : Inv g s₁) (hf : Frame g s s₁) (htask : s₁.task u = some (idleTask m)) :
    Dropped g s u true (s₁.idleRemoveAssignee m u)

theorem destroyedHandler_spec (h : Good g s) :
    Ensures (destroyedHandler g n u) s fun isFinished s' => Dropped g s u isFinished s' := by
  refine .read_seq ?_
  split
  · exact .fail
  · rename_i t htask
    refine .seq (onUnitDestroyed_spec (contract_run g n) h.inv h.settled htask) fun _ s₁ hl => .read_seq ?_
    have hlt := h.inv.wf.assigned.lt u t htask
    by_cases hnil : s.kind t = .nil
    · obtain rfl := hl.same (.inl hnil)
      rw [htask]
      refine .seq (removeNil_spec hnil) fun _ s₂ hs₂ => .ret ?_
      rw [hs₂, show decide (s₁.kind t ≠ .nil) = false by simpa using hnil]
      exact .unfinished t htask hnil
    · obtain ⟨m, htask₁⟩ : ∃ m, s₁.task u = some (idleTask m) := by
        by_cases hidle : s.kind t = .idle
        · obtain rfl := hl.same (.inr hidle)
          exact ⟨_, by rw [htask, h.inv.wf.shape.eq_idle t hidle]⟩
        · exact ⟨_, hl.task hnil hidle⟩
      rw [htask₁]
      refine .seq (removeIdle_spec (hl.inv.wf.shape.kind_idle m)) fun _ s₂ hs₂ => .ret ?_
      rw [hs₂, State.manager, hl.inv.wf.shape.idle, show decide (s.kind t ≠ .nil) = true by simpa using hnil]
      exact .finished s₁ m hl.inv hl.frame htask₁

end Circuit.Spec.TaskRuns
