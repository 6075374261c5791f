import CircuitAI.Proof.UnitTasks.Starting

/-!
# Updates and events of the tasks

What managers call on the task of a unit: `Update`, and the handlers of the events that the unit has. All of them start
where stopped tasks have no assignees (`Settled`), so that the task of a unit that is no nil task and no idle task lives
(`Settled.startable`), and all of them keep the invariant and the frame.
-/

set_option linter.unusedSectionVars false

namespace Circuit.Spec.TaskRuns

open Framework Impl.UnitTasks Function List Finset Option Bool

variable {U ρ : Type} [DecidableEq U] {g : Game U ρ} {s s' s'' : State U ρ} {t : ℕ} {u : U}
  {call : Proc U → M U ρ Unit}

theorem Settled.live (hs : Settled s) (hk : s.kind t ≠ .idle) (hu : u ∈ s.units t) : s.isDead t = false := by
  refine eq_false_iff.mpr fun hd => ?_
  rw [hs t hk hd] at hu
  exact notMem_empty u hu

theorem Settled.startable (hs : Settled s) (hi : Inv g s) (hk : s.kind t ≠ .nil ∧ s.kind t ≠ .idle)
    (htask : s.task u = some t) : Startable g s t u := by
  have hu : u ∈ s.units t := ((hi.wf.assigned.member u t htask).resolve_left hk.1).resolve_left hk.2
  exact ⟨hi, hu, hs.live hk.2 hu⟩

theorem askUnit_seq {β : Type} {units : Finset U} {f : U → M U ρ β} {Q : β → State U ρ → Prop}
    (h : ∀ u ∈ units, Ensures (f u) s Q) : Ensures (askUnit units >>= f) s Q := by
  refine .ask_seq fun x u hu => ?_
  cases x with
  | unit v =>
    simp only [ite_none_right_eq_some, some.injEq] at hu
    obtain ⟨hv, rfl⟩ := hu
    exact h v hv
  | _ => cases hu

/-! ## `IBuilderTask::Update` -/

structure Travelling (g : Game U ρ) (s s' : State U ρ) (t : ℕ) (l : List U) : Prop where
  inv : Inv g s'
  frame : Frame g s s'
  nodup : l.Nodup
  mem : ∀ v ∈ l, v ∈ s.units t
  live : s'.isDead t = false → ∀ v ∈ l, v ∈ s'.units t

section BuilderUpdate

variable (hc : Contract g call) (hi : Inv g s) (hs : Settled s) {bt : BuildType} (hk : s.kind t = .builder bt)

include hc hi hs hk in
theorem travelling_step {l : List U} (h : Travelling g s s' t (u :: l)) :
    Ensures (execute g call t u) s' fun _ s'' => Travelling g s s'' t l := by
  have hu : u ∈ s.units t := h.mem u mem_cons_self
  have hlt : t < s.nextTask := hi.lt_of_mem hu
  have hworker : u ∈ s'.workers := by
    rw [h.frame.workers]
    exact hi.wf.assigned.worker t u hu (hi.wf.shape.manager t bt hk)
  have hx : Executable g s' t u := by
    refine ⟨h.inv, hlt.trans_le h.frame.next, fun hd => h.live hd u mem_cons_self, fun _ => ?_⟩
    exact ⟨⟨bt, by rw [h.frame.kind hlt, hk]⟩, hworker, h.frame.settle hs⟩
  refine (execute_spec hc hx).mono fun _ s'' hpost => ?_
  refine ⟨hpost.inv, h.frame.trans hpost.frame, h.nodup.of_cons, fun v hv => h.mem v (mem_cons_of_mem u hv),
    fun hd v hv => ?_⟩
  have hd' : s'.isDead t = false := by
    refine eq_false_iff.mpr fun hdead => ?_
    rw [hpost.frame.dead t hx.lt hdead] at hd
    cases hd
  refine hpost.keeps (.inl hd) (mem_erase.mpr ⟨?_, h.live hd' v (mem_cons_of_mem u hv)⟩)
  rintro rfl
  exact (nodup_cons.mp h.nodup).1 hv

theorem Inv.arrived (hi : Inv g s) : Inv g { s with traveled := update s.traveled t ∅ } := by
  refine ⟨⟨{ hi.wf.shape with }, { hi.wf.assigned with }, { hi.wf.lists with }, { hi.wf.books with traveled := ?_ }⟩,
    fun k => { hi.linked k with }⟩
  intro k bt hk hd
  change update s.traveled t ∅ k ⊆ s.units k
  rw [update_apply]
  split_ifs
  · exact empty_subset _
  · exact hi.wf.books.traveled k bt hk hd

include hc hi hs hk in
theorem builderUpdate_spec (hlt : t < s.nextTask) (hlive : s.isDead t = false) :
    Ensures (builderUpdate g call t) s fun _ s' => Inv g s' ∧ Frame g s s' := by
  refine .read_seq <| askOrder_seq fun l hnodup hl => ?_
  have hmem : ∀ v ∈ l, v ∈ s.units t := by
    intro v hv
    refine hi.wf.books.traveled t bt hk hlive ?_
    rw [← hl]
    exact mem_toFinset.mpr hv
  refine .seq (Ensures.forEach (I := fun l s' => Travelling g s s' t l) (fun u l s' => travelling_step hc hi hs hk)
    ⟨hi, .refl g s, hnodup, hmem, fun _ => hmem⟩) fun _ s₁ h => ?_
  have hf : Frame g s { s₁ with traveled := update s₁.traveled t ∅ } :=
    h.frame.trans { Frame.refl g s₁ with }
  refine .write_seq <| .read_seq <| .when (fun _ => askUnit_seq fun u hu => ?_) fun _ => ⟨h.inv.arrived, hf⟩
  have hk' : s₁.kind t = .builder bt := by rw [h.frame.kind hlt, hk]
  have hlive' : s₁.isDead t = false := (h.frame.settle hs).live (hk'.trans_ne nofun) hu
  refine (updateUnit_spec hc ⟨h.inv.arrived, hu, hlive'⟩ hk').mono fun _ s' hpost => ?_
  exact ⟨hpost.1, hf.trans hpost.2⟩

include hc hi hs hk in
theorem sensorUpdate_spec (hlt : t < s.nextTask) (hlive : s.isDead t = false) :
    Ensures (sensorUpdate g call t) s fun _ s' => Inv g s' ∧ Frame g s s' := by
  refine .seq (builderUpdate_spec hc hi hs hk hlt hlive) fun _ s₁ h => .read_seq <| .when (fun hd => ?_) fun _ => h
  refine askFlag_seq fun isBuilt => .when (fun _ => ?_) fun _ => h
  have hd' : s₁.isDead t = false := by
    rw [and_eq_true, not_eq_true'] at hd
    exact hd.1
  exact hc.dequeue h.2 (h.1.stoppable_builder (hlt.trans_le h.2.next) ((h.2.kind hlt).trans hk)
    (h.1.wf.books.balanced t hd'))

end BuilderUpdate

/-! ## Other updates -/

structure Remaining (g : Game U ρ) (s s' : State U ρ) (t : ℕ) (l : List U) : Prop where
  inv : Inv g s'
  frame : Frame g s s'
  nodup : l.Nodup
  mem : ∀ v ∈ l, v ∈ s'.units t

namespace Remaining

variable {l : List U} (h : Remaining g s s' t (u :: l)) (hlt : t < s.nextTask) (hlive : s.isDead t = false)
  (hk : s.kind t ≠ .idle)

include h hlt hlive hk in
theorem startable : Startable g s' t u := by
  have hu := h.mem u mem_cons_self
  refine ⟨h.inv, hu, eq_false_iff.mpr fun hd => ?_⟩
  obtain ⟨-, hd', -⟩ := h.frame.settled t (by rw [h.frame.kind hlt]; exact hk) hd (ne_empty_of_mem hu)
  rw [hlive] at hd'
  cases hd'

include h in
theorem next (hi : Inv g s'') (hf : Frame g s' s'') (hkeep : (s'.units t).erase u ⊆ s''.units t) :
    Remaining g s s'' t l := by
  refine ⟨hi, h.frame.trans hf, h.nodup.of_cons, fun v hv => hkeep (mem_erase.mpr ⟨?_, ?_⟩)⟩
  · rintro rfl
    exact (nodup_cons.mp h.nodup).1 hv
  · exact h.mem v (mem_cons_of_mem u hv)

end Remaining

theorem update_spec (hc : Contract g call) (hi : Inv g s) (hs : Settled s) (hlt : t < s.nextTask)
    (hlive : s.isDead t = false) : Ensures (update g call t) s fun _ s' => Inv g s' ∧ Frame g s s' := by
  have hremaining : ∀ l : List U, l.Nodup → l.toFinset = s.units t → Remaining g s s t l := fun l hnodup hl =>
    ⟨hi, .refl g s, hnodup, fun v hv => by rw [← hl]; exact mem_toFinset.mpr hv⟩
  refine .read_seq ?_
  split
  · exact .ret ⟨hi, .refl g s⟩
  · exact .ret ⟨hi, .refl g s⟩
  · rename_i hk
    exact .when (fun _ => builderUpdate_spec hc hi hs hk hlt hlive) fun _ => ⟨hi, .refl g s⟩
  · rename_i hk
    exact sensorUpdate_spec hc hi hs hk hlt hlive
  · rename_i hk
    exact sensorUpdate_spec hc hi hs hk hlt hlive
  · rename_i hk
    exact builderUpdate_spec hc hi hs hk hlt hlive
  · rename_i hk
    have hidle : s.kind t ≠ .idle := hk.trans_ne nofun
    refine askFlag_seq fun isExecute => askOrder_seq fun l hnodup hl => .when (fun _ => ?_) fun _ => ⟨hi, .refl g s⟩
    refine (Ensures.forEach (I := fun l s' => Remaining g s s' t l) (fun u l s' h => ?_)
      (hremaining l hnodup hl)).mono fun _ s' h => ⟨h.inv, h.frame⟩
    refine (execute_spec hc (h.startable hlt hlive hidle).executable).mono fun _ s'' hx => ?_
    exact h.next hx.inv hx.frame (hx.keeps (.inr (by rw [h.frame.kind hlt, hk])))
  · rename_i hk
    have hidle : s.kind t ≠ .idle := hk.trans_ne nofun
    refine askOrder_seq fun l hnodup hl => ?_
    refine (Ensures.forEach (I := fun l s' => Remaining g s s' t l) (fun u l s' h => ?_)
      (hremaining l hnodup hl)).mono fun _ s' h => ⟨h.inv, h.frame⟩
    have hkind : s'.kind t = .retreat := by rw [h.frame.kind hlt, hk]
    refine askFlag_seq fun isRepaired => .when (fun _ => ?_) fun _ => ?_
    · have hrem := (h.startable hlt hlive hidle).removable (hkind.trans_ne nofun)
      refine (hc (.removeAssignee t u) s' hrem).mono fun _ s'' hr => h.next hr.inv hr.frame ?_
      rw [hr.units (hkind.trans_ne nofun)]
    · exact h.next h.inv (.refl g s') (erase_subset ..)
  · exact .ret ⟨hi, .refl g s⟩

/-! ## Retreating -/

theorem Made.assignable {m : Manager} {t₀ : ℕ} (h : Made s s' t { manager := m, kind := .retreat } none false)
    (hlt : t₀ < s.nextTask) (hk : s.kind t₀ ≠ .retreat) (hm : s.manager t₀ = m) : Assignable s' t₀ t u where
  retreat₀ := by
    rw [(h.grown.old t₀ (.inl hlt)).kind]
    exact hk
  ne := by
    rw [h.eq]
    exact hlt.ne'
  lt := h.lt
  live := h.new.isDead
  kind := h.new.kind
  manager := by rw [(h.grown.old t₀ (.inl hlt)).manager, State.manager, h.tasks, hm]
  retreat _ := h.new.units

theorem Startable.grown (h : Startable g s t u) (hg : Grown s s') : Startable g s' t u := by
  have hold := hg.old t (.inl (h.inv.lt_of_mem h.mem))
  refine ⟨hg.inv h.inv, ?_, ?_⟩
  · rw [hold.units]
    exact h.mem
  · rw [hold.isDead, h.live]

theorem retreat_assign_spec (hc : Contract g call) (h : Startable g s t u) (hk : s.kind t ≠ .retreat ∧ s.kind t ≠ .idle) :
    Ensures (enqueueRetreat (s.manager t) >>= fun t' => assignTask g call u t') s fun _ s' =>
      Inv g s' ∧ Frame g s s' ∧ Balanced g s' t := by
  have hlt := h.inv.lt_of_mem h.mem
  refine .seq (newTask_unlisted ⟨nofun, nofun, nofun⟩ (.inr fun _ => nofun) rfl)
    fun t' s₁ hm => ?_
  have hrem : Removable g s₁ t u := by
    refine (h.grown hm.grown).removable ?_
    rw [(hm.grown.old t (.inl hlt)).kind]
    exact hk.2
  refine (assignTask_spec hc hrem (hm.assignable hlt hk.1 rfl)).mono fun _ s' hpost => ?_
  refine ⟨hpost.1, (hm.grown.frame h.inv.wf.assigned).trans hpost.2.1, (hpost.2.2 (.inr ?_)).balanced⟩
  rw [State.kind, hm.tasks]

section Events

variable (hc : Contract g call) (h : Startable g s t u)

include hc h in
theorem retreat_spec (hk : s.kind t ≠ .retreat ∧ s.kind t ≠ .idle) (hm : s.manager t = .builder) :
    Ensures (retreat g call u) s fun _ s' => Inv g s' ∧ Frame g s s' ∧ Balanced g s' t := by
  have hspec := retreat_assign_spec hc h hk
  rw [hm] at hspec
  exact hspec

/-! ## Events -/

include hc h in
theorem Startable.dequeue_spec (done : Bool) (hk : s.kind t ≠ .idle) :
    Ensures (call (.dequeueTask t done)) s fun _ s' => Inv g s' ∧ Frame g s s' := by
  have hst := h.inv.stoppable_live (h.inv.lt_of_mem h.mem) h.live ⟨h.inv.ne_nil_of_mem h.mem, hk⟩
  exact hc.dequeue (.refl g s) hst

include hc h in
theorem Startable.remove_spec (hk : s.kind t ≠ .idle) :
    Ensures (call (.removeAssignee t u)) s fun _ s' => Inv g s' ∧ Frame g s s' :=
  (hc (.removeAssignee t u) s (h.removable hk)).mono fun _ _ hr => ⟨hr.inv, hr.frame⟩

include hc h in
theorem builderOnUnitIdle_spec {bt : BuildType} (hk : s.kind t = .builder bt) :
    Ensures (builderOnUnitIdle g call t u) s fun _ s' => Inv g s' ∧ Frame g s s' := by
  have hsame : Same s { s with buildFails := update s.buildFails t (s.buildFails t + 1) } := { Same.refl s with }
  have hf : Frame g s { s with buildFails := update s.buildFails t (s.buildFails t + 1) } := hsame.frame rfl rfl rfl
  have hst : Startable g { s with buildFails := update s.buildFails t (s.buildFails t + 1) } t u :=
    ⟨hsame.inv h.inv, h.mem, h.live⟩
  have hidle : s.kind t ≠ .idle := hk.trans_ne nofun
  refine .write_seq <| .read_seq ?_
  split_ifs
  · exact (execute_spec hc hst.executable).mono fun _ s' hx => ⟨hx.inv, hf.trans hx.frame⟩
  · exact (hst.remove_spec hc hidle).mono fun _ s' hr => ⟨hr.1, hf.trans hr.2⟩
  · refine .when (fun _ => ?_) fun _ => ⟨hst.inv, hf⟩
    exact (hst.dequeue_spec hc false hidle).mono fun _ s' hst' => ⟨hst'.1, hf.trans hst'.2⟩

include hc h in
theorem Startable.assign_spec {d : ℕ} (hk : s.kind t ≠ .retreat ∧ s.kind t ≠ .idle) (hm : s.manager t = .builder)
    (hd : Choosable s d) (hne : d ≠ t) : Ensures (assignTask g call u d) s fun _ s' => Inv g s' ∧ Frame g s s' :=
  (assignTask_spec hc (h.removable hk.2) (hd.assignable hk.1 hm hne)).mono fun _ _ hpost => ⟨hpost.1, hpost.2.1⟩

include hc h in
theorem mexOnUnitIdle_spec (hk : s.kind t = .builder .mex) :
    Ensures (mexOnUnitIdle g call t u) s fun _ s' => Inv g s' ∧ Frame g s s' := by
  have hlt := h.inv.lt_of_mem h.mem
  have hm : s.manager t = .builder := h.inv.wf.shape.manager t _ hk
  have hkind : s.kind t ≠ .retreat ∧ s.kind t ≠ .idle := ⟨hk.trans_ne nofun, hk.trans_ne nofun⟩
  -- a new defence task
  have hnew : Ensures (enqueueTask .defence >>= fun d => assignTask g call u d) s fun _ s' => Inv g s' ∧ Frame g s s' := by
    refine .seq (enqueueTask_spec rfl) fun d s₁ hpost => ?_
    obtain ⟨hg, hd, hge⟩ := hpost
    have hold := hg.old t (.inl hlt)
    refine ((h.grown hg).assign_spec hc (by rw [hold.kind]; exact hkind) (by rw [hold.manager, hm]) hd ?_).mono
      fun _ s' h' => ⟨h'.1, (hg.frame h.inv.wf.assigned).trans h'.2⟩
    rintro rfl
    exact absurd hlt hge.not_gt
  refine askFlag_seq fun isBlocked => ?_
  split_ifs
  · refine .ask_seq fun _ choice _ => ?_
    cases choice with
    | nothing => exact hnew
    | request r => exact hnew
    | listed d =>
      refine .read_seq ?_
      split_ifs with hdef
      · refine h.assign_spec hc hkind hm (h.inv.wf.lists.choosable h.inv.wf.shape hdef.1) ?_
        rintro rfl
        rw [hk] at hdef
        cases hdef.2
      · exact .fail
  · exact builderOnUnitIdle_spec hc h hk

include hc h in
theorem builderOnUnitDamaged_spec {bt : BuildType} (hk : s.kind t = .builder bt) :
    Ensures (builderOnUnitDamaged g call t u) s fun _ s' => Inv g s' ∧ Frame g s s' := by
  have hlt := h.inv.lt_of_mem h.mem
  have hkind : s.kind t ≠ .retreat ∧ s.kind t ≠ .idle := ⟨hk.trans_ne nofun, hk.trans_ne nofun⟩
  refine askFlag_seq fun isRetreat => .when (fun _ => ?_) fun _ => ⟨h.inv, .refl g s⟩
  refine .seq (retreat_spec hc h hkind (h.inv.wf.shape.manager t bt hk)) fun _ s₁ hpost => ?_
  obtain ⟨hi, hf, hb⟩ := hpost
  refine .read_seq <| .when (fun _ => ?_) fun _ => ⟨hi, hf⟩
  -- the task may be stopped already, but it is no retreat task
  exact hc.dequeue hf (hi.stoppable_builder (hlt.trans_le hf.next) ((hf.kind hlt).trans hk) hb)

end Events

section Handlers

variable (hc : Contract g call) (hi : Inv g s) (hs : Settled s) (htask : s.task u = some t)

include hc hi hs htask in
theorem onUnitIdle_spec (hm : s.kind t ≠ .nil → s.manager t = .builder) :
    Ensures (onUnitIdle g call t u) s fun _ s' => Inv g s' ∧ Frame g s s' := by
  have hnone : Inv g s ∧ Frame g s s := ⟨hi, .refl g s⟩
  have hbuilder : ∀ bt, s.kind t = .builder bt → Startable g s t u ∧ s.kind t ≠ .idle := by
    intro bt hk
    have hkind : s.kind t ≠ .nil ∧ s.kind t ≠ .idle := ⟨hk.trans_ne nofun, hk.trans_ne nofun⟩
    exact ⟨hs.startable hi hkind htask, hkind.2⟩
  refine .read_seq ?_
  split
  · rename_i hk
    obtain ⟨h, hidle⟩ := hbuilder _ hk
    refine askFlag_seq fun isDamaged => ?_
    split_ifs
    · exact h.remove_spec hc hidle
    · exact h.dequeue_spec hc true hidle
  · rename_i hk
    obtain ⟨h, hidle⟩ := hbuilder _ hk
    exact askFlag_seq fun isVip => .when (fun _ => h.dequeue_spec hc false hidle) fun _ => hnone
  · rename_i hk
    obtain ⟨h, hidle⟩ := hbuilder _ hk
    exact h.dequeue_spec hc false hidle
  · rename_i hk
    obtain ⟨h, hidle⟩ := hbuilder _ hk
    refine askFlag_seq fun isNear => ?_
    split_ifs
    · exact h.dequeue_spec hc true hidle
    · exact builderOnUnitIdle_spec hc h hk
  · rename_i hk
    exact mexOnUnitIdle_spec hc (hbuilder _ hk).1 hk
  · rename_i hk
    exact builderOnUnitIdle_spec hc (hbuilder _ hk).1 hk
  · rename_i hk
    have hkind : s.kind t ≠ .nil ∧ s.kind t ≠ .retreat ∧ s.kind t ≠ .idle := ⟨hk.trans_ne nofun, hk.trans_ne nofun, hk.trans_ne nofun⟩
    refine askFlag_seq fun isCoward => .when (fun _ => ?_) fun _ => hnone
    exact (retreat_spec hc (hs.startable hi ⟨hkind.1, hkind.2.2⟩ htask) hkind.2 (hm hkind.1)).mono
      fun _ s' h => ⟨h.1, h.2.1⟩
  · exact .ret hnone

include hc hi hs htask in
theorem onUnitDamaged_spec (hm : s.kind t ≠ .nil → s.manager t = .builder) :
    Ensures (onUnitDamaged g call t u) s fun _ s' => Inv g s' ∧ Frame g s s' := by
  have hnone : Inv g s ∧ Frame g s s := ⟨hi, .refl g s⟩
  have hretreat : s.kind t ≠ .nil ∧ s.kind t ≠ .retreat ∧ s.kind t ≠ .idle →
      Ensures (retreat g call u) s fun _ s' => Inv g s' ∧ Frame g s s' := fun hkind =>
    (retreat_spec hc (hs.startable hi ⟨hkind.1, hkind.2.2⟩ htask) hkind.2 (hm hkind.1)).mono fun _ s' h => ⟨h.1, h.2.1⟩
  refine .read_seq ?_
  split
  · rename_i hk
    refine askFlag_seq fun isRetreat => .when (fun _ => hretreat ?_) fun _ => hnone
    exact ⟨hk.trans_ne nofun, hk.trans_ne nofun, hk.trans_ne nofun⟩
  · rename_i hk
    refine askFlag_seq fun isRetreat => .when (fun _ => hretreat ?_) fun _ => hnone
    exact ⟨hk.trans_ne nofun, hk.trans_ne nofun, hk.trans_ne nofun⟩
  · rename_i hk
    refine builderOnUnitDamaged_spec hc (hs.startable hi ?_ htask) hk
    exact ⟨hk.trans_ne nofun, hk.trans_ne nofun⟩
  · rename_i hk
    refine askFlag_seq fun isRetreat => askFlag_seq fun isHeavy => ?_
    split_ifs
    · refine hretreat ?_
      exact ⟨hk.trans_ne nofun, hk.trans_ne nofun, hk.trans_ne nofun⟩
    · refine .when (fun _ => .seq (enqueueRepair_spec hi.wf.shape hi.wf.lists) fun _ s' hpost => .ret ?_) fun _ => hnone
      exact ⟨hpost.1.inv hi, hpost.1.frame hi.wf.assigned⟩
  · exact .ret hnone

structure Left (g : Game U ρ) (s s' : State U ρ) (t : ℕ) (u : U) : Prop where
  inv : Inv g s'
  frame : Frame g s s'
  same : s.kind t = .nil ∨ s.kind t = .idle → s' = s
  task : s.kind t ≠ .nil → s.kind t ≠ .idle → s'.task u = some (idleTask (s.manager t))

theorem Removed.left (h : Removed g s s' t u) (hk : s.kind t ≠ .nil ∧ s.kind t ≠ .idle) : Left g s s' t u where
  inv := h.inv
  frame := h.frame
  same hk' := (hk'.elim hk.1 hk.2).elim
  task _ _ := h.task

include hc hi hs htask in
theorem onUnitDestroyed_spec : Ensures (onUnitDestroyed call t u) s fun _ s' => Left g s s' t u := by
  have hremove : s.kind t ≠ .nil ∧ s.kind t ≠ .idle →
      Ensures (call (.removeAssignee t u)) s fun _ s' => Removed g s s' t u := fun hk =>
    hc (.removeAssignee t u) s ((hs.startable hi hk htask).removable hk.2)
  refine .read_seq ?_
  split
  · rename_i bt hk
    have hkind : s.kind t ≠ .nil ∧ s.kind t ≠ .idle := ⟨hk.trans_ne nofun, hk.trans_ne nofun⟩
    have hlt : t < s.nextTask := hi.wf.assigned.lt u t htask
    refine .seq (hremove hkind) fun _ s₁ hr => .read_seq <| askFlag_seq fun isMorphing => .when (fun _ => ?_) fun _ => ?_
    · have hk' : s₁.kind t = .builder bt := by rw [hr.frame.kind hlt, hk]
      have hst := hr.inv.stoppable_builder (hlt.trans_le hr.frame.next) hk' hr.balanced
      refine (hc (.dequeueTask t false) s₁ hst).mono fun _ s₂ hst' => ?_
      refine ⟨hst'.inv, hr.frame.trans hst'.frame, fun h => (h.elim hkind.1 hkind.2).elim, fun _ _ => ?_⟩
      have hout : u ∉ s₁.units t := by
        intro hu
        have hp := hr.inv.wf.assigned.pointer t u hu
        rw [hr.task, some_inj] at hp
        exact hi.wf.shape.ne_idle hkind.2 _ hp.symm
      rw [(hst'.aborted rfl (hk'.trans_ne nofun)).task u hout, hr.task]
    · exact hr.left hkind
  · rename_i hk
    have hkind : s.kind t ≠ .nil ∧ s.kind t ≠ .idle := ⟨hk.trans_ne nofun, hk.trans_ne nofun⟩
    exact (hremove hkind).mono fun _ s' hr => hr.left hkind
  · rename_i hk
    have hkind : s.kind t ≠ .nil ∧ s.kind t ≠ .idle := ⟨hk.trans_ne nofun, hk.trans_ne nofun⟩
    exact (hremove hkind).mono fun _ s' hr => hr.left hkind
  · rename_i hk
    have hkind : s.kind t ≠ .nil ∧ s.kind t ≠ .idle := ⟨hk.trans_ne nofun, hk.trans_ne nofun⟩
    exact (hremove hkind).mono fun _ s' hr => hr.left hkind
  · rename_i hb hw hr hf
    refine .ret ⟨hi, .refl g s, fun _ => rfl, fun hnil hidle => ?_⟩
    cases hk : s.kind t with
    | nil => exact absurd hk hnil
    | idle => exact absurd hk hidle
    | wait => exact absurd hk hw
    | retreat => exact absurd hk hr
    | fighter => exact absurd hk hf
    | builder bt => exact absurd hk (hb bt)

end Handlers

end Circuit.Spec.TaskRuns
