import CircuitAI.Proof.UnitTasks.Dequeue
import CircuitAI.Proof.UnitTasks.Removal

/-!
# `Execute`, `Reevaluate` and `Start`

A task is executed for its assignees while it lives. `IBuilderTask::Update` goes on executing it for the units that have
travelled after one of them has stopped it (`Executable`): a fallback then goes to whatever task the unit has, and an
abort takes the pull of the task off again. With `start_spec` every entry point keeps its contract (`contract_run`).
-/

set_option linter.unusedSectionVars false

namespace Circuit.Spec.TaskRuns

open Framework Impl.UnitTasks Function Finset Bool

variable {U ρ : Type} [DecidableEq U] {g : Game U ρ} {s s' s'' : State U ρ} {t : ℕ} {u : U}
  {call : Proc U → M U ρ Unit}

/-! ## History -/

variable {bt : BuildType}

abbrev late (s : State U ρ) (fallback abort : Bool) : State U ρ :=
  { s with isLateFallback := fallback, isLateAbort := abort }

section History

variable {fallback abort : Bool} (hf : s.isLateFallback = true → fallback = true)
  (ha : s.isLateAbort = true → abort = true)

include hf ha in
theorem Inv.late (hi : Inv g s) : Inv g (late s fallback abort) := by
  have hf' : fallback = false → s.isLateFallback = false := fun h => eq_false_iff.mpr fun h' => by simp [hf h'] at h
  have ha' : abort = false → s.isLateAbort = false := fun h => eq_false_iff.mpr fun h' => by simp [ha h'] at h
  refine ⟨⟨{ hi.wf.shape with }, { hi.wf.assigned with idle := ?_ }, { hi.wf.lists with idle := ?_ },
    { hi.wf.books with balanced := ?_ }⟩, fun k => { hi.linked k with }⟩
  · exact fun h => hi.wf.assigned.idle (hf' h)
  · exact fun h => hi.wf.lists.idle (hf' h)
  · exact fun k hd h => hi.wf.books.balanced k hd (ha' h)

include hf ha in
theorem frame_late : Frame g s (late s fallback abort) :=
  { Frame.refl g s with lateFallback := hf, lateAbort := ha, pull := fun _ => rfl }

end History

/-! ## `Execute` -/

structure Executable (g : Game U ρ) (s : State U ρ) (t : ℕ) (u : U) : Prop where
  inv : Inv g s
  lt : t < s.nextTask
  mem : s.isDead t = false → u ∈ s.units t
  stopped : s.isDead t = true → (∃ bt, s.kind t = .builder bt) ∧ u ∈ s.workers ∧ Settled s

structure Executed (g : Game U ρ) (s s' : State U ρ) (t : ℕ) (u : U) : Prop where
  inv : Inv g s'
  frame : Frame g s s'
  keeps : s'.isDead t = false ∨ s.kind t = .fighter → (s.units t).erase u ⊆ s'.units t

theorem Executed.refl (hi : Inv g s) : Executed g s s t u where
  inv := hi
  frame := .refl g s
  keeps _ := erase_subset ..

theorem Executed.of_dead (hi : Inv g s') (hf : Frame g s s') (hd : s'.isDead t = true)
    (hk : s.kind t = .builder bt) : Executed g s s' t u := by
  refine ⟨hi, hf, fun h => ?_⟩
  rcases h with h | h
  · rw [hd] at h
    cases h
  · rw [hk] at h
    cases h

theorem Startable.executable (h : Startable g s t u) : Executable g s t u where
  inv := h.inv
  lt := h.inv.lt_of_mem h.mem
  mem _ := h.mem
  stopped hd := by
    rw [h.live] at hd
    cases hd

abbrev lateAbort (s : State U ρ) (t : ℕ) : State U ρ :=
  late s s.isLateFallback (s.isLateAbort || (s.isDead t && (s.tasks t).isPull))

abbrev lateFallback (s : State U ρ) (t : ℕ) : State U ρ := late s (s.isLateFallback || s.isDead t) s.isLateAbort

namespace Executable

variable (h : Executable g s t u)

include h in
theorem stoppable (hk : s.kind t = .builder bt) : Stoppable g (lateAbort s t) t := by
  have hi : Inv g (lateAbort s t) := h.inv.late id fun hl => by rw [hl, Bool.true_or]
  refine hi.stoppable_builder h.lt hk fun hl hp => ?_
  obtain ⟨hl', hnot⟩ := or_eq_false_iff.mp hl
  have hp' : (s.tasks t).isPull = true := hp
  rw [hp', Bool.and_true] at hnot
  exact h.inv.wf.books.balanced t hnot hl' hp

include h in
theorem abort_spec (hc : Contract g call) (hk : s.kind t = .builder bt) :
    Ensures (abortTask call t) (lateAbort s t) fun _ s' => Executed g s s' t u := by
  refine (hc (.dequeueTask t false) _ (h.stoppable hk)).mono fun _ s' hst => ?_
  exact .of_dead hst.inv ((frame_late id fun hl => by rw [hl, Bool.true_or]).trans hst.frame) hst.isDead hk

include h in
theorem fallback_live (hc : Contract g call) (hk : s.kind t = .builder bt) (hd : s.isDead t = false) :
    Ensures (fallbackTask g call u) s fun _ s' => Executed g s s' t u := by
  have ha := h.inv.wf.assigned
  have hmem := h.mem hd
  have hm : s.manager t = .builder := h.inv.wf.shape.manager t bt hk
  have hst := h.inv.stoppable_builder h.lt hk (h.inv.wf.books.balanced t hd)
  refine (fallbackTask_spec hc (ha.pointer t u hmem) hst hm (ha.worker t u hmem hm)).mono fun _ s' hpost => ?_
  obtain ⟨hi, hf, hdead⟩ := hpost
  exact .of_dead hi hf hdead hk

include h in
theorem fallback_late (hc : Contract g call) (hk : s.kind t = .builder bt) (hd : s.isDead t = true) :
    Ensures (fallbackTask g call u) (late s true s.isLateAbort) fun _ s' => Executed g s s' t u := by
  have ha := h.inv.wf.assigned
  have hi : Inv g (late s true s.isLateAbort) := h.inv.late (fun _ => rfl) id
  have hf : Frame g s (late s true s.isLateAbort) := frame_late (fun _ => rfl) id
  obtain ⟨-, hu, hsettled⟩ := h.stopped hd
  obtain ⟨t₀, htask, hnil, hm⟩ := ha.task u hu
  have hlt : t₀ < s.nextTask := ha.lt u t₀ htask
  have hst : Stoppable g (late s true s.isLateAbort) t₀ := by
    by_cases hidle : s.kind t₀ = .idle
    · refine ⟨hi.wf, fun k _ => hi.linked k, fun hk' => ?_, hlt, hnil, nofun, .of_not_pull ?_⟩
      · rw [show s.kind t₀ = .retreat from hk'] at hidle
        cases hidle
      · refine hi.wf.shape.not_pull fun bt hbt => ?_
        rw [show s.kind t₀ = .builder bt from hbt] at hidle
        cases hidle
    · have hmem : u ∈ s.units t₀ := ((ha.member u t₀ htask).resolve_left hnil).resolve_left hidle
      refine hi.stoppable_live hlt (eq_false_iff.mpr fun hd₀ => ?_) ⟨hnil, hidle⟩
      rw [hsettled t₀ hidle hd₀] at hmem
      exact notMem_empty u hmem
  refine (fallbackTask_spec (s := late s true s.isLateAbort) hc htask hst hm hu).mono fun _ s' hpost => ?_
  have hf' := hf.trans hpost.2.1
  exact .of_dead hpost.1 hf' (hf'.dead t h.lt hd) hk

include h in
theorem fallback_spec (hc : Contract g call) (hk : s.kind t = .builder bt) :
    Ensures (fallbackTask g call u) (lateFallback s t) fun _ s' => Executed g s s' t u := by
  cases hd : s.isDead t with
  | false =>
    rw [lateFallback, hd, Bool.or_false]
    exact h.fallback_live hc hk hd
  | true =>
    rw [lateFallback, hd, Bool.or_true]
    exact h.fallback_late hc hk hd

end Executable

theorem builderExecute_spec (hc : Contract g call) (h : Executable g s t u) (hk : s.kind t = .builder bt) :
    Ensures (builderExecute g call t u) s fun _ s' => Executed g s s' t u := by
  refine .read_seq ?_
  split
  · exact .ret (.refl h.inv)
  · split_ifs
    · refine askFlag_seq fun isSite => .when (fun _ => ?_) fun _ => .refl h.inv
      exact .write_seq (h.fallback_spec hc hk)
    · exact .fail

theorem execute_spec (hc : Contract g call) (h : Executable g s t u) :
    Ensures (execute g call t u) s fun _ s' => Executed g s s' t u := by
  refine .read_seq ?_
  split
  · rename_i hk
    refine askFlag_seq fun isDamaged => ?_
    split_ifs
    · split
      · exact .ret (.refl h.inv)
      · rename_i r hr
        refine (checkRepairer_spec h.inv (kind_retreatOf hr)).mono fun _ s' hpost => ?_
        obtain ⟨hi, hq⟩ := hpost
        refine ⟨hi, hq.frame, fun _ => ?_⟩
        obtain ⟨c, q, b, rfl⟩ := hq
        exact erase_subset ..
    · exact .write_seq (h.abort_spec hc hk)
  · rename_i hk
    refine askFlag_seq fun isVip => .when (fun _ => ?_) fun _ => .refl h.inv
    have hnp : (s.tasks t).isPull = false := by
      refine eq_false_iff.mpr fun hp => ?_
      obtain ⟨bt, hbt, hguard, -⟩ := h.inv.wf.shape.pull_kind hp
      exact hguard (Kind.builder.inj (hbt.symm.trans hk))
    have habort := h.abort_spec hc hk
    rwa [lateAbort, hnp, Bool.and_false, Bool.or_false] at habort
  · exact .ret (.refl h.inv)
  · exact .ret (.refl h.inv)
  · rename_i bt _ _ _ _ hk
    exact builderExecute_spec hc h hk
  · rename_i hk
    refine askFlag_seq fun isTarget => .when (fun _ => ?_) fun _ => .refl h.inv
    have hlive : s.isDead t = false := by
      refine eq_false_iff.mpr fun hd => ?_
      obtain ⟨⟨bt, hbt⟩, -⟩ := h.stopped hd
      rw [hk] at hbt
      cases hbt
    have hrem : Removable g s t u := by
      refine Startable.removable ⟨h.inv, h.mem hlive, hlive⟩ ?_
      exact hk.trans_ne nofun
    refine (hc (.removeAssignee t u) s hrem).mono fun _ s' hr => ⟨hr.inv, hr.frame, fun _ => ?_⟩
    rw [hr.units (hk.trans_ne nofun)]
  · exact .ret (.refl h.inv)

/-! ## `Reevaluate` -/

theorem Grown.shown (h : Grown (s.hideAssignee g t u) s') (ht : t < s.nextTask) : Grown s (s'.showAssignee g t u) := by
  have hold := h.old t (.inl ht)
  refine { h with old := fun k hk => ?_, new := fun k hk hk' => ?_, metalPull := ?_ }
  · refine { h.old k hk with buildPower := ?_ }
    change update s'.buildPower t (s'.buildPower t + g.buildSpeed u) k = _
    rw [update_apply]
    split_ifs with hkt
    · rw [hkt, hold.buildPower]
      change update s.buildPower t (s.buildPower t - g.buildSpeed u) t + _ = _
      rw [update_self, sub_add_cancel]
    · rw [(h.old k hk).buildPower]
      exact update_of_ne hkt ..
  · have hkt : k ≠ t := by
      rintro rfl
      exact absurd ht hk.not_gt
    refine { h.new k hk hk' with buildPower := ?_ }
    change update s'.buildPower t _ k = 0
    rw [update_of_ne hkt, (h.new k hk hk').buildPower]
  · change (if (s'.tasks t).isPull = true then s'.metalPull + g.buildSpeed u else s'.metalPull) = _
    rw [hold.tasks, h.metalPull]
    change (if (s.tasks t).isPull = true then
      (if (s.tasks t).isPull = true then s.metalPull - g.buildSpeed u else s.metalPull) + g.buildSpeed u
      else if (s.tasks t).isPull = true then s.metalPull - g.buildSpeed u else s.metalPull) = s.metalPull
    split_ifs
    · rw [sub_add_cancel]
    · rfl

structure Reevaluated (g : Game U ρ) (s s' : State U ρ) (t : ℕ) (isSame : Bool) : Prop where
  inv : Inv g s'
  frame : Frame g s s'
  stoppable : isSame = true → Stoppable g s' t

section Reevaluate

variable (hc : Contract g call) (h : Startable g s t u) {bt : BuildType} (hk : s.kind t = .builder bt)

include h hk in
theorem Startable.stoppable : Stoppable g s t :=
  h.inv.stoppable_builder (h.inv.lt_of_mem h.mem) hk (h.inv.wf.books.balanced t h.live)

include h hk in
theorem Startable.reevaluated (isSame : Bool) : Reevaluated g s s t isSame :=
  ⟨h.inv, .refl g s, fun _ => h.stoppable hk⟩

include hc h hk in
theorem Startable.abort_spec {β : Type} {f : Unit → M U ρ β} {Q : β → State U ρ → Prop}
    (hf : ∀ s', Stopped g s s' t false → Ensures (f ()) s' Q) : Ensures (abortTask call t >>= f) s Q :=
  .seq (hc (.dequeueTask t false) s (h.stoppable hk)) fun _ s' hst => hf s' hst

theorem Stopped.reevaluated (h : Stopped g s s' t false) : Reevaluated g s s' t false :=
  ⟨h.inv, h.frame, nofun⟩

include hc h hk in
theorem builderReevaluate_spec :
    Ensures (builderReevaluate g call t u) s fun isSame s' => Reevaluated g s s' t isSame := by
  have hs := h.inv.wf.shape
  have hlt := h.inv.lt_of_mem h.mem
  refine .read_seq <| askFlag_seq fun isPoor => ?_
  split_ifs
  · exact h.abort_spec hc hk fun s' hst => .ret hst.reevaluated
  · refine askFlag_seq fun isNear => ?_
    split_ifs
    · exact .ret (h.reevaluated hk true)
    · refine .write_seq <| .seq (makeTask_spec { hs with } { h.inv.wf.lists with }) fun task s₁ hmade => ?_
      obtain ⟨hg, hchoose⟩ := hmade
      have hg' := hg.shown hlt
      have hold := hg'.old t (.inl hlt)
      have hst : Startable g (s₁.showAssignee g t u) t u := by
        refine ⟨hg'.inv h.inv, ?_, ?_⟩
        · rw [hold.units]
          exact h.mem
        · rw [hold.isDead, h.live]
      have hkind : (s₁.showAssignee g t u).kind t = .builder bt := by rw [hold.kind, hk]
      have hframe : Frame g s (s₁.showAssignee g t u) := hg'.frame h.inv.wf.assigned
      refine .write_seq <| .read_seq ?_
      cases task with
      | none => exact .ret ⟨hst.inv, hframe, fun _ => hst.stoppable hkind⟩
      | some t' =>
        simp only
        split_ifs with hsame
        · exact .ret ⟨hst.inv, hframe, fun _ => hst.stoppable hkind⟩
        · have hrem : Removable g (s₁.showAssignee g t u) t u := hst.removable (hkind.trans_ne nofun)
          have hchoosable : Choosable (s₁.showAssignee g t u) t' := { hchoose t' rfl with }
          have hassign : Assignable (s₁.showAssignee g t u) t t' u := by
            refine hchoosable.assignable ?_ (hst.inv.wf.shape.manager t bt hkind) ?_
            · exact hkind.trans_ne nofun
            · rintro rfl
              exact hsame (hkind.trans hk.symm)
          refine .seq (assignTask_spec hc hrem hassign) fun _ s₂ hpost => .ret ?_
          exact ⟨hpost.1, hframe.trans hpost.2.1, nofun⟩

include hc h hk in
theorem reevaluate_spec : Ensures (reevaluate g call t u) s fun isSame s' => Reevaluated g s s' t isSame := by
  refine .read_seq ?_
  split
  · refine askFlag_seq fun isPoor => askFlag_seq fun isDamaged => ?_
    split_ifs
    · exact h.abort_spec hc hk fun s' hst => .ret hst.reevaluated
    · exact .ret (h.reevaluated hk true)
  · refine askFlag_seq fun isMetalFull => ?_
    split_ifs
    · exact h.abort_spec hc hk fun s' hst => .ret hst.reevaluated
    · exact .ask fun _ isSame _ => h.reevaluated hk isSame
  · exact builderReevaluate_spec hc h hk

include hc h hk in
theorem updateUnit_spec : Ensures (updateUnit g call t u) s fun _ s' => Inv g s' ∧ Frame g s s' := by
  refine .seq (reevaluate_spec hc h hk) fun isSame s' hre => .when (fun hsame => ?_) fun _ => ⟨hre.inv, hre.frame⟩
  refine askFlag_seq fun isUnreachable => .when (fun _ => ?_) fun _ => ⟨hre.inv, hre.frame⟩
  exact hc.dequeue hre.frame (hre.stoppable hsame)

/-! ## `Start` -/

include hc h hk in
theorem terraformStart_spec : Ensures (terraformStart call t) s fun _ s' => Inv g s' ∧ Frame g s s' := by
  refine .read_seq <| .when (fun _ => ?_) fun _ => ⟨h.inv, .refl g s⟩
  have hsame : Same s { s with isEngaged := update s.isEngaged t true } := { Same.refl s with }
  have hst : Startable g { s with isEngaged := update s.isEngaged t true } t u :=
    ⟨hsame.inv h.inv, h.mem, h.live⟩
  have hf : Frame g s { s with isEngaged := update s.isEngaged t true } := hsame.frame rfl rfl rfl
  refine .write_seq <| askFlag_seq fun isSite => .when (fun _ => ?_) fun _ => ⟨hst.inv, hf⟩
  exact hc.dequeue hf (hst.stoppable hk)

end Reevaluate

theorem start_spec (hc : Contract g call) (h : Startable g s t u) :
    Ensures (start g call t u) s fun _ s' => Started g s s' t := by
  have hstarted : ∀ s', (s.kind t ≠ .wait ∧ s.kind t ≠ .retreat) → Inv g s' ∧ Frame g s s' → Started g s s' t :=
    fun s' hkind hpost => ⟨hpost.1, hpost.2, fun hk => (hk.elim hkind.1 hkind.2).elim⟩
  have hexecute : s.kind t ≠ .wait ∧ s.kind t ≠ .retreat →
      Ensures (execute g call t u) s fun _ s' => Started g s s' t := fun hkind =>
    (execute_spec hc h.executable).mono fun _ s' hx => hstarted s' hkind ⟨hx.inv, hx.frame⟩
  have hbuilder : ∀ bt, s.kind t = .builder bt → s.kind t ≠ .wait ∧ s.kind t ≠ .retreat := by
    intro bt hk
    exact ⟨hk.trans_ne nofun, hk.trans_ne nofun⟩
  have hupdate : ∀ bt, s.kind t = .builder bt → Ensures (updateUnit g call t u) s fun _ s' => Started g s s' t :=
    fun bt hk => (updateUnit_spec hc h hk).mono fun _ s' => hstarted s' (hbuilder bt hk)
  refine .read_seq ?_
  split
  · rename_i hk
    exact hexecute (hbuilder _ hk)
  · rename_i hk
    exact (terraformStart_spec hc h hk).mono fun _ s' => hstarted s' (hbuilder _ hk)
  · rename_i hk
    split_ifs
    · exact hexecute (hbuilder _ hk)
    · exact hupdate _ hk
  · rename_i hk
    exact hupdate _ hk
  · rename_i hk
    refine hexecute ?_
    exact ⟨hk.trans_ne nofun, hk.trans_ne nofun⟩
  · exact .ret ⟨h.inv, .refl g s, fun _ => rfl⟩

theorem contract_run (g : Game U ρ) (n : ℕ) : Contract g (run g n) :=
  Ensures.recurse (P := Pre g) (Q := Post g) (fun call hc p s hp => by
    cases p with
    | removeAssignee t u => exact removeAssignee_spec hc hp
    | dequeueTask t done => exact dequeueTask_spec hc hp
    | start t u => exact start_spec hc hp) n

end Circuit.Spec.TaskRuns
