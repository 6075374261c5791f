import CircuitAI.Proof.UnitTasks.Finishing

/-!
# `DequeueTask`

The task is marked dead, `Cancel` or `Finish` runs, and its units are released (`Stopped.of_release`). Guards count for
the power of the workers again (`guard_frame`). The idle task is stopped by a late fallback only, and then its units are
dropped (`idleStop_stopped`).
-/

set_option linter.unusedSectionVars false

namespace Circuit.Spec.TaskRuns

open Framework Impl.UnitTasks Function Finset

variable {U ρ : Type} [DecidableEq U] {g : Game U ρ} {s s' s'' : State U ρ} {t : ℕ} {u : U} {done : Bool}
  {call : Proc U → M U ρ Unit}

/-! ## `Stop` -/

theorem halt_spec (hc : Contract g call) (hst : Stoppable g s t) (done : Bool) :
    Ensures (if done = true then finish g call t else cancel call t) (killed s t) fun _ s' =>
      (Halted g (killed s t) s' t ∧ Frame g (killed s t) s') ∧
        (done = false ∨ s.kind t = .retreat → Cancelled g (killed s t) s' t) := by
  cases done with
  | true => exact (finish_spec hc hst).mono fun _ s' h => ⟨h.1, fun h' => h.2 (h'.resolve_left nofun)⟩
  | false => exact (cancel_spec hc hst).mono fun _ s' h => ⟨⟨h.1.toHalted, h.2⟩, fun _ => h.1⟩

theorem Stopped.of_release (hst : Stoppable g s t) (hk : s.kind t ≠ .idle) (hh : Halted g (killed s t) s' t)
    (hcan : done = false ∨ s.kind t = .retreat → Cancelled g (killed s t) s' t) (he : Leaves s' s'' t (s'.units t))
    (hbp : s''.buildPower = s'.buildPower) (htr : s''.traveled = s'.traveled) (hf : Frame g (killed s t) s'') :
    Stopped g s s'' t done := by
  have hs := hh.inv.wf.shape
  have ha := hst.wf.assigned
  have hk' : s'.kind t ≠ .idle := by
    rw [hh.core.kind hst.lt]
    exact hk
  have hdead : s'.isDead t = true := hh.core.dead t hst.lt (by rw [isDead_killed, if_pos rfl])
  have hlive : ∀ k, s'.isDead k = false → k ≠ t := by
    rintro k hd rfl
    rw [hdead] at hd
    cases hd
  have hempty : s''.units t = ∅ := by rw [he.units_self hs hk', Finset.sdiff_self]
  have hmanager : s'.manager t = s.manager t := hh.core.manager hst.lt
  constructor
  · refine ⟨⟨he.shape hs, he.assigned hs hh.inv.wf.assigned subset_rfl hk', he.lists hh.inv.wf.lists,
      he.books hs subset_rfl hk' rfl hh.inv.wf.books (fun k hd _ => ?_) fun k _ _ hd => ?_⟩,
      fun k => he.linked hs (hh.inv.linked k) (hlive k) fun _ hd => absurd rfl (hlive t hd)⟩
    · rw [hbp, if_neg (hlive k hd)]
    · rw [htr, if_neg (hlive k hd)]
  · exact hf.of_kill hempty
  · rw [he.isDead, hdead]
  · exact hempty
  · intro hnone hl hp
    have hnone' : s'.units t = ∅ := subset_empty.mp (hnone ▸ hh.shrinks t hst.lt hk)
    rw [hbp, hh.balanced (he.isLateAbort ▸ hl) (he.tasks ▸ hp), assigned, assigned, hempty, hnone']
  · intro hdone v hv
    have hmem : v ∈ s.units t := ((ha.member v t hv).resolve_left hst.kind).resolve_left hk
    rw [he.task, (hcan (.inl hdone)).units, if_pos (show v ∈ (killed s t).units t from hmem), hmanager]
  · intro hret v m hv
    have hc := hcan (.inr hret)
    have hnot : v ∉ s'.units t := by
      rw [hc.units]
      intro hmem
      exact hst.wf.shape.ne_idle hk m (Option.some.inj ((ha.pointer t v hmem).symm.trans hv))
    rw [he.task, if_neg hnot, hc.task v (.inr ⟨m, hv⟩)]
    exact hv
  · intro hdone hret
    have hc := hcan (.inl hdone)
    obtain ⟨hd, hu, hb, htask⟩ := hc.same hret
    constructor
    · intro k hkt
      rw [he.isDead, hd, isDead_killed, if_neg hkt]
    · intro k hkt hkind
      have hki : k ≠ idleTask (s'.manager t) := by
        rw [hmanager]
        exact hst.wf.shape.ne_idle hkind _
      rw [he.units, if_neg hki, if_neg hkt, hu]
      rfl
    · rw [hbp, hb]
      rfl
    · intro v hv
      rw [he.task, if_neg (by rw [hu]; exact hv), htask]
      rfl
  · intro k hlt hkind
    rw [he.units]
    split_ifs with hki
    · rw [hmanager] at hki
      exact absurd hki (hst.wf.shape.ne_idle hkind _)
    · exact sdiff_subset.trans (hh.shrinks k hlt hkind)
    · exact hh.shrinks k hlt hkind

theorem unitStop_spec (hc : Contract g call) (hst : Stoppable g s t) (hk : s.kind t ≠ .idle)
    (hbuilder : ∀ bt, s.kind t ≠ .builder bt) :
    Ensures (unitStop g call t done) (killed s t) fun _ s' => Stopped g s s' t done := by
  refine .seq (halt_spec hc hst done) fun _ s₁ ⟨⟨hh, hf⟩, hcan⟩ => .write ?_
  have hs := hh.inv.wf.shape
  have hkind : s₁.kind t = s.kind t := hh.core.kind hst.lt
  have hk₁ : s₁.kind t ≠ .idle := hkind.trans_ne hk
  refine .of_release hst hk hh hcan (leaves_releaseUnits hs hk₁) rfl rfl (hf.trans ?_)
  refine (leaves_releaseUnits hs hk₁).frame hs hh.inv.wf.assigned subset_rfl hk₁ rfl (hst.lt.trans_le hh.core.next) ?_
    rfl rfl fun _ => ?_
  · rw [hkind]
    exact hbuilder _
  · rw [if_neg (hs.not_pull (by rw [hkind]; exact hbuilder))]
    rfl

theorem leaves_builder (hs : Shape s) (hk : s.kind t ≠ .idle) (hb : Balanced g s t) :
    Leaves s ((s.releaseUnits t).delMetalPull t ((s.releaseUnits t).buildPower t)) t (s.units t) ∧
      (s.isLateAbort = false → ((s.releaseUnits t).delMetalPull t ((s.releaseUnits t).buildPower t)).metalPull =
        if (s.tasks t).isPull then s.metalPull - assigned g s t else s.metalPull) := by
  have he := leaves_releaseUnits hs hk
  refine ⟨⟨by repeat' constructor, he.units, he.task, rfl⟩,
    fun hl => ?_⟩
  change (if (s.tasks t).isPull = true then s.metalPull - s.buildPower t else s.metalPull) = _
  split_ifs with hp
  · rw [hb hl hp]
  · rfl

theorem builderStop_spec (hc : Contract g call) (hst : Stoppable g s t) {bt : BuildType} (hk : s.kind t = .builder bt)
    (hguard : bt ≠ .guard) : Ensures (builderStop g call t done) (killed s t) fun _ s' => Stopped g s s' t done := by
  have hidle : s.kind t ≠ .idle := hk.trans_ne nofun
  refine .seq (.seq (halt_spec hc hst done) fun _ s₁ h => .write (Q := fun _ s' => ∃ s₁, s' = s₁.releaseUnits t ∧
    (Halted g (killed s t) s₁ t ∧ Frame g (killed s t) s₁) ∧
      (done = false ∨ s.kind t = .retreat → Cancelled g (killed s t) s₁ t)) ⟨s₁, rfl, h⟩) fun _ s₂ h => .write ?_
  obtain ⟨s₁, rfl, ⟨hh, hf⟩, hcan⟩ := h
  have hkind : s₁.kind t = s.kind t := hh.core.kind hst.lt
  have hidle₁ : s₁.kind t ≠ .idle := hkind.trans_ne hidle
  obtain ⟨he, hmp⟩ := leaves_builder hh.inv.wf.shape hidle₁ hh.balanced
  refine .of_release hst hidle hh hcan he rfl rfl (hf.trans ?_)
  refine he.frame hh.inv.wf.shape hh.inv.wf.assigned subset_rfl hidle₁ rfl (hst.lt.trans_le hh.core.next) ?_ rfl rfl hmp
  rw [hkind]
  rw [hk]
  exact fun h' => hguard (Kind.builder.inj h')

/-! ## Guards -/

structure Powered (g : Game U ρ) (s s' : State U ρ) (l : List U) : Prop extends Same s s' where
  metalPull : s'.metalPull = s.metalPull
  workerPower : s'.workerPower = s.workerPower + (l.map g.buildSpeed).sum
  roles : ∀ v r, g.isRespRole v r = true → (v ∈ (s'.roleInfos r).units ↔ v ∈ (s.roleInfos r).units ∨ v ∈ l)

theorem Powered.nil : Powered g s s [] where
  toSame := .refl s
  metalPull := rfl
  workerPower := by rw [List.map_nil, List.sum_nil, add_zero]
  roles v r _ := by simp

theorem Powered.cons {l : List U} (h : Powered g (s.addBuildPower g u) s' l) : Powered g s s' (u :: l) where
  toSame := same_addBuildPower.trans h.toSame
  metalPull := h.metalPull
  workerPower := by
    rw [h.workerPower, List.map_cons, List.sum_cons, ← add_assoc]
    rfl
  roles v r hr := by
    have hmem : v ∈ ((s.addBuildPower g u).roleInfos r).units ↔ v ∈ (s.roleInfos r).units ∨ v = u := by
      change v ∈ (if g.isRespRole u r = true then _ else _ : SRoleInfo U).units ↔ _
      split_ifs with hu
      · rw [mem_insert, or_comm]
      · refine (or_iff_left ?_).symm
        rintro rfl
        exact hu hr
    rw [h.roles v r hr, hmem, List.mem_cons, or_assoc]

theorem forEach_addBuildPower_spec (l : List U) :
    Ensures (Procedure.forEach (fun u => modify (·.addBuildPower g u)) l : M U ρ Unit) s fun _ s' => Powered g s s' l := by
  induction l generalizing s with
  | nil => exact .ret .nil
  | cons u l ih => exact .write_seq (ih.mono fun _ s' h => h.cons)

theorem guardHalt_spec (hs : Shape s) (hl : Lists s) (hk : s.kind t = .builder .guard) (done : Bool) :
    Ensures (if done = true then finish g call t else cancel call t) s fun _ s' =>
      Grown s s' ∧ (done = false → s' = s) := by
  cases done with
  | true =>
    have hdef : (s.tasks t).hasBuildDef = false := by
      refine Bool.eq_false_iff.mpr fun hdef => ?_
      obtain ⟨bt, hbt, hguard, -⟩ := hs.buildDef t hdef
      exact hguard (Kind.builder.inj (hbt.symm.trans hk))
    simp only [if_true]
    refine .read_seq ?_
    rw [hk]
    refine .read_seq <| .seq (P := fun _ s' => s' = s) (.when (fun h => ?_) fun _ => rfl) fun _ s' h => ?_
    · rw [hdef] at h
      cases h
    · rw [h]
      exact (enqueueAll_spec hs hl).mono fun _ s'' hg => ⟨hg, nofun⟩
  | false =>
    simp only [Bool.false_eq_true, if_false]
    refine .read_seq ?_
    rw [hk]
    exact .ret ⟨.refl s, fun _ => rfl⟩

theorem guard_frame {l : List U} {s₀ s₁ : State U ρ} (hi : Inv g s) (ht : t < s.nextTask)
    (hk : s.kind t = .builder .guard) (hl : l.Nodup ∧ l.toFinset = s.units t) (hp : Powered g s s₀ l)
    (hg : Grown s₀ s₁) (he : Leaves s₁ s' t (s₁.units t)) (hwp : s'.workerPower = s₁.workerPower)
    (hroles : s'.roleInfos = s₁.roleInfos) (hmp : s'.metalPull = s₁.metalPull) : Frame g s s' := by
  have hs₀ := hp.inv hi
  have hs₁ := hg.inv hs₀
  have hold := hg.old t (.inl (by rw [hp.nextTask]; exact ht))
  have hunits : s₁.units t = s.units t := by rw [hold.units, hp.units]
  have hkind : s₁.kind t = .builder .guard := by rw [hold.kind, hp.kind, hk]
  have hcore : Core g s s₁ := (hp.core hp.metalPull).trans (hg.frame hs₀.wf.assigned).toCore
  have hnp : (s₁.tasks t).isPull ≠ true := fun hpull => by
    obtain ⟨bt, hbt, hguard, -⟩ := hs₁.wf.shape.pull_kind hpull
    exact hguard (Kind.builder.inj (hbt.symm.trans hkind))
  have hon : ∀ v, OnGuard s' v ↔ OnGuard s v ∧ v ∉ s.units t := fun v => by
    rw [he.onGuard hs₁.wf.shape hs₁.wf.assigned subset_rfl, hg.onGuard hs₀.wf.assigned, hp.onGuard, and_iff_left hkind,
      hunits]
  refine ⟨hcore.trans (he.core hs₁.wf.shape hs₁.wf.assigned subset_rfl (hkind.trans_ne nofun) rfl
    (ht.trans_le hcore.next) fun _ => ?_), ?_, fun v hv r hr hpl => ?_⟩
  · rw [if_neg hnp, hmp]
  · have hsum : activePower g s' = activePower g s + ∑ v ∈ s.units t, g.buildSpeed v := by
      refine activePower_leave (he.workers.trans hcore.workers) (fun v hv => ?_) (fun v hv => ⟨t, hk, hv⟩) fun v _ => hon v
      exact hi.wf.assigned.worker t v hv (hi.wf.shape.manager t _ hk)
    rw [hsum, hwp, hg.workerPower, hp.workerPower, ← hl.2, List.sum_toFinset _ hl.1]
    ring
  · have hv' : v ∈ l ↔ v ∈ s.units t := by rw [← hl.2, List.mem_toFinset]
    rw [Placed, hroles, hg.roleInfos, hp.roles v r hr, hon, hv']
    have hpl' : v ∈ (s.roleInfos r).units ↔ ¬ OnGuard s v := hpl
    rw [hpl', not_and_or, not_not]

theorem guardStop_spec (hst : Stoppable g s t) (hk : s.kind t = .builder .guard) {l : List U}
    (hl : l.Nodup ∧ l.toFinset = s.units t) (hp : Powered g (killed s t) s' l) :
    Ensures (builderStop g call t done) s' fun _ s'' => Stopped g s s'' t done := by
  have hi : Inv g (killed s t) := hst.killed_inv (by rw [hk]; decide)
  have hi' := hp.inv hi
  have hidle : s.kind t ≠ .idle := hk.trans_ne nofun
  have hret : s.kind t ≠ .retreat := hk.trans_ne nofun
  have hkind : s'.kind t = .builder .guard := by
    rw [hp.kind]
    exact hk
  have hhalt : Cancelled g (killed s t) s' t :=
    ⟨⟨hi', hp.core hp.metalPull, hp.balanced hst.killed_balanced, fun k _ _ => by rw [hp.units]⟩, by rw [hp.units],
      fun v _ => by rw [hp.task], fun _ => ⟨hp.isDead, hp.units, hp.buildPower, hp.task⟩⟩
  refine .seq (.seq (guardHalt_spec hi'.wf.shape hi'.wf.lists hkind done) fun _ s₁ h => .write
    (Q := fun _ s₂ => ∃ s₁, s₂ = s₁.releaseUnits t ∧ Grown s' s₁ ∧ (done = false → s₁ = s')) ⟨s₁, rfl, h⟩)
    fun _ s₂ h => .write ?_
  obtain ⟨s₁, rfl, hg, hsame⟩ := h
  have hh : Halted g (killed s t) s₁ t := hhalt.toHalted.grown hst.lt hg
  have he := (leaves_builder hh.inv.wf.shape ((hh.core.kind hst.lt).trans_ne hidle) hh.balanced).1
  have hnp : (s₁.tasks t).isPull ≠ true := fun hpull => by
    obtain ⟨bt, hbt, hguard, -⟩ := hh.inv.wf.shape.pull_kind hpull
    rw [hh.core.kind hst.lt] at hbt
    exact hguard (Kind.builder.inj (hbt.symm.trans hk))
  refine .of_release hst hidle hh (fun h => ?_) he rfl rfl ?_
  · rw [hsame (h.resolve_right hret)]
    exact hhalt
  · refine guard_frame hi hst.lt hk hl hp hg he rfl rfl ?_
    change (if (s₁.tasks t).isPull = true then _ else _) = _
    rw [if_neg hnp]
    rfl

/-! ## The idle task -/

section Idle

variable (hst : Stoppable g s t) (hk : s.kind t = .idle)

include hst hk in
theorem isLateFallback_of_idle : s.isLateFallback = true := by
  by_contra hl
  exact hst.idle (Bool.eq_false_iff.mpr hl) hk

include hst in
theorem idleStop_idles : Idles (killed s t) ((killed s t).idleStop (s.manager t)) :=
  idles_update hst.killed_wf.shape ..

theorem idleStop_subset (m : Manager) (k : ℕ) : (s.idleStop m).units k ⊆ s.units k := by
  change update s.units _ ∅ k ⊆ _
  rw [update_apply]
  split_ifs
  · exact empty_subset _
  · exact Finset.Subset.refl _

include hst hk in
theorem idleStop_assigned : Assigned ((killed s t).idleStop (s.manager t)) := by
  have ha := hst.killed_wf.assigned
  have hlate := isLateFallback_of_idle hst hk
  have hsub := idleStop_subset (s := killed s t) (s.manager t)
  constructor
  · exact ha.lt
  · intro k hk'
    have hidle : s.kind k ≠ .idle := by
      rw [show s.kind k = .nil from hk']
      exact nofun
    rw [(idleStop_idles hst).units k hidle]
    exact ha.nil k hk'
  · exact fun k v hv => ha.pointer k v (hsub k hv)
  · intro v k hv
    rcases ha.member v k hv with hn | hi | hmem
    · exact .inl hn
    · exact .inr (.inl hi)
    · by_cases hki : s.kind k = .idle
      · exact .inr (.inl hki)
      · rw [(idleStop_idles hst).units k hki]
        exact .inr (.inr hmem)
  · exact fun k v hv => ha.worker k v (hsub k hv)
  · exact ha.task
  · exact ha.team
  · exact fun k hk' v hv w hw => ha.single k hk' v (hsub k hv) w (hsub k hw)
  · change (if s.manager t = .builder then ∅ else s.updateUnits) ⊆ _
    split_ifs with hm
    · exact empty_subset _
    · have hne : idleTask .builder ≠ idleTask (s.manager t) := by
        cases hm' : s.manager t with
        | builder => exact absurd hm' hm
        | military => decide
      change _ ⊆ update s.units _ ∅ _
      rw [update_of_ne hne]
      exact ha.update
  · intro hl
    change s.isLateFallback = false at hl
    rw [hlate] at hl
    cases hl

include hst hk in
theorem idleStop_inv : Inv g ((killed s t).idleStop (s.manager t)) := by
  have hwf := hst.killed_wf
  have he := idleStop_idles hst
  have hkr : s.kind t ≠ .builder .repair := hk.trans_ne nofun
  exact ⟨⟨{ hwf.shape with }, idleStop_assigned hst hk, { hwf.lists with }, he.books hwf.shape hwf.books⟩,
    fun k => he.linked (.kill (hst.linked k) hkr)⟩

include hst in
theorem idleStop_frame : Frame g (killed s t) ((killed s t).idleStop (s.manager t)) := by
  have he := idleStop_idles hst
  refine ⟨{ Core.refl g (killed s t) with settled := fun k hk' hd hne => ?_, pull := fun _ => ?_ }, ?_, fun v _ r _ hp => ?_⟩
  · rw [he.units k hk'] at hne
    exact ⟨hk', hd, hne⟩
  · rw [he.pullSum_eq hst.killed_wf.shape]
    rfl
  · have hsum : activePower g ((killed s t).idleStop (s.manager t)) = activePower g (killed s t) :=
      activePower_congr rfl fun v _ => he.onGuard v
    rw [hsum]
    rfl
  · rw [Placed, he.onGuard]
    exact hp

include hst hk in
theorem idleStop_stopped : Stopped g s ((killed s t).idleStop (s.manager t)) t done := by
  have hs := hst.wf.shape
  have ht : t = idleTask (s.manager t) := hs.eq_idle t hk
  have hempty : ((killed s t).idleStop (s.manager t)).units t = ∅ := by
    change update s.units (idleTask (s.manager t)) ∅ t = ∅
    rw [← ht, update_self]
  have hret : s.kind t ≠ .retreat := hk.trans_ne nofun
  refine ⟨idleStop_inv hst hk, (idleStop_frame hst).of_kill hempty, ?_, hempty, fun _ => .of_not_pull ?_, fun _ v hv => ?_,
    fun h => absurd h hret, fun _ _ => ⟨fun k hkt => ?_, fun k _ hkind => (idleStop_idles hst).units k hkind, rfl, fun _ _ => rfl⟩,
    fun k _ _ => idleStop_subset (s := killed s t) _ k⟩
  · change (killed s t).isDead t = true
    rw [isDead_killed, if_pos rfl]
  · refine hs.not_pull fun bt => ?_
    exact hk.trans_ne nofun
  · rw [← ht]
    exact hv
  · change (killed s t).isDead k = _
    rw [isDead_killed, if_neg hkt]

end Idle

/-! ## The entry point -/

theorem dequeueTask_spec (hc : Contract g call) (hst : Stoppable g s t) :
    Ensures (dequeueTask g call t done) s fun _ s' => Stopped g s s' t done := by
  refine .write_seq <| .read_seq ?_
  split
  · rename_i hk
    exact absurd hk hst.kind
  · rename_i hk
    exact .write (idleStop_stopped hst hk)
  · rename_i hk
    refine askOrder_seq fun l hnodup hl => .seq (forEach_addBuildPower_spec l) fun _ s' hp => ?_
    exact guardStop_spec hst hk ⟨hnodup, hl⟩ hp
  · rename_i bt hguard hk
    exact builderStop_spec hc hst hk fun h => hguard (by rw [h])
  · rename_i hidle _ hbuilder
    exact unitStop_spec hc hst hidle hbuilder

end Circuit.Spec.TaskRuns
