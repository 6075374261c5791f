import CircuitAI.Proof.UnitTasks.Assigning

/-!
# `Cancel` and `Finish`

What `Stop` does first with a task that is marked dead (`Cancelled`, `Halted`). A retreat task takes the repair task of
its repairer with it. `IBuilderTask::Finish` may enqueue whatever a build chain asks for, stop a planned defence and send
the units to wait; the counters of the task stay right all the while, which is what the pull that `Stop` takes off relies
on.
-/

namespace Circuit.Spec.TaskRuns

open Framework Impl.UnitTasks List

variable {U ρ : Type} [DecidableEq U] {g : Game U ρ} {s s' s'' : State U ρ} {t : ℕ} {u : U} {done : Bool}
  {call : Proc U → M U ρ Unit}

structure Halted (g : Game U ρ) (s s' : State U ρ) (t : ℕ) : Prop where
  inv : Inv g s'
  core : Core g s s'
  balanced : Balanced g s' t
  shrinks : Shrinks s s'

structure Cancelled (g : Game U ρ) (s s' : State U ρ) (t : ℕ) : Prop extends Halted g s s' t where
  units : s'.units t = s.units t
  task : ∀ v, s.task v = some t ∨ (∃ m, s.task v = some (idleTask m)) → s'.task v = s.task v
  same : s.kind t ≠ .retreat →
    s'.isDead = s.isDead ∧ s'.units = s.units ∧ s'.buildPower = s.buildPower ∧ s'.task = s.task

theorem Cancelled.refl (hi : Inv g s) (hb : Balanced g s t) : Cancelled g s s t where
  inv := hi
  core := .refl g s
  balanced := hb
  shrinks := .refl s
  units := rfl
  task _ _ := rfl
  same _ := ⟨rfl, rfl, rfl, rfl⟩

/-! ## `Cancel` -/

namespace Stoppable

variable (hst : Stoppable g s t)

include hst in
theorem killed_wf : Wf g (killed s t) := hst.wf.kill hst.idle

include hst in
theorem killed_inv (hk : s.kind t ≠ .builder .repair) : Inv g (killed s t) :=
  ⟨hst.killed_wf, fun k => .kill (hst.linked k) hk⟩

include hst in
theorem killed_balanced : Balanced g (killed s t) t := hst.balanced

end Stoppable

theorem cancelRetreat_spec {R : ℕ} {r : U} (hc : Contract g call) (hst : Stoppable g s t) (hk : s.kind t = .retreat)
    (hr : r ∈ s.units R) (hd : s.isDead R = false) (hRk : s.kind R = .builder .repair) :
    Ensures (abortTask call R) (killed s t) fun _ s' => Cancelled g (killed s t) s' t ∧ Frame g (killed s t) s' := by
  have hs := hst.wf.shape
  have ha := hst.wf.assigned
  have htk : s.kind t ≠ .builder .repair := hk.trans_ne nofun
  have hRt : R ≠ t := fun h' => htk (h' ▸ hRk)
  have hlt : R < s.nextTask := ha.lt r R (ha.pointer R r hr)
  have hstR : Stoppable g (killed s t) R := by
    refine (hst.killed_inv htk).stoppable_live hlt ?_ ?_
    · rw [isDead_killed, if_neg hRt, hd]
    · change s.kind R ≠ _ ∧ s.kind R ≠ _
      exact ⟨hRk.trans_ne nofun, hRk.trans_ne nofun⟩
  have hret : (killed s t).kind R ≠ .retreat := by
    change s.kind R ≠ _
    exact hRk.trans_ne nofun
  refine (hc (.dequeueTask R false) (killed s t) hstR).mono fun _ s' h => ?_
  have hab := h.aborted rfl hret
  have hnp : (s.tasks t).isPull ≠ true := hs.not_pull fun bt hbt => by
    rw [hk] at hbt
    cases hbt
  refine ⟨⟨⟨h.inv, h.frame.toCore, .of_not_pull ?_, h.shrinks⟩, ?_, fun v hv => ?_, fun h' => absurd hk h'⟩, h.frame⟩
  · rw [h.frame.tasks t hst.lt]
    exact hnp
  · refine hab.units t hRt.symm ?_
    change s.kind t ≠ _
    exact hk.trans_ne nofun
  · refine hab.task v fun hvR => ?_
    have hp : s.task v = some R := ha.pointer R v hvR
    rcases hv with hv | ⟨m, hv⟩
    · exact hRt (Option.some.inj (hp.symm.trans hv))
    · exact hs.ne_idle_of_builder hRk m (Option.some.inj (hp.symm.trans hv))

theorem cancelRepair_spec (hst : Stoppable g s t) (hk : s.kind t = .builder .repair) :
    Cancelled g (killed s t) ((killed s t).clearRepairer t) t ∧
      Frame g (killed s t) ((killed s t).clearRepairer t) := by
  have hlinked : ∀ k, Linked s k := by
    intro k
    rcases eq_or_ne k t with rfl | hkt
    · exact .of_not_retreat (hk.trans_ne nofun)
    · exact hst.linked k hkt
  have hi : Inv g ((killed s t).clearRepairer t) := ⟨wf_clearRepairer hst.killed_wf, fun k => .clear hst.wf.assigned hlinked⟩
  have hf : Frame g (killed s t) ((killed s t).clearRepairer t) := frame_clearRepairer
  obtain ⟨f, hf', -⟩ := State.clearRepairer_eq (killed s t) t
  rw [hf'] at hi hf ⊢
  exact ⟨⟨⟨hi, hf.toCore, hst.balanced, .refl _⟩, rfl, fun _ _ => rfl, fun _ => ⟨rfl, rfl, rfl, rfl⟩⟩, hf⟩

theorem cancel_spec (hc : Contract g call) (hst : Stoppable g s t) :
    Ensures (cancel call t) (killed s t) fun _ s' => Cancelled g (killed s t) s' t ∧ Frame g (killed s t) s' := by
  have hnone : s.kind t ≠ .builder .repair →
      Cancelled g (killed s t) (killed s t) t ∧ Frame g (killed s t) (killed s t) := fun hk =>
    ⟨.refl (hst.killed_inv hk) hst.killed_balanced, .refl g _⟩
  refine .read_seq ?_
  split
  · rename_i hk
    have hk' : s.kind t = .retreat := hk
    split
    · exact .ret (hnone (hk'.trans_ne nofun))
    · rename_i r hr
      obtain ⟨-, R, hrR, hRd, hRk, -⟩ := hst.repairer hk' r hr
      have htask : (killed s t).task r = some R := hst.wf.assigned.pointer R r hrR
      rw [htask]
      exact cancelRetreat_spec hc hst hk' hrR hRd hRk
  · rename_i hk
    exact .write (cancelRepair_spec hst hk)
  · rename_i hrep
    exact .ret (hnone hrep)

/-! ## `Finish` -/

namespace Halted

theorem refl (hi : Inv g s) (hb : Balanced g s t) : Halted g s s t :=
  (Cancelled.refl hi hb).toHalted

theorem grown (h : Halted g s s' t) (ht : t < s.nextTask) (he : Grown s' s'') : Halted g s s'' t where
  inv := he.inv h.inv
  core := h.core.trans (he.frame h.inv.wf.assigned).toCore
  balanced := he.balanced_old (he.old t (.inl (ht.trans_le h.core.next))) h.balanced
  shrinks := h.shrinks.trans h.core fun k hk _ => by rw [(he.old k (.inl hk)).units]

theorem aborted {d : ℕ} (h : Halted g s s' t) (ht : t < s.nextTask) (hk : s.kind t ≠ .idle) (hdt : d ≠ t)
    (hst : Stopped g s' s'' d false) (hret : s'.kind d ≠ .retreat) : Halted g s s'' t where
  inv := hst.inv
  core := h.core.trans hst.frame.toCore
  balanced := by
    have ha := hst.aborted rfl hret
    have hu := ha.units t hdt.symm (by rw [h.core.kind ht]; exact hk)
    exact h.balanced.congr hst.frame.toCore (ht.trans_le h.core.next) hu (by rw [ha.buildPower])
  shrinks := h.shrinks.trans h.core hst.shrinks

end Halted

section Finish

variable (hc : Contract g call) (ht : t < s.nextTask) (hd : s.isDead t = true)

include hc ht hd in
theorem executeChain_spec (hk : s.kind t ≠ .idle) (h : Halted g s s' t) (hf : Frame g s s') :
    Ensures (executeChain call) s' fun _ s'' => Halted g s s'' t ∧ Frame g s s'' := by
  refine .seq (enqueueAll_spec h.inv.wf.shape h.inv.wf.lists) fun _ s₁ hg => .ask_seq fun _ choice _ => ?_
  have h₁ := h.grown ht hg
  have hf₁ := hf.trans (hg.frame h.inv.wf.assigned)
  split
  · rename_i d _
    refine .read_seq ?_
    split_ifs with hdef
    · obtain ⟨hlisted, hkind, -⟩ := hdef
      have hlive := (h₁.inv.wf.lists.listed d hlisted).2.1
      have hdt : d ≠ t := by
        rintro rfl
        rw [h₁.core.dead d ht hd] at hlive
        cases hlive
      refine (hc (.dequeueTask d false) s₁ (h₁.inv.stoppable_of_listed hlisted)).mono fun _ s₂ hst => ?_
      exact ⟨h₁.aborted ht hk hdt hst (hkind.trans_ne nofun), hf₁.trans hst.frame⟩
    · exact .fail
  · exact .ret ⟨h₁, hf₁⟩

structure Waiting (g : Game U ρ) (s s' : State U ρ) (t w : ℕ) (l : List U) : Prop where
  halted : Halted g s s' t
  frame : Frame g s s'
  ge : s.nextTask ≤ w
  lt : w < s'.nextTask
  live : s'.isDead w = false
  tasks : s'.tasks w = { manager := .builder, kind := .wait }
  nodup : l.Nodup
  mem : ∀ v ∈ l, v ∈ s'.units t

include hc ht in
theorem waiting_step {bt : BuildType} {w : ℕ} {l : List U} (hk : s.kind t = .builder bt) (hpatrol : bt ≠ .patrol)
    (h : Waiting g s s' t w (u :: l)) : Ensures (assignTask g call u w) s' fun _ s'' => Waiting g s s'' t w l := by
  have hkt : s'.kind t = .builder bt := by
    rw [h.halted.core.kind ht, hk]
  have hkw : s'.kind w = .wait := by
    rw [State.kind, h.tasks]
  have hnw : w ≠ t := by
    have := h.ge
    omega
  have hrem : Removable g s' t u := by
    refine ⟨h.halted.inv, h.mem u mem_cons_self, ?_, fun hk' => ?_, h.halted.balanced⟩
    · exact hkt.trans_ne (by simp)
    · rw [hkt] at hk'
      cases hk'
  have hassign : Assignable s' t w u := by
    refine ⟨?_, hnw, h.lt, h.live, ?_, ?_, fun hk' => ?_⟩
    · exact hkt.trans_ne (by simp)
    · exact ⟨hkw.trans_ne (by simp), hkw.trans_ne (by simp)⟩
    · rw [State.manager, h.tasks, h.halted.inv.wf.shape.manager t bt hkt]
    · rw [hkw] at hk'
      cases hk'
  refine (assignTask_spec hc hrem hassign).mono fun _ s'' hpost => ?_
  obtain ⟨hi, hf, hpark⟩ := hpost
  have hp := hpark (.inl hkw)
  have hunits : s''.units t = (s'.units t).erase u :=
    hp.units (by rw [hkt]; exact fun h' => hpatrol (Kind.builder.inj h'))
  refine ⟨⟨hi, h.halted.core.trans hf.toCore, hp.balanced, fun k hk' hkind => ?_⟩, h.frame.trans hf, h.ge,
    h.lt.trans_le hf.next, hp.live, by rw [hf.tasks w h.lt, h.tasks], h.nodup.of_cons, fun v hv => ?_⟩
  · have hkw' : k ≠ w := by
      have := h.ge
      omega
    refine (hp.shrinks k (hk'.trans_le h.halted.core.next) hkw' ?_).trans (h.halted.shrinks k hk' hkind)
    rw [h.halted.core.kind hk']
    exact hkind
  · rw [hunits]
    refine Finset.mem_erase.mpr ⟨?_, h.mem v (mem_cons_of_mem u hv)⟩
    rintro rfl
    exact (nodup_cons.mp h.nodup).1 hv

include hc ht hd in
theorem builderFinish_spec {bt : BuildType} (hk : s.kind t = .builder bt) (hpatrol : bt ≠ .patrol) (hi : Inv g s)
    (hb : Balanced g s t) : Ensures (builderFinish g call t) s fun _ s' => Halted g s s' t ∧ Frame g s s' := by
  have hkind : s.kind t ≠ .idle := hk.trans_ne nofun
  refine .read_seq <| .seq (P := fun _ s' => Halted g s s' t ∧ Frame g s s') (.when (fun _ => ?_) fun _ => ?_)
    fun _ s' h => ?_
  · refine .seq (executeChain_spec hc ht hd hkind (.refl hi hb) (.refl g s)) fun _ s₁ h₁ => ?_
    refine askFlag_seq fun isBuildDelay => .when (fun _ => ?_) fun _ => h₁
    refine .seq (newTask_unlisted (by decide) (.inl rfl) rfl) fun w s₂ h₂ => ?_
    refine .read_seq <| askOrder_seq fun l hnodup hl => ?_
    refine (Ensures.forEach (I := fun l s' => Waiting g s s' t w l) (fun u l s' => waiting_step hc ht hk hpatrol)
      ⟨h₁.1.grown ht h₂.grown, h₁.2.trans (h₂.grown.frame h₁.1.inv.wf.assigned), ?_, h₂.lt, h₂.new.isDead, h₂.tasks,
        hnodup, fun v hv => ?_⟩).mono fun _ s' h => ⟨h.halted, h.frame⟩
    · rw [h₂.eq]
      exact h₁.1.core.next
    · rw [← hl]
      exact mem_toFinset.mpr hv
  · exact ⟨.refl hi hb, .refl g s⟩
  · refine (enqueueAll_spec h.1.inv.wf.shape h.1.inv.wf.lists).mono fun _ s'' hg => ?_
    exact ⟨h.1.grown ht hg, h.2.trans (hg.frame h.1.inv.wf.assigned)⟩

end Finish

theorem finish_spec (hc : Contract g call) (hst : Stoppable g s t) :
    Ensures (finish g call t) (killed s t) fun _ s' => (Halted g (killed s t) s' t ∧ Frame g (killed s t) s') ∧
      (s.kind t = .retreat → Cancelled g (killed s t) s' t) := by
  have hcancel : Ensures (cancel call t) (killed s t) fun _ s' =>
      (Halted g (killed s t) s' t ∧ Frame g (killed s t) s') ∧
        (s.kind t = .retreat → Cancelled g (killed s t) s' t) :=
    (cancel_spec hc hst).mono fun _ s' h => ⟨⟨h.1.toHalted, h.2⟩, fun _ => h.1⟩
  have hnone : s.kind t ≠ .builder .repair → Halted g (killed s t) (killed s t) t ∧ Frame g (killed s t) (killed s t) :=
    fun hk => ⟨.refl (hst.killed_inv hk) hst.killed_balanced, .refl g _⟩
  have hdead : (killed s t).isDead t = true := by
    rw [isDead_killed, if_pos rfl]
  refine .read_seq ?_
  split
  · exact hcancel
  · exact hcancel
  · rename_i hk
    have hk' : s.kind t = .builder .reclaim := hk
    exact .ret ⟨hnone (by rw [hk']; decide), fun h => by rw [hk'] at h; cases h⟩
  · rename_i hk
    have hk' : s.kind t = .builder .patrol := hk
    exact .ret ⟨hnone (by rw [hk']; decide), fun h => by rw [hk'] at h; cases h⟩
  · rename_i bt hrep _ hpatrol hk
    have hk' : s.kind t = .builder bt := hk
    have hinv := hst.killed_inv (by rw [hk']; simpa using hrep)
    refine (builderFinish_spec (s := killed s t) hc hst.lt hdead hk' (by simpa using hpatrol) hinv hst.killed_balanced).mono
      fun _ s' h => ⟨h, fun h' => ?_⟩
    rw [hk'] at h'
    cases h'
  · rename_i hret hrep _ _ _
    exact .ret ⟨hnone hrep, fun h => absurd h hret⟩

end Circuit.Spec.TaskRuns
