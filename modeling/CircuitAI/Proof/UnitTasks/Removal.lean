import CircuitAI.Proof.UnitTasks.Contracts
import Mathlib.Tactic.Linarith

/-!
# `RemoveAssignee`

A unit goes back to the idle task. Tasks that lose their last unit are stopped, a guard counts for the power of the
workers again, and the unit that a repair task is for looks for another repairer.
-/

set_option linter.unusedSectionVars false

namespace Circuit.Spec.TaskRuns

open Framework Impl.UnitTasks Function Finset Option

variable {U ρ : Type} [DecidableEq U] {g : Game U ρ} {s s' s'' : State U ρ} {t : ℕ} {u : U}
  {call : Proc U → M U ρ Unit}

/-! ## Queries -/

theorem kind_retreatOf {r : ℕ} {target : Option U} (h : target.bind s.retreatOf = some r) : s.kind r = .retreat := by
  obtain ⟨v, -, hv⟩ := bind_eq_some_iff.mp h
  exact of_decide_eq_true (filter_eq_some_iff.mp hv).2

def Queried (s s' : State U ρ) : Prop :=
  ∃ c q b, s' = { s with costQuery := c, queries := q, callbacks := b }

theorem Queried.refl (s : State U ρ) : Queried s s := ⟨_, _, _, rfl⟩

theorem Queried.frame (h : Queried s s') : Frame g s s' := by
  obtain ⟨c, q, b, rfl⟩ := h
  exact { Frame.refl g s with }

theorem checkRepairer_spec {newRep : U} (hi : Inv g s) (hk : s.kind t = .retreat) :
    Ensures (checkRepairer t newRep) s fun _ s' => Inv g s' ∧ Queried s s' := by
  refine .read_seq <| askFlag_seq fun isReady => askOrder_seq fun order _ horder => ?_
  split
  · exact .fail
  · rename_i unit rest _
    refine .when (fun _ => .write ?_) fun _ => ⟨hi, .refl s⟩
    have hmem : unit ∈ s.units t := by rw [← horder]; simp
    refine ⟨⟨⟨{ hi.wf.shape with }, { hi.wf.assigned with }, { hi.wf.lists with }, { hi.wf.books with }⟩,
      fun k => ⟨fun hk' hd q hq => ?_, (hi.linked k).repairer⟩⟩, _, _, _, rfl⟩
    change update s.costQuery t (some s.queries.length) k = some q at hq
    rw [update_apply] at hq
    split_ifs at hq with hkt
    · cases hq
      refine ⟨unit, ?_, List.getElem?_concat_length ..⟩
      refine eq_singleton_iff_unique_mem.mpr ⟨hkt ▸ hmem, fun v hv => ?_⟩
      exact hi.wf.assigned.single t hk v (hkt ▸ hv) unit hmem
    · obtain ⟨v, hv, hq'⟩ := (hi.linked k).query hk' hd q hq
      refine ⟨v, hv, ?_⟩
      change (s.queries ++ [unit])[q]? = some v
      rw [List.getElem?_append_left (List.getElem?_eq_some_iff.mp hq').1, hq']

/-! ## The units that leave -/

theorem Removable.left (h : Removable g s t u) : {u} ⊆ s.units t := singleton_subset_iff.mpr h.mem

theorem unitRemoveAssignee_wf (h : Removable g s t u) (hk : ∀ bt, s.kind t ≠ .builder bt) :
    Wf g (s.unitRemoveAssignee t u) := by
  have hs := h.inv.wf.shape
  have he := leaves_unitRemoveAssignee (u := u) hs h.kind
  refine ⟨he.shape hs, he.assigned hs h.inv.wf.assigned h.left h.kind, he.lists h.inv.wf.lists,
    he.books hs h.left h.kind (sum_singleton ..) h.inv.wf.books (fun k _ hp => ?_) fun k bt hkb _ => ?_⟩
  · have hkt : k ≠ t := fun hkt => hs.not_pull hk (hkt ▸ hp)
    rw [if_neg hkt]
    rfl
  · have hkt : k ≠ t := fun hkt => hk bt (hkt ▸ hkb)
    rw [if_neg hkt]
    rfl

theorem unitRemoveAssignee_frame (h : Removable g s t u) (hk : ∀ bt, s.kind t ≠ .builder bt) :
    Frame g s (s.unitRemoveAssignee t u) := by
  have hs := h.inv.wf.shape
  refine (leaves_unitRemoveAssignee (u := u) hs h.kind).frame hs h.inv.wf.assigned h.left h.kind (sum_singleton ..)
    (h.inv.lt_of_mem h.mem) (hk _) rfl rfl fun _ => ?_
  rw [if_neg (hs.not_pull hk)]
  rfl

theorem builderRemoveAssignee_buildPower (k : ℕ) : (s.builderRemoveAssignee g t u).buildPower k =
    if k = t then s.buildPower k - g.buildSpeed u else s.buildPower k := by
  change update s.buildPower t (s.buildPower t - g.buildSpeed u) k = _
  rw [update_apply]
  split_ifs with hkt
  · rw [hkt]
  · rfl

theorem builderRemoveAssignee_wf (h : Removable g s t u) : Wf g (s.builderRemoveAssignee g t u) := by
  have hs := h.inv.wf.shape
  have he := leaves_builderRemoveAssignee (g := g) (u := u) hs h.kind
  refine ⟨he.shape hs, he.assigned hs h.inv.wf.assigned h.left h.kind, he.lists h.inv.wf.lists,
    he.books hs h.left h.kind (sum_singleton ..) h.inv.wf.books (fun k _ _ => builderRemoveAssignee_buildPower k)
      fun k bt _ _ => ?_⟩
  change update s.traveled t ((s.traveled t).erase u) k = _
  rw [update_apply, erase_eq]
  split_ifs with hkt
  · rw [hkt]
  · rfl

theorem builderRemoveAssignee_balanced (h : Removable g s t u) : Balanced g (s.builderRemoveAssignee g t u) t := by
  have hs := h.inv.wf.shape
  exact (leaves_builderRemoveAssignee (g := g) hs h.kind).balanced hs h.left h.kind (sum_singleton ..) h.balanced
    fun _ => builderRemoveAssignee_buildPower t

namespace Leaves

variable (he : Leaves s s' t {u}) (hs : Shape s) (hk : s.kind t ≠ .idle)

include he hs hk in
theorem units_erase : s'.units t = (s.units t).erase u := by
  rw [he.units_self hs hk, erase_eq]

include he in
theorem task_self : s'.task u = some (idleTask (s.manager t)) := by
  rw [he.task, if_pos (mem_singleton_self u)]

include he hs in
theorem linked_all (h : Inv g s) (hret : s.kind t ≠ .retreat) (hrep : s.kind t ≠ .builder .repair) (k : ℕ) :
    Linked s' k := by
  rcases eq_or_ne k t with rfl | hkt
  · exact .of_not_retreat (by rw [he.kind]; exact hret)
  · exact he.linked hs (h.linked k) (fun _ => hkt) fun h' => absurd h' hrep

end Leaves

/-! ## Tasks without units -/

structure Checked (g : Game U ρ) (s s' : State U ρ) (t : ℕ) : Prop where
  inv : Inv g s'
  frame : Frame g s s'
  balanced : Balanced g s' t
  isDead : ∀ k, k ≠ t → s'.isDead k = s.isDead k
  units : s'.units t = s.units t
  task : s'.task = s.task
  shrinks : Shrinks s s'

theorem abortIfEmpty_spec (hc : Contract g call) (hst : Stoppable g s t) (hi : Inv g s) (hret : s.kind t ≠ .retreat) :
    Ensures (abortIfEmpty call t) s fun _ s' => Checked g s s' t := by
  refine .read_seq <| .when (fun hempty => ?_) fun _ => ?_
  · have hempty' : s.units t = ∅ := by simpa using hempty
    refine (hc (.dequeueTask t false) s hst).mono fun _ s' h => ?_
    have ha := h.aborted rfl hret
    refine ⟨h.inv, h.frame, h.balanced hempty', ha.isDead, by rw [h.units, hempty'], ?_, h.shrinks⟩
    funext v
    exact ha.task v (by simp [hempty'])
  · exact ⟨hi, .refl g s, hst.balanced, fun _ _ => rfl, rfl, rfl, fun _ _ _ => Finset.Subset.refl _⟩

theorem Removed.of_checked (h : Removable g s t u) (he : Leaves s s' t {u}) (hf : Frame g s s')
    (hc : Checked g s' s'' t) : Removed g s s'' t u where
  inv := hc.inv
  frame := hf.trans hc.frame
  task := by rw [hc.task, he.task_self]
  units _ := by rw [hc.units, he.units_erase h.inv.wf.shape h.kind]
  balanced := hc.balanced
  isDead _ k hk := by rw [hc.isDead k hk, he.isDead]
  shrinks := Shrinks.trans (fun _ _ => he.subset h.inv.wf.shape) hf.toCore hc.shrinks

theorem Leaves.stoppable (he : Leaves s s' t {u}) (h : Removable g s t u) (hi : Inv g s') (hret : s.kind t ≠ .retreat)
    (hb : Balanced g s' t) : Stoppable g s' t := by
  have hkind := he.kind t
  refine hi.stoppable ?_ (fun hk => absurd (hkind ▸ hk) hret) ?_ hb
  · rw [he.nextTask]
    exact h.inv.lt_of_mem h.mem
  · rw [hkind]
    exact ⟨h.inv.ne_nil_of_mem h.mem, h.kind⟩

section Leaving

variable (hc : Contract g call) (h : Removable g s t u) {bt : BuildType}

include hc h in
theorem unitRemoveAssignee_spec (hk : ∀ bt, s.kind t ≠ .builder bt) (hret : s.kind t ≠ .retreat) :
    Ensures (abortIfEmpty call t) (s.unitRemoveAssignee t u) fun _ s' => Removed g s s' t u := by
  have hs := h.inv.wf.shape
  have he := leaves_unitRemoveAssignee (u := u) hs h.kind
  have hi : Inv g (s.unitRemoveAssignee t u) :=
    ⟨unitRemoveAssignee_wf h hk, he.linked_all hs h.inv hret (hk _)⟩
  have hst := he.stoppable h hi hret (.of_not_pull (hs.not_pull hk))
  exact (abortIfEmpty_spec hc hst hi hret).mono fun _ s' hch => .of_checked h he (unitRemoveAssignee_frame h hk) hch

include h in
theorem builderRemoveAssignee_inv (hk : s.kind t = .builder bt) (hrep : bt ≠ .repair) :
    Inv g (s.builderRemoveAssignee g t u) := by
  have hs := h.inv.wf.shape
  have he := leaves_builderRemoveAssignee (g := g) (u := u) hs h.kind
  refine ⟨builderRemoveAssignee_wf h, he.linked_all hs h.inv ?_ ?_⟩
  · exact hk.trans_ne nofun
  · rw [hk]
    exact fun h' => hrep (Kind.builder.inj h')

include h in
theorem builderRemoveAssignee_frame (hk : s.kind t ≠ .builder .guard) : Frame g s (s.builderRemoveAssignee g t u) :=
  (leaves_builderRemoveAssignee h.inv.wf.shape h.kind).frame h.inv.wf.shape h.inv.wf.assigned h.left h.kind
    (sum_singleton ..) (h.inv.lt_of_mem h.mem) hk rfl rfl fun _ => rfl

include h in
theorem builderRemoveAssignee_stoppable (hk : s.kind t = .builder bt) (hrep : bt ≠ .repair) :
    Stoppable g (s.builderRemoveAssignee g t u) t :=
  (leaves_builderRemoveAssignee h.inv.wf.shape h.kind).stoppable h (builderRemoveAssignee_inv h hk hrep)
    (hk.trans_ne nofun) (builderRemoveAssignee_balanced h)

include h in
theorem builderRemoveAssignee_checked (hk : s.kind t = .builder bt) (hrep : bt ≠ .repair) :
    Checked g (s.builderRemoveAssignee g t u) (s.builderRemoveAssignee g t u) t where
  inv := builderRemoveAssignee_inv h hk hrep
  frame := .refl g _
  balanced := builderRemoveAssignee_balanced h
  isDead _ _ := rfl
  units := rfl
  task := rfl
  shrinks _ _ _ := Finset.Subset.refl _

include hc h in
theorem builderRemoveAssignee_spec (hk : s.kind t = .builder bt) (hrep : bt ≠ .repair) :
    Ensures (abortIfEmpty call t) (s.builderRemoveAssignee g t u) fun _ s' =>
      Checked g (s.builderRemoveAssignee g t u) s' t :=
  abortIfEmpty_spec hc (builderRemoveAssignee_stoppable h hk hrep) (builderRemoveAssignee_inv h hk hrep)
    (by change s.kind t ≠ _; rw [hk]; exact nofun)

include hc h in
theorem patrolRemoveAssignee_spec (hk : s.kind t = .builder .patrol) :
    Ensures (abortTask call t) (s.builderRemoveAssignee g t u) fun _ s' => Removed g s s' t u := by
  have hs := h.inv.wf.shape
  have he := leaves_builderRemoveAssignee (g := g) (u := u) hs h.kind
  have hf : Frame g s (s.builderRemoveAssignee g t u) :=
    builderRemoveAssignee_frame h (by rw [hk]; exact fun h' => nomatch Kind.builder.inj h')
  have hlt : t < s.nextTask := h.inv.lt_of_mem h.mem
  have hret : (s.builderRemoveAssignee g t u).kind t ≠ .retreat := by
    rw [he.kind, hk]
    exact nofun
  refine (hc (.dequeueTask t false) _ (builderRemoveAssignee_stoppable h hk nofun)).mono
    fun _ s' hst => ?_
  have hf' := hf.trans hst.frame
  refine ⟨hst.inv, hf', ?_, fun h' => absurd hk h', .of_not_pull ?_, fun _ => (hst.aborted rfl hret).isDead,
    Shrinks.trans (fun _ _ => he.subset hs) hf.toCore hst.shrinks⟩
  · rw [(hst.aborted rfl hret).task u, he.task_self]
    rw [he.units_erase hs h.kind]
    exact notMem_erase u _
  · rw [hf'.tasks t hlt]
    intro hp
    obtain ⟨bt, hbt, -, hpatrol, -⟩ := hs.pull_kind hp
    rw [hk] at hbt
    exact hpatrol (Kind.builder.inj hbt).symm

include hc h in
theorem retreatRemoveAssignee_spec (hk : s.kind t = .retreat) :
    Ensures (doneTask call t) (s.unitRemoveAssignee t u) fun _ s' => Removed g s s' t u := by
  have hs := h.inv.wf.shape
  have he := leaves_unitRemoveAssignee (u := u) hs h.kind
  have hbuilder : ∀ bt, s.kind t ≠ .builder bt := fun _ => hk.trans_ne nofun
  have hf := unitRemoveAssignee_frame h hbuilder
  have hempty : (s.units t).erase u = ∅ := by
    refine eq_empty_of_forall_notMem fun v hv => ?_
    exact ne_of_mem_erase hv
      (h.inv.wf.assigned.single t hk v (mem_of_mem_erase hv) u h.mem)
  have hst : Stoppable g (s.unitRemoveAssignee t u) t := by
    refine ⟨unitRemoveAssignee_wf h hbuilder, fun k hkt => ?_, fun _ r hr => ?_, h.inv.lt_of_mem h.mem,
      h.inv.ne_nil_of_mem h.mem, fun _ => h.kind, .of_not_pull (hs.not_pull hbuilder)⟩
    · exact he.linked hs (h.inv.linked k) (fun _ => hkt) fun h' => absurd h' (hbuilder _)
    · obtain ⟨v, -, R, hrR, hRd, hRk, hRt⟩ := (h.inv.linked t).repairer hk (h.live hk) r hr
      have hRne : R ≠ t := by
        rintro rfl
        exact hbuilder _ hRk
      refine ⟨v, R, ?_, hRd, hRk, hRt⟩
      rwa [he.units, if_neg (hs.ne_idle_of_builder hRk _), if_neg hRne]
  refine (hc (.dequeueTask t true) _ hst).mono fun _ s' hst' => ?_
  refine ⟨hst'.inv, hf.trans hst'.frame, hst'.idle hk u _ he.task_self, fun _ => by rw [hst'.units, hempty],
    .of_not_pull ?_, fun h' => absurd hk h', Shrinks.trans (fun _ _ => he.subset hs) hf.toCore hst'.shrinks⟩
  rw [(hf.trans hst'.frame).tasks t (h.inv.lt_of_mem h.mem)]
  exact hs.not_pull hbuilder

include h in
theorem guardRemoveAssignee_removed (hk : s.kind t = .builder .guard)
    (hch : Checked g (s.builderRemoveAssignee g t u) s' t) : Removed g s (s'.addBuildPower g u) t u := by
  have hs := h.inv.wf.shape
  have ha := h.inv.wf.assigned
  have he := leaves_builderRemoveAssignee (g := g) (u := u) hs h.kind
  have hsame : Same s' (s'.addBuildPower g u) := same_addBuildPower
  have hcore : Core g s (s.builderRemoveAssignee g t u) := he.core hs ha h.left h.kind (sum_singleton ..) (h.inv.lt_of_mem h.mem) fun _ => rfl
  have hworker : u ∈ s.workers := ha.worker t u h.mem (hs.manager t _ hk)
  have hguard : ∀ v, OnGuard (s.builderRemoveAssignee g t u) v ↔ OnGuard s v ∧ v ≠ u := by
    intro v
    rw [he.onGuard hs ha h.left, and_iff_left hk, mem_singleton]
  have hoff : ¬ OnGuard s' u := fun ⟨k, hkg, hu⟩ => by
    have hp := hch.inv.wf.assigned.pointer k u hu
    rw [hch.task, he.task_self, some_inj] at hp
    exact hch.inv.wf.shape.ne_idle_of_builder hkg _ hp.symm
  refine ⟨hsame.inv hch.inv, ⟨(hcore.trans hch.frame.toCore).trans (hsame.core rfl), ?_, ?_⟩, ?_, fun _ => ?_,
    hsame.balanced hch.balanced, fun _ k hkt => ?_, ?_⟩
  · have hsum : activePower g (s.builderRemoveAssignee g t u) = activePower g s + ∑ v ∈ {u}, g.buildSpeed v := by
      refine activePower_leave rfl (singleton_subset_iff.mpr hworker) ?_ fun v _ => ?_
      · intro v hv
        rw [mem_singleton.mp hv]
        exact ⟨t, hk, h.mem⟩
      · rw [hguard, mem_singleton]
    have hpower := hch.frame.power
    rw [sum_singleton] at hsum
    rw [hsum] at hpower
    change s'.workerPower - _ = s.workerPower - _ at hpower
    change s'.workerPower + g.buildSpeed u - _ = _
    rw [activePower_congr hsame.workers fun v _ => hsame.onGuard v]
    linarith
  · intro v hv r hr hp
    rw [Placed, hsame.onGuard]
    change v ∈ (if g.isRespRole u r = true then _ else _ : SRoleInfo U).units ↔ _
    rcases eq_or_ne v u with rfl | hne
    · rw [if_pos hr]
      simp [hoff]
    · have hp' : Placed s' v r := by
        refine hch.frame.role v hv r hr ?_
        rw [Placed, hguard, and_iff_left hne]
        exact hp
      refine Iff.trans ?_ hp'
      split_ifs
      · exact ⟨fun h' => (mem_insert.mp h').resolve_left hne, mem_insert_of_mem⟩
      · exact Iff.rfl
  · rw [hsame.task, hch.task, he.task_self]
  · rw [hsame.units, hch.units, he.units_erase hs h.kind]
  · rw [hsame.isDead, hch.isDead k hkt, he.isDead]
  · refine (Shrinks.trans (fun _ _ => he.subset hs) hcore hch.shrinks).trans (hcore.trans hch.frame.toCore) fun k _ _ => ?_
    rw [hsame.units]

end Leaving

/-! ## Repairers -/

section Repair

variable (h : Removable g s t u) (hk : s.kind t = .builder .repair) {k : ℕ}

include h hk in
theorem retreatOf_target (hret : s.kind k = .retreat) (hd : s.isDead k = false) (hr : s.repairer k = some u) :
    ((s.builderRemoveAssignee g t u).target t).bind (s.builderRemoveAssignee g t u).retreatOf = some k := by
  have ha := h.inv.wf.assigned
  have he := leaves_builderRemoveAssignee (g := g) (u := u) h.inv.wf.shape h.kind
  obtain ⟨v, hv, R, huR, -, -, hRt⟩ := (h.inv.linked k).repairer hret hd u hr
  have hRt' : R = t := some.inj ((ha.pointer R u huR).symm.trans (ha.pointer t u h.mem))
  subst hRt'
  have hvk : s.task v = some k := ha.pointer k v (by rw [hv]; exact mem_singleton_self v)
  have hvu : v ≠ u := by
    rintro rfl
    rw [ha.pointer R v h.mem, some_inj] at hvk
    rw [← hvk, hk] at hret
    cases hret
  rw [he.target, hRt, bind_some, State.retreatOf, he.task, if_neg (mt mem_singleton.mp hvu), hvk, filter_some, if_pos]
  rw [decide_eq_true_eq, he.kind, hret]

include hk in
theorem ne_repair_of_retreat (hret : s.kind k = .retreat) : k ≠ t := by
  rintro rfl
  rw [hk] at hret
  cases hret

include h hk in
theorem linked_of_ne_repairer (hr : s.kind k = .retreat → s.isDead k = false → s.repairer k ≠ some u) :
    Linked (s.builderRemoveAssignee g t u) k := by
  have he := leaves_builderRemoveAssignee (g := g) (u := u) h.inv.wf.shape h.kind
  have hl := h.inv.linked k
  exact ⟨fun hk' => he.query h.inv.wf.shape hl (ne_repair_of_retreat hk hk') hk', fun hk' hd =>
    (he.linked h.inv.wf.shape hl (fun _ => ne_repair_of_retreat hk hk') fun _ _ r hr' =>
      mem_singleton.mp hr' ▸ hr hk' hd).repairer hk' hd⟩

include h hk in
theorem linked_setRepairer {r : ℕ}
    (hr : ∀ k, s.kind k = .retreat → s.isDead k = false → s.repairer k = some u → k = r) (k : ℕ) :
    Linked ((s.builderRemoveAssignee g t u).setRepairer r none) k := by
  have he := leaves_builderRemoveAssignee (g := g) (u := u) h.inv.wf.shape h.kind
  refine ⟨fun hk' => he.query h.inv.wf.shape (h.inv.linked k) (ne_repair_of_retreat hk hk') hk', fun hk' hd w hw => ?_⟩
  change update s.repairer r none k = some w at hw
  rw [update_apply] at hw
  split_ifs at hw with hkr
  exact (linked_of_ne_repairer h hk fun hk' hd hu => hkr (hr k hk' hd hu)).repairer hk' hd w hw

def Relinked (s s' : State U ρ) : Prop :=
  ∃ f c q b, s' = { s with repairer := f, costQuery := c, queries := q, callbacks := b }

include h hk in
theorem informTarget_spec : Ensures (informTarget t u) (s.builderRemoveAssignee g t u) fun _ s' =>
    Inv g s' ∧ Relinked (s.builderRemoveAssignee g t u) s' := by
  have hwf := builderRemoveAssignee_wf h
  have hown := fun k => retreatOf_target (k := k) h hk
  refine .read_seq ?_
  split
  · rename_i hnone
    refine .ret ⟨⟨hwf, fun k => linked_of_ne_repairer h hk fun hret hd hr => ?_⟩, _, _, _, _, rfl⟩
    rw [hown k hret hd hr] at hnone
    cases hnone
  · rename_i r hsome
    have heq : ∀ k, s.kind k = .retreat → s.isDead k = false → s.repairer k = some u → k = r := fun k hret hd hr =>
      some.inj ((hown k hret hd hr).symm.trans hsome)
    refine .when (fun _ => ?_) fun hne => ?_
    · have hretreat : (s.builderRemoveAssignee g t u).kind r = .retreat := kind_retreatOf hsome
      have hinv : Inv g ((s.builderRemoveAssignee g t u).setRepairer r none) :=
        ⟨⟨{ hwf.shape with }, { hwf.assigned with }, { hwf.lists with }, { hwf.books with }⟩,
          linked_setRepairer h hk heq⟩
      refine .write_seq <| askOrder_seq fun order _ _ => ?_
      split
      · exact .ret ⟨hinv, _, _, _, _, rfl⟩
      · refine (checkRepairer_spec hinv hretreat).mono fun _ s' ⟨hi, c, q, b, hq⟩ => ⟨hi, ?_⟩
        exact ⟨_, c, q, b, hq⟩
    · refine ⟨⟨hwf, fun k => linked_of_ne_repairer h hk fun hret hd hr => ?_⟩, _, _, _, _, rfl⟩
      exact of_decide_eq_false hne (heq k hret hd hr ▸ hr)

end Repair

theorem Checked.of_relinked (hi : Inv g s') (hl : Relinked s s') (hb : Balanced g s t) : Checked g s s' t := by
  obtain ⟨f, c, q, b, rfl⟩ := hl
  exact ⟨hi, { Frame.refl g s with }, hb, fun _ _ => rfl, rfl, rfl, fun _ _ _ => Finset.Subset.refl _⟩

/-! ## The entry point -/

theorem removeAssignee_spec (hc : Contract g call) (h : Removable g s t u) :
    Ensures (removeAssignee g call t u) s fun _ s' => Removed g s s' t u := by
  have he := leaves_builderRemoveAssignee (g := g) (u := u) h.inv.wf.shape h.kind
  have hbuilder : ∀ bt, s.kind t = .builder bt → bt ≠ .guard → ∀ s',
      Checked g (s.builderRemoveAssignee g t u) s' t → Removed g s s' t u := fun bt hk hguard s' hch =>
    .of_checked h he (builderRemoveAssignee_frame h (by rw [hk]; exact fun h' => hguard (Kind.builder.inj h'))) hch
  refine .read_seq ?_
  split
  · rename_i hk
    exact absurd hk (h.inv.ne_nil_of_mem h.mem)
  · rename_i hk
    exact absurd hk h.kind
  · rename_i hk
    exact .write_seq <| unitRemoveAssignee_spec hc h (fun _ => hk.trans_ne nofun)
      (hk.trans_ne nofun)
  · rename_i hk
    exact .write_seq <| unitRemoveAssignee_spec hc h (fun _ => hk.trans_ne nofun)
      (hk.trans_ne nofun)
  · rename_i hk
    refine .write_seq <| .read_seq <| .when (fun _ => retreatRemoveAssignee_spec hc h hk) fun hne => ?_
    have hu := (leaves_unitRemoveAssignee (u := u) h.inv.wf.shape h.kind).units_erase h.inv.wf.shape h.kind
    refine absurd ?_ (of_decide_eq_false hne)
    rw [hu]
    refine eq_empty_of_forall_notMem fun v hv => ne_of_mem_erase hv ?_
    exact h.inv.wf.assigned.single t hk v (mem_of_mem_erase hv) u h.mem
  · rename_i hk
    exact .write_seq <| (informTarget_spec h hk).mono fun _ s' hl =>
      hbuilder _ hk nofun s' (.of_relinked hl.1 hl.2 (builderRemoveAssignee_balanced h))
  · rename_i hk
    refine .write_seq <| .seq (builderRemoveAssignee_spec hc h hk nofun) fun _ s' hch => ?_
    exact .write (guardRemoveAssignee_removed h hk hch)
  · rename_i hk
    exact .write_seq <| (builderRemoveAssignee_spec hc h hk nofun).mono fun _ =>
      hbuilder _ hk nofun
  · rename_i hk
    exact .write_seq <| (builderRemoveAssignee_spec hc h hk nofun).mono fun _ =>
      hbuilder _ hk nofun
  · rename_i hk
    exact .write_seq <| patrolRemoveAssignee_spec hc h hk
  · rename_i bt hrep hguard _ _ _ hk
    exact .write (hbuilder bt hk (by simpa using hguard) _
      (builderRemoveAssignee_checked h hk (by simpa using hrep)))

end Circuit.Spec.TaskRuns
