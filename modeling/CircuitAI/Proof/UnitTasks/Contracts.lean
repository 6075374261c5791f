import CircuitAI.Proof.UnitTasks.Enqueue
import CircuitAI.Proof.UnitTasks.Stopping

/-!
# Contracts of the entry points

When each entry point may be called (`Removable`, `Stoppable`, `Startable`) and what it guarantees (`Removed`,
`Stopped`, `Started`). `Contract` says that calls keep to this; the methods are proved correct under it, the entry
points among them, so that `Ensures.recurse` gives it for every depth of calls.
-/

set_option linter.unusedSectionVars false

namespace Circuit.Spec.TaskRuns

open Framework Impl.UnitTasks Function Finset

variable {U ρ : Type} [DecidableEq U] {g : Game U ρ} {s s' s'' : State U ρ} {t : ℕ} {u : U}

structure Removable (g : Game U ρ) (s : State U ρ) (t : ℕ) (u : U) : Prop where
  inv : Inv g s
  mem : u ∈ s.units t
  kind : s.kind t ≠ .idle
  live : s.kind t = .retreat → s.isDead t = false
  balanced : Balanced g s t

def Shrinks (s s' : State U ρ) : Prop := ∀ k < s.nextTask, s.kind k ≠ .idle → s'.units k ⊆ s.units k

structure Removed (g : Game U ρ) (s s' : State U ρ) (t : ℕ) (u : U) : Prop where
  inv : Inv g s'
  frame : Frame g s s'
  task : s'.task u = some (idleTask (s.manager t))
  units : s.kind t ≠ .builder .patrol → s'.units t = (s.units t).erase u
  balanced : Balanced g s' t
  isDead : s.kind t ≠ .retreat → ∀ k, k ≠ t → s'.isDead k = s.isDead k
  shrinks : Shrinks s s'

structure Stoppable (g : Game U ρ) (s : State U ρ) (t : ℕ) : Prop where
  wf : Wf g s
  linked : ∀ k, k ≠ t → Linked s k
  repairer : s.kind t = .retreat → ∀ r, s.repairer t = some r → ∃ v, Repairs s r v
  lt : t < s.nextTask
  kind : s.kind t ≠ .nil
  idle : s.isLateFallback = false → s.kind t ≠ .idle
  balanced : Balanced g s t

structure Aborted (s s' : State U ρ) (t : ℕ) : Prop where
  isDead : ∀ k, k ≠ t → s'.isDead k = s.isDead k
  units : ∀ k, k ≠ t → s.kind k ≠ .idle → s'.units k = s.units k
  buildPower : s'.buildPower = s.buildPower
  task : ∀ v, v ∉ s.units t → s'.task v = s.task v

structure Stopped (g : Game U ρ) (s s' : State U ρ) (t : ℕ) (done : Bool) : Prop where
  inv : Inv g s'
  frame : Frame g s s'
  isDead : s'.isDead t = true
  units : s'.units t = ∅
  balanced : s.units t = ∅ → Balanced g s' t
  released : done = false → ∀ v, s.task v = some t → s'.task v = some (idleTask (s.manager t))
  idle : s.kind t = .retreat → ∀ v m, s.task v = some (idleTask m) → s'.task v = some (idleTask m)
  aborted : done = false → s.kind t ≠ .retreat → Aborted s s' t
  shrinks : Shrinks s s'

structure Startable (g : Game U ρ) (s : State U ρ) (t : ℕ) (u : U) : Prop where
  inv : Inv g s
  mem : u ∈ s.units t
  live : s.isDead t = false

structure Started (g : Game U ρ) (s s' : State U ρ) (t : ℕ) : Prop where
  inv : Inv g s'
  frame : Frame g s s'
  same : s.kind t = .wait ∨ s.kind t = .retreat → s' = s

def Pre (g : Game U ρ) : Proc U → State U ρ → Prop
  | .removeAssignee t u, s => Removable g s t u
  | .dequeueTask t _, s => Stoppable g s t
  | .start t u, s => Startable g s t u

def Post (g : Game U ρ) : Proc U → State U ρ → Unit → State U ρ → Prop
  | .removeAssignee t u, s, _, s' => Removed g s s' t u
  | .dequeueTask t done, s, _, s' => Stopped g s s' t done
  | .start t _, s, _, s' => Started g s s' t

def Contract (g : Game U ρ) (call : Proc U → M U ρ Unit) : Prop :=
  ∀ p s, Pre g p s → Ensures (call p) s (Post g p s)

theorem Contract.dequeue {call : Proc U → M U ρ Unit} {done : Bool} (hc : Contract g call) (hf : Frame g s s')
    (hst : Stoppable g s' t) : Ensures (call (.dequeueTask t done)) s' fun _ s'' => Inv g s'' ∧ Frame g s s'' :=
  (hc (.dequeueTask t done) s' hst).mono fun _ _ h => ⟨h.inv, hf.trans h.frame⟩

theorem Balanced.of_not_pull (hp : (s.tasks t).isPull ≠ true) : Balanced g s t := fun _ h => absurd h hp

theorem Balanced.congr (hf : Core g s s') (ht : t < s.nextTask) (hu : s'.units t = s.units t)
    (hp : s'.buildPower t = s.buildPower t) (hb : Balanced g s t) : Balanced g s' t := by
  intro hl hpull
  have hl' : s.isLateAbort = false := Bool.eq_false_iff.mpr fun h => by simp [hf.lateAbort h] at hl
  rw [hp, hb hl' (hf.tasks t ht ▸ hpull), assigned, assigned, hu]

theorem Shrinks.refl (s : State U ρ) : Shrinks s s := fun _ _ _ => Finset.Subset.refl _

theorem Shrinks.trans (h : Shrinks s s') (hf : Core g s s') (h' : Shrinks s' s'') : Shrinks s s'' := fun k hk hkind =>
  (h' k (hk.trans_le hf.next) (by rw [hf.kind hk]; exact hkind)).trans (h k hk hkind)

namespace Inv

theorem stoppable (h : Inv g s) (hlt : t < s.nextTask) (hlive : s.kind t = .retreat → s.isDead t = false)
    (hkind : s.kind t ≠ .nil ∧ s.kind t ≠ .idle) (hb : Balanced g s t) : Stoppable g s t where
  wf := h.wf
  linked k _ := h.linked k
  repairer hk r hr :=
    let ⟨v, _, hv⟩ := (h.linked t).repairer hk (hlive hk) r hr
    ⟨v, hv⟩
  lt := hlt
  kind := hkind.1
  idle _ := hkind.2
  balanced := hb

theorem stoppable_live (h : Inv g s) (hlt : t < s.nextTask) (hlive : s.isDead t = false)
    (hkind : s.kind t ≠ .nil ∧ s.kind t ≠ .idle) : Stoppable g s t :=
  h.stoppable hlt (fun _ => hlive) hkind (h.wf.books.balanced t hlive)

theorem stoppable_builder {bt : BuildType} (h : Inv g s) (hlt : t < s.nextTask) (hk : s.kind t = .builder bt)
    (hb : Balanced g s t) : Stoppable g s t :=
  h.stoppable hlt (fun hk' => absurd hk' (hk.trans_ne nofun)) ⟨hk.trans_ne nofun, hk.trans_ne nofun⟩ hb

theorem lt_of_mem (h : Inv g s) (hu : u ∈ s.units t) : t < s.nextTask :=
  h.wf.assigned.lt u t (h.wf.assigned.pointer t u hu)

theorem ne_nil_of_mem (h : Inv g s) (hu : u ∈ s.units t) : s.kind t ≠ .nil := fun hk => by
  simp [h.wf.assigned.nil t hk] at hu

theorem stoppable_of_listed (h : Inv g s) (hl : s.isListed t = true) : Stoppable g s t := by
  have hc := h.wf.lists.choosable h.wf.shape hl
  exact h.stoppable_live hc.lt hc.live ⟨hc.kind.1, hc.kind.2.1⟩

end Inv

/-! ## Assigning -/

structure AssignedTo (g : Game U ρ) (s s' : State U ρ) (t : ℕ) (u : U) : Prop where
  inv : Inv g s'
  frame : Frame g s s'
  mem : u ∈ s'.units t
  live : s'.isDead t = false
  other : ∀ k < s.nextTask, k ≠ t → s.kind k ≠ .idle →
    s'.units k = s.units k ∧ s'.buildPower k = s.buildPower k ∧ s'.isDead k = s.isDead k

theorem AssignedTo.grown (h : AssignedTo g s s' t u) (hlt : t < s.nextTask) (hg : Grown s' s'') :
    AssignedTo g s s'' t u where
  inv := hg.inv h.inv
  frame := h.frame.trans (hg.frame h.inv.wf.assigned)
  mem := by rw [(hg.old t (.inl (hlt.trans_le h.frame.next))).units]; exact h.mem
  live := by rw [(hg.old t (.inl (hlt.trans_le h.frame.next))).isDead]; exact h.live
  other k hk hkt hkind := by
    have ho := hg.old k (.inl (hk.trans_le h.frame.next))
    rw [ho.units, ho.buildPower, ho.isDead]
    exact h.other k hk hkt hkind

theorem unitAssignTo_spec (hi : Inv g s) (hj : Joinable s t u) (hk : ∀ bt, s.kind t ≠ .builder bt) :
    AssignedTo g s (s.unitAssignTo t u) t u := by
  have hs := hi.wf.shape
  have he := joins_unitAssignTo (u := u) hs hj.kind.2
  have hnp : (s.tasks t).isPull ≠ true := hs.not_pull hk
  refine ⟨⟨⟨he.shape hs, he.assigned hs hi.wf.assigned hj, he.lists hi.wf.lists, ?_⟩,
    he.linked hs hi.wf.assigned hj hi.linked⟩, ?_, ?_, hj.live, ?_⟩
  · refine he.books hs hi.wf.assigned hj hi.wf.books (fun k hp => ?_) rfl
    have hkt : k ≠ t := fun hkt => hnp (hkt ▸ hp)
    rw [if_neg hkt]
    rfl
  · refine he.frame hs hi.wf.assigned hj (hk _) rfl rfl ?_
    rw [if_neg hnp]
    rfl
  · rw [he.units, if_pos rfl]
    exact mem_insert_self ..
  · intro k _ hkt hkind
    rw [he.units, if_neg hkt, if_neg (hs.ne_idle hkind _)]
    exact ⟨rfl, rfl, rfl⟩

theorem builderAssignTo_other (hs : Shape s) (hj : Joinable s t u) (k : ℕ) (hkt : k ≠ t) (hkind : s.kind k ≠ .idle) :
    (s.builderAssignTo g t u).units k = s.units k ∧ (s.builderAssignTo g t u).buildPower k = s.buildPower k ∧
      (s.builderAssignTo g t u).isDead k = s.isDead k := by
  have he := joins_builderAssignTo (g := g) (u := u) hs hj.kind.2
  rw [he.units, if_neg hkt, if_neg (hs.ne_idle hkind _)]
  exact ⟨rfl, update_of_ne hkt .., rfl⟩

section

variable (hi : Inv g s) (hj : Joinable s t u)
include hi hj

theorem builderAssignTo_inv : Inv g (s.builderAssignTo g t u) := by
  have hs := hi.wf.shape
  have he := joins_builderAssignTo (g := g) (u := u) hs hj.kind.2
  refine ⟨⟨he.shape hs, he.assigned hs hi.wf.assigned hj, he.lists hi.wf.lists, ?_⟩,
    he.linked hs hi.wf.assigned hj hi.linked⟩
  refine he.books hs hi.wf.assigned hj hi.wf.books (fun k _ => ?_) rfl
  change update s.buildPower t (s.buildPower t + g.buildSpeed u) k = _
  rw [update_apply]
  split_ifs with hkt
  · rw [hkt]
  · rfl

theorem builderAssignTo_spec (hk : s.kind t ≠ .builder .guard) : AssignedTo g s (s.builderAssignTo g t u) t u := by
  have hs := hi.wf.shape
  have he := joins_builderAssignTo (g := g) (u := u) hs hj.kind.2
  refine ⟨builderAssignTo_inv hi hj, he.frame hs hi.wf.assigned hj hk rfl rfl rfl, ?_, hj.live,
    fun k _ => builderAssignTo_other hs hj k⟩
  rw [he.units, if_pos rfl]
  exact mem_insert_self ..

theorem guardAssignTo_spec (hk : s.kind t = .builder .guard) :
    AssignedTo g s ((s.builderAssignTo g t u).delBuildPower g u) t u := by
  have hs := hi.wf.shape
  have ha := hi.wf.assigned
  have he := joins_builderAssignTo (g := g) (u := u) hs hj.kind.2
  have hsame : Same (s.builderAssignTo g t u) ((s.builderAssignTo g t u).delBuildPower g u) := same_delBuildPower
  have hworker : u ∈ s.workers := hj.worker (hs.manager t _ hk)
  have hoff : ¬ OnGuard s u := fun ⟨k, hkg, hu⟩ =>
    Joins.notMem hs ha hj (hkg.trans_ne nofun) hu
  have hguard : ∀ v, OnGuard ((s.builderAssignTo g t u).delBuildPower g u) v ↔ OnGuard s v ∨ v = u := by
    intro v
    rw [hsame.onGuard, he.onGuard hs ha hj, and_iff_left hk]
  refine ⟨hsame.inv (builderAssignTo_inv hi hj), ⟨(he.core hs ha hj rfl).trans (hsame.core rfl), ?_, ?_⟩, ?_, hj.live,
    fun k _ => builderAssignTo_other hs hj k⟩
  · have hsum : activePower g s = activePower g ((s.builderAssignTo g t u).delBuildPower g u) +
        ∑ v ∈ ({u} : Finset U), g.buildSpeed v := by
      refine activePower_leave rfl (singleton_subset_iff.mpr hworker) (by simp [hguard]) fun v _ => ?_
      rw [hguard, mem_singleton]
      constructor
      · intro hv
        exact ⟨.inl hv, fun h' => hoff (h' ▸ hv)⟩
      · rintro ⟨hv | hv, hne⟩
        · exact hv
        · exact absurd hv hne
    rw [sum_singleton] at hsum
    change s.workerPower - g.buildSpeed u - _ = _
    rw [hsum]
    ring
  · intro v _ r hr hp
    rw [Placed, hguard]
    change v ∈ (if g.isRespRole u r = true then _ else _ : SRoleInfo U).units ↔ _
    rcases eq_or_ne v u with rfl | hne
    · rw [if_pos hr]
      simp
    · have hmem : v ∈ (if g.isRespRole u r = true then
          (⟨max ((s.roleInfos r).cost - g.costM u) 0, (s.roleInfos r).units.erase u⟩ : SRoleInfo U)
          else s.roleInfos r).units ↔ v ∈ (s.roleInfos r).units := by
        split_ifs
        · exact ⟨mem_of_mem_erase, fun h => mem_erase.mpr ⟨hne, h⟩⟩
        · exact Iff.rfl
      refine hmem.trans (hp.trans ?_)
      simp [hne]
  · change u ∈ (s.builderAssignTo g t u).units t
    rw [he.units, if_pos rfl]
    exact mem_insert_self ..

theorem assignTo_spec : Ensures (assignTo g t u) s fun _ s' => AssignedTo g s s' t u := by
  refine .read_seq ?_
  split
  · rename_i hk
    exact absurd hk hj.kind.1
  · rename_i hk
    exact absurd hk hj.kind.2
  · rename_i hk
    exact .write (unitAssignTo_spec hi hj (fun _ => hk.trans_ne nofun))
  · rename_i hk
    exact .write (unitAssignTo_spec hi hj (fun _ => hk.trans_ne nofun))
  · rename_i hk
    have ha := unitAssignTo_spec hi hj (fun _ => hk.trans_ne nofun)
    refine .write_seq <| askFlag_seq fun isMobileRepair => .when (fun _ => ?_) fun _ => ha
    exact .seq (enqueueRepair_spec ha.inv.wf.shape ha.inv.wf.lists) fun _ s' h => .ret (ha.grown hj.lt h.1)
  · rename_i hk
    exact .write (guardAssignTo_spec hi hj hk)
  · rename_i hk
    exact .write (builderAssignTo_spec hi hj (by rw [hk]; simpa using ‹_›))

end

end Circuit.Spec.TaskRuns
