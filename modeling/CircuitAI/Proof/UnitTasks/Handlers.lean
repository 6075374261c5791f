import CircuitAI.Proof.UnitTasks.Events

/-!
# What happens in an event

Every event leads from a good state to a good state (`handle_spec`), whatever the engine and the planning answer and
however deep calls are nested.
-/

set_option linter.unusedSectionVars false

namespace Circuit.Spec.TaskRuns

open Framework Impl.UnitTasks Function Option

variable {U ρ : Type} [DecidableEq U] {g : Game U ρ} {s s' s'' : State U ρ} {t : ℕ} {u : U} {n : ℕ} {l : List ℕ}

theorem Good.ensures {α : Type} {m : M U ρ α} (h : Good g s) (hm : Ensures m s fun _ s' => Inv g s' ∧ Frame g s s') :
    Ensures m s fun _ s' => Good g s' :=
  hm.mono fun _ _ hpost => h.step hpost.1 hpost.2

theorem dequeueKey_spec {key : State U ρ → U → Option ℕ} {done : Bool} (hi : Inv g s)
    (hkey : ∀ t, key s u = some t → s.isListed t = true) :
    Ensures (dequeueKey g n key u done) s fun _ s' => Inv g s' ∧ Frame g s s' := by
  refine .read_seq ?_
  split
  · exact .ret ⟨hi, .refl g s⟩
  · rename_i t ht
    exact (contract_run g n).dequeue (.refl g s) (hi.stoppable_of_listed (hkey t ht))

theorem dequeueKeys_seq {d₁ d₂ d₃ : Bool} {m : M U ρ Unit} {Q : Unit → State U ρ → Prop} (hi : Inv g s)
    (hm : ∀ s', Inv g s' → Frame g s s' → Ensures m s' Q) : Ensures (do
      dequeueKey g n (·.unfinishedUnits) u d₁
      dequeueKey g n (·.repairedUnits) u d₂
      dequeueKey g n (·.reclaimedUnits) u d₃
      m) s Q := by
  refine .seq (dequeueKey_spec hi fun t ht => (hi.wf.lists.unfinished u t ht).1) fun _ s₁ h₁ => ?_
  refine .seq (dequeueKey_spec h₁.1 fun t ht => (h₁.1.wf.lists.repaired u t ht).1) fun _ s₂ h₂ => ?_
  refine .seq (dequeueKey_spec h₂.1 fun t ht => (h₂.1.wf.lists.reclaimed u t ht).1) fun _ s₃ h₃ => ?_
  exact hm s₃ h₃.1 ((h₁.2.trans h₂.2).trans h₃.2)

/-! ## `UnitCreated` -/

theorem createdHandler_spec (h : Good g s) :
    Ensures (createdHandler g u) s fun _ s' => Good g s' ∧ s'.target = s.target ∧ s'.reclaimedUnits = s.reclaimedUnits := by
  refine .read_seq ?_
  split
  · rename_i m _ htask
    exact .write ⟨h.create htask m, rfl, rfl⟩
  · exact .ret ⟨h, rfl, rfl⟩

theorem Inv.setTarget (hi : Inv g s) (hlisted : s.isListed t = true) (htarget : s.target t = none)
    (hk : s.kind t ≠ .builder .reclaim) : Inv g { s with
      target := update s.target t (some u)
      unfinishedUnits := update s.unfinishedUnits u (some t) } := by
  have hl := hi.wf.lists
  have hrepair : s.kind t ≠ .builder .repair := fun h => hl.target t h htarget
  have hset : ∀ k, update s.target t (some u) k = if k = t then some u else s.target k := fun k =>
    update_apply ..
  have hkeep : ∀ k v, s.target k = some v → update s.target t (some u) k = some v := by
    intro k v hv
    rw [hset, if_neg, hv]
    rintro rfl
    rw [htarget] at hv
    cases hv
  refine ⟨⟨{ hi.wf.shape with }, { hi.wf.assigned with }, { hl with
    target := fun k hk' => ?_, repaired := fun v k hv => ?_, reclaimed := fun v k hv => ?_,
    unfinished := fun v k hv => ?_ }, { hi.wf.books with }⟩, fun k => { hi.linked k with repairer := fun hk' hd r hr => ?_ }⟩
  · change update s.target t (some u) k ≠ none
    rw [hset]
    split_ifs
    · exact some_ne_none u
    · exact hl.target k hk'
  · obtain ⟨h₁, h₂, h₃⟩ := hl.repaired v k hv
    exact ⟨h₁, h₂, hkeep k v h₃⟩
  · obtain ⟨h₁, h₂, h₃⟩ := hl.reclaimed v k hv
    exact ⟨h₁, h₂, hkeep k v h₃⟩
  · change update s.unfinishedUnits u (some t) v = some k at hv
    rw [update_apply] at hv
    split_ifs at hv with hvu
    · cases hv
      refine ⟨hlisted, hrepair, hk, ?_⟩
      rw [hvu]
      exact update_self ..
    · obtain ⟨h₁, h₂, h₃, h₄⟩ := hl.unfinished v k hv
      exact ⟨h₁, h₂, h₃, hkeep k v h₄⟩
  · obtain ⟨v, hv, R, hrR, hRd, hRk, hRt⟩ := (hi.linked k).repairer hk' hd r hr
    exact ⟨v, hv, R, hrR, hRd, hRk, hkeep R v hRt⟩

theorem builderCreated_spec {builder : U} {isBeingBuilt : Bool} (h : Good g s)
    (hfresh : isBeingBuilt = true → s.reclaimedUnits u = none) :
    Ensures (builderCreated g n u builder isBeingBuilt) s fun _ s' => Inv g s' ∧ Frame g s s' := by
  have hi := h.inv
  refine .read_seq ?_
  split
  · exact .ret ⟨hi, .refl g s⟩
  · rename_i t htask
    split
    · rename_i bt hk
      have hkind : s.kind t ≠ .nil ∧ s.kind t ≠ .idle := ⟨hk.trans_ne nofun, hk.trans_ne nofun⟩
      have hst := h.settled.startable hi hkind htask
      have hlt := hi.lt_of_mem hst.mem
      split_ifs with hbuilt
      · refine askFlag_seq fun isSame => ?_
        split_ifs with hsame
        · obtain ⟨htarget, hdef, -⟩ := hsame
          have hlisted := hi.wf.lists.buildDef t hlt hdef hst.live
          refine .write ⟨hi.setTarget hlisted htarget ?_, { Frame.refl g s with }⟩
          intro hrec
          obtain ⟨bt', hbt', -, -, hne⟩ := hi.wf.shape.buildDef t hdef
          exact hne (Kind.builder.inj (hbt'.symm.trans hrec))
        · refine .seq (enqueueReclaim_spec hi.wf.shape hi.wf.lists (some u)) fun t' s₁ hpost => ?_
          obtain ⟨hg, hd, hnew⟩ := hpost
          have hold := hg.old t (.inl hlt)
          have hge : s.nextTask ≤ t' := by
            refine hnew.resolve_right fun hrec => ?_
            rw [bind_some, hfresh hbuilt] at hrec
            cases hrec
          refine ((hst.grown hg).assign_spec (contract_run g n) ?_ ?_ hd ?_).mono fun _ s' h' =>
            ⟨h'.1, (hg.frame hi.wf.assigned).trans h'.2⟩
          · rw [hold.kind, hk]
            exact ⟨nofun, nofun⟩
          · rw [hold.manager, hi.wf.shape.manager t bt hk]
          · rintro rfl
            exact absurd hlt hge.not_gt
      · exact hst.dequeue_spec (contract_run g n) true hkind.2
    · exact .ret ⟨hi, .refl g s⟩

theorem unitCreated_spec {builder : Option U} {isBeingBuilt : Bool} (h : Good g s)
    (hp : Proper s (.unitCreated u builder isBeingBuilt)) :
    Ensures (unitCreated g n u builder isBeingBuilt) s fun _ s' => Good g s' := by
  obtain ⟨hfresh, hbuilt⟩ := hp
  have hjoin : Good g { s with teamUnits := insert u s.teamUnits } := by
    refine h.join fun hu t ht => ?_
    rw [(hfresh hu).1] at ht
    cases ht
  have hreclaimed : isBeingBuilt = true → s.reclaimedUnits u = none := by
    intro hb
    refine eq_none_iff_forall_ne_some.mpr fun t ht => ?_
    exact (hfresh (hbuilt hb)).2 t (h.inv.wf.lists.reclaimed u t ht).2.2
  refine .write_seq <| .seq (createdHandler_spec hjoin) fun _ s₁ h₁ => ?_
  split
  · exact .ret h₁.1
  · refine .read_seq <| .when (fun _ => h₁.1.ensures (builderCreated_spec h₁.1 fun hb => ?_)) fun _ => h₁.1
    rw [h₁.2.2]
    exact hreclaimed hb

/-! ## `UnitFinished` and `UnitDestroyed` -/

theorem Unfinished.frame (hu : Unfinished s u) (hi : Inv g s) (hf : Frame g s s') : Unfinished s' u := by
  have hnil : ∀ t, s.task u = some t → t < s.nextTask ∧ s.kind t = .nil := fun t ht =>
    ⟨hi.wf.assigned.lt u t ht, hu t ht⟩
  intro t ht
  rw [hf.free u hnil] at ht
  rw [hf.kind (hnil t ht).1]
  exact hu t ht

theorem unitFinished_spec (h : Good g s) (hp : Proper s (.unitFinished u)) :
    Ensures (unitFinished g n u) s fun _ s' => Good g s' := by
  obtain ⟨-, hu⟩ := hp
  have hjoin : Good g { s with teamUnits := insert u s.teamUnits } := h.join fun _ => hu
  have hteam : u ∈ insert u s.teamUnits := Finset.mem_insert_self ..
  -- only units of the military manager have a task before the builder manager looks at the unit
  refine .write_seq <| .seq (P := fun _ s₁ => Good g s₁ ∧ u ∈ s₁.teamUnits ∧
    (g.manager u = some .builder → Unfinished s₁ u)) (.when (fun hm => ?_) fun _ => ⟨hjoin, hteam, fun _ => hu⟩)
    fun _ s₁ h₁ => ?_
  · have hm' := of_decide_eq_true hm
    refine .write ⟨hjoin.finishFighter hu hteam hm', hteam, fun hb => ?_⟩
    rw [hm'] at hb
    cases hb
  · obtain ⟨h₁, hteam₁, hu₁⟩ := h₁
    refine dequeueKeys_seq h₁.inv fun s₂ hi hf => ?_
    have h₂ := h₁.step hi hf
    refine .when (fun hm => .write ?_) fun _ => h₂
    have hm' := of_decide_eq_true hm
    exact h₂.finishWorker ((hu₁ hm').frame h₁.inv hf) (by rw [hf.team]; exact hteam₁) hm'

theorem Dropped.good {isFinished : Bool} (hd : Dropped g s u isFinished s') (h : Good g s)
    (hm : g.manager u = some .military) : Good g s' := by
  have hne : g.manager u ≠ some .builder := by
    rw [hm]
    decide
  cases hd with
  | unfinished t htask hk => exact h
  | finished s₁ m hi hf htask => exact (h.step hi hf).destroyFighter htask hne

theorem unitDestroyed_spec (h : Good g s) (hu : u ∈ s.teamUnits) :
    Ensures (unitDestroyed g n u) s fun _ s' => Good g s' := by
  refine .seq (P := fun _ s₁ => Good g s₁ ∧ (g.manager u = some .builder → u ∈ s₁.teamUnits)) (.when (fun hm => ?_)
    fun _ => ⟨h, fun _ => hu⟩) fun _ s₁ h₁ => ?_
  · have hm' := of_decide_eq_true hm
    refine .seq (destroyedHandler_spec h) fun _ s₁ hd => .ret ⟨hd.good h hm', fun hb => ?_⟩
    rw [hm'] at hb
    cases hb
  · refine dequeueKeys_seq h₁.1.inv fun s₂ hi hf => ?_
    have h₂ := h₁.1.step hi hf
    by_cases hm : g.manager u = some .builder
    · rw [decide_eq_true hm]
      have hteam : u ∈ s₂.teamUnits := by
        rw [hf.team]
        exact h₁.2 hm
      refine .seq (P := fun _ s₃ => Good g { s₃ with teamUnits := s₃.teamUnits.erase u }) ?_ fun _ s₃ h₃ => .write h₃
      refine .seq (destroyedHandler_spec h₂) fun isFinished s₃ hd => ?_
      cases hd with
      | unfinished t htask hk =>
        refine .ret (h₂.leave fun hw => ?_)
        obtain ⟨t', ht', hk', -⟩ := h₂.inv.wf.assigned.task u hw
        rw [htask, some_inj] at ht'
        exact hk' (ht' ▸ hk)
      | finished s₃ m hi₃ hf₃ htask =>
        exact .write ((h₂.step hi₃ hf₃).destroyWorker htask (by rw [hf₃.team]; exact hteam) hm)
    · rw [decide_eq_false hm]
      refine .seq (P := fun _ s₃ => Good g s₃) (.ret h₂) fun _ s₃ h₃ => .write ?_
      exact h₃.leave fun hw => hm (h₃.builder u hw)

/-! ## Updates -/

theorem assignIdle_spec (hi : Inv g s) (hu : u ∈ s.units (idleTask .builder)) :
    Ensures (assignIdle g n u) s fun _ s' => Inv g s' ∧ Frame g s s' := by
  have ha := hi.wf.assigned
  have hs := hi.wf.shape
  refine .seq (makeTask_spec hs hi.wf.lists) fun task s₁ hpost => ?_
  obtain ⟨hg, hchoose⟩ := hpost
  have hi₁ := hg.inv hi
  have hf₁ : Frame g s s₁ := hg.frame ha
  cases task with
  | none => exact .ret ⟨hi₁, hf₁⟩
  | some t =>
    have hc := hchoose t rfl
    have hj : Joinable s₁ t u := by
      refine ⟨hc.lt, hc.live, ⟨hc.kind.1, hc.kind.2.1⟩, ?_, fun _ => ?_, fun hk => absurd hk hc.kind.2.2⟩
      · rw [hg.task, ha.pointer _ u hu, hc.manager]
      · rw [hg.workers]
        exact ha.worker _ u hu (by rw [State.manager, hs.idle])
    refine .seq (assignTo_spec hi₁ hj) fun _ s₂ h₂ => ?_
    refine (contract_run g n (.start t u) s₂ ⟨h₂.inv, h₂.mem, h₂.live⟩).mono fun _ s₃ h₃ => ?_
    exact ⟨h₃.inv, (hf₁.trans h₂.frame).trans h₃.frame⟩

theorem Good.setUpdate (h : Good g s) {updateUnits : Finset U} (hsub : updateUnits ⊆ s.units (idleTask .builder))
    (slice : ℕ) : Good g { s with updateUnits, updateSlice := slice } :=
  { h with
    inv := ⟨⟨{ h.inv.wf.shape with }, { h.inv.wf.assigned with update := hsub }, { h.inv.wf.lists with },
      { h.inv.wf.books with }⟩, fun k => { h.inv.linked k with }⟩ }

theorem idleLoop_spec (l : List U) : ∀ (i : ℕ) {s : State U ρ}, Good g s →
    Ensures (idleLoop g n l i) s fun _ s' => Good g s' := by
  induction l with
  | nil => exact fun _ _ h => .ret h
  | cons ass l ih =>
    intro i s h
    refine .read_seq <| askFlag_seq fun isRecent => ?_
    by_cases hskip : ass ∉ s.updateUnits ∨ isRecent = true
    · rw [if_pos hskip]
      exact ih i h
    · rw [if_neg hskip]
      rw [not_or, not_not] at hskip
      have hidle : ass ∈ s.units (idleTask .builder) := h.inv.wf.assigned.update hskip.1
      have h₁ : Good g { s with updateUnits := s.updateUnits.erase ass } :=
        h.setUpdate ((Finset.erase_subset ..).trans h.inv.wf.assigned.update) s.updateSlice
      refine .write_seq <| .seq (h₁.ensures (assignIdle_spec h₁.inv hidle)) fun _ s₂ h₂ => ?_
      split_ifs
      · exact .ret h₂
      · exact ih (i + 1) h₂

theorem updateIdle_spec (h : Good g s) : Ensures (updateIdle g n) s fun _ s' => Good g s' := by
  refine .write_seq <| .read_seq <| askOrder_seq fun l _ _ => idleLoop_spec l 0 (h.setUpdate ?_ _)
  split_ifs
  · exact Finset.Subset.refl _
  · exact h.inv.wf.assigned.update

theorem updateTask_spec (h : Good g s) (hlt : t < s.nextTask) (hlive : s.isDead t = false)
    (hk : s.kind t ≠ .nil ∧ s.kind t ≠ .idle) : Ensures (updateTask g n t) s fun _ s' => Good g s' := by
  refine askFlag_seq fun isTimeout => h.ensures ?_
  split_ifs
  · exact (contract_run g n).dequeue (.refl g s) (h.inv.stoppable_live hlt hlive hk)
  · exact update_spec (contract_run g n) h.inv h.settled hlt hlive

theorem Good.setUpdates (h : Good g s) (hl : ∀ t ∈ l, t ∈ s.buildUpdates) (i : ℕ) :
    Good g { s with buildUpdates := l, buildIterator := i } :=
  { h with
    inv := ⟨⟨{ h.inv.wf.shape with }, { h.inv.wf.assigned with },
      { h.inv.wf.lists with queued := fun t ht => h.inv.wf.lists.queued t (hl t ht) }, { h.inv.wf.books with }⟩,
      fun k => { h.inv.linked k with }⟩ }

theorem mem_of_mem_set_getLastD {i k x : ℕ} (hi : l[i]? = some k) (hx : x ∈ (l.set i (l.getLastD k)).dropLast) :
    x ∈ l := by
  have hlast : l.getLastD k ∈ l := by
    have hne : l ≠ [] := by
      rintro rfl
      cases hi
    rw [List.getLastD_eq_getLast?, List.getLast?_eq_some_getLast hne]
    exact List.getLast_mem hne
  rcases List.mem_or_eq_of_mem_set (List.mem_of_mem_dropLast hx) with h | h
  · exact h
  · exact h ▸ hlast

theorem buildLoop_spec (fuel : ℕ) : ∀ (k : ℕ) {s : State U ρ}, Good g s →
    Ensures (buildLoop g n fuel k) s fun _ s' => Good g s' := by
  induction fuel with
  | zero => exact fun _ _ _ => .fail
  | succ fuel ih =>
    intro k s h
    refine .read_seq ?_
    split
    · exact .ret h
    · rename_i t ht
      obtain ⟨hlt, hkind⟩ := h.inv.wf.lists.queued t (List.mem_of_getElem? ht)
      split_ifs with hk hd
      · exact .ret h
      · exact .write_seq (ih k (h.setUpdates (fun x hx => mem_of_mem_set_getLastD ht hx) _))
      · refine .seq (updateTask_spec h hlt (Bool.eq_false_iff.mpr hd) hkind) fun _ s₁ h₁ => .write_seq ?_
        exact ih (k - 1) (h₁.setUpdates (fun _ hx => hx) _)

theorem updateBuild_spec (h : Good g s) : Ensures (updateBuild g n) s fun _ s' => Good g s' :=
  .write_seq <| .read_seq <| buildLoop_spec n _ (h.setUpdates (fun _ hx => hx) _)

structure Removing (g : Game U ρ) (s : State U ρ) (l : List ℕ) : Prop where
  good : Good g s
  nodup : l.Nodup
  live : ∀ t ∈ l, t < s.nextTask ∧ s.isDead t = false ∧ ∃ bt, s.kind t = .builder bt

theorem removing_step (h : Removing g s (t :: l)) :
    Ensures (run g n (.dequeueTask t false)) s fun _ s' => Removing g s' l := by
  obtain ⟨hlt, hlive, bt, hk⟩ := h.live t List.mem_cons_self
  have hkind : s.kind t ≠ .nil ∧ s.kind t ≠ .idle ∧ s.kind t ≠ .retreat := ⟨hk.trans_ne nofun, hk.trans_ne nofun, hk.trans_ne nofun⟩
  have hst := h.good.inv.stoppable_live hlt hlive ⟨hkind.1, hkind.2.1⟩
  refine (contract_run g n (.dequeueTask t false) s hst).mono fun _ s' hst' => ?_
  refine ⟨h.good.step hst'.inv hst'.frame, h.nodup.of_cons, fun k hk' => ?_⟩
  obtain ⟨hlt', hlive', bt', hbt'⟩ := h.live k (List.mem_cons_of_mem t hk')
  have hne : k ≠ t := by
    rintro rfl
    exact (List.nodup_cons.mp h.nodup).1 hk'
  refine ⟨hlt'.trans_le hst'.frame.next, ?_, bt', by rw [hst'.frame.kind hlt', hbt']⟩
  rw [(hst'.aborted rfl hkind.2.2).isDead k hne, hlive']

section

variable (h : Good g s)
include h

theorem updateAreaUsers_spec : Ensures (updateAreaUsers g n) s fun _ s' => Good g s' := by
  refine .ask_seq fun x l hl => .read_seq ?_
  split_ifs with hlisted
  · refine (Ensures.forEach (I := fun l s' => Removing g s' l) (fun t l s' => removing_step) ⟨h, ?_, fun t ht => ?_⟩).mono
      fun _ s' h' => h'.good
    · cases x with
      | removeTasks l' =>
        simp only [ite_none_right_eq_some, some.injEq] at hl
        exact hl.2 ▸ hl.1
      | _ => cases hl
    · exact h.inv.wf.lists.listed t (hlisted t ht).1
  · exact .fail

/-! ## Repairers -/

theorem Good.setRepairer {c : Callback U} (hv : s.validateNewRepairer c = true) :
    Good g (s.setRepairer c.task (some c.newRep)) := by
  have hi := h.inv
  refine { h with
    inv := ⟨⟨{ hi.wf.shape with }, { hi.wf.assigned with }, { hi.wf.lists with }, { hi.wf.books with }⟩,
      fun k => { hi.linked k with repairer := fun hk hd r hr => ?_ }⟩ }
  change update s.repairer c.task (some c.newRep) k = some r at hr
  rw [update_apply] at hr
  split_ifs at hr with hkc
  · cases hr
    simp only [State.validateNewRepairer, Bool.and_eq_true, decide_eq_true_eq, any_eq_true] at hv
    obtain ⟨⟨⟨-, hquery⟩, -⟩, t, htask, ⟨hkind, -⟩, htarget⟩ := hv
    obtain ⟨u, hu, hq⟩ := (hi.linked k).query hk hd c.query (hkc ▸ hquery)
    have hst : Startable g s t c.newRep := by
      refine h.settled.startable hi ?_ htask
      exact ⟨hkind.trans_ne nofun, hkind.trans_ne nofun⟩
    exact ⟨u, hu, t, hst.mem, hst.live, hkind, htarget.trans hq⟩
  · exact (hi.linked k).repairer hk hd r hr

theorem costMapReady_spec (i : ℕ) : Ensures (costMapReady i) s fun _ s' => Good g s' := by
  refine .read_seq ?_
  split
  · exact .fail
  · rename_i c _
    have h₁ : Good g { s with callbacks := s.callbacks.eraseIdx i } :=
      h.step (Same.inv { Same.refl s with } h.inv) { Frame.refl g s with }
    refine .write_seq <| askFlag_seq fun isBetter => .when (fun hv => .write ?_) fun _ => h₁
    rw [Bool.and_eq_true] at hv
    exact h₁.setRepairer hv.1

/-! ## The military manager -/

theorem fighterAssign_spec (task : Option ℕ) : Ensures (fighterAssign g u task) s fun _ s' => Good g s' := by
  have hi := h.inv
  have hs := hi.wf.shape
  refine .read_seq ?_
  split_ifs with hu
  · have htask : s.task u = some (idleTask .military) := hi.wf.assigned.pointer _ u hu
    cases task with
    | none =>
      refine h.ensures <| .seq (newTask_unlisted (by decide) (.inr (by simp)) rfl) fun t s₁ hm => ?_
      have hmanager : s₁.manager t = .military := by rw [State.manager, hm.tasks]
      have hj : Joinable s₁ t u := by
        refine ⟨hm.lt, hm.new.isDead, hm.new.kind, ?_, fun hb => ?_, fun _ => hm.new.units⟩
        · rw [hm.grown.task, htask, hmanager]
        · rw [hmanager] at hb
          cases hb
      refine (assignTo_spec (hm.grown.inv hi) hj).mono fun _ s₂ h₂ => ?_
      exact ⟨h₂.inv, (hm.grown.frame hi.wf.assigned).trans h₂.frame⟩
    | some t =>
      simp only
      split_ifs with ht
      · obtain ⟨hlt, hk, hm, hlive⟩ := ht
        have hj : Joinable s t u := by
          refine ⟨hlt, hlive, ?_, by rw [htask, hm], fun hb => ?_, fun hr => ?_⟩
          · exact ⟨hk.trans_ne (by simp), hk.trans_ne (by simp)⟩
          · rw [hm] at hb
            cases hb
          · rw [hk] at hr
            cases hr
        exact h.ensures ((assignTo_spec hi hj).mono fun _ s₂ h₂ => ⟨h₂.inv, h₂.frame⟩)
      · exact .fail
  · exact .fail

theorem fighterLeave_spec (isRetreat : Bool) : Ensures (fighterLeave g n u isRetreat) s fun _ s' => Good g s' := by
  refine .read_seq ?_
  split
  · exact .fail
  · rename_i t htask
    by_cases hf : s.kind t = .fighter ∧ s.manager t = .military
    · rw [if_pos hf]
      obtain ⟨hk, hm⟩ := hf
      have hkind : s.kind t ≠ .nil ∧ s.kind t ≠ .retreat ∧ s.kind t ≠ .idle := ⟨hk.trans_ne nofun, hk.trans_ne nofun, hk.trans_ne nofun⟩
      have hst := h.settled.startable h.inv ⟨hkind.1, hkind.2.2⟩ htask
      refine h.ensures ?_
      split_ifs
      · have hspec := retreat_assign_spec (contract_run g n) hst hkind.2
        rw [hm] at hspec
        exact hspec.mono fun _ s' hpost => ⟨hpost.1, hpost.2.1⟩
      · exact hst.remove_spec (contract_run g n) hkind.2.2
    · rw [if_neg hf]
      exact .fail

/-! ## Events -/

theorem Good.manager_builder (hu : u ∈ s.teamUnits) (hm : g.manager u = some .builder)
    (htask : s.task u = some t) (hk : s.kind t ≠ .nil) : s.manager t = .builder := by
  obtain ⟨t', ht', -, hm'⟩ := h.inv.wf.assigned.task u (h.finished u hu t htask hk hm)
  rw [htask, some_inj] at ht'
  rw [ht', hm']

theorem travelEnd_spec : Ensures (toTask onTravelEnd u) s fun _ s' => Good g s' := by
  refine .read_seq ?_
  split
  · exact .fail
  · rename_i t htask
    refine .read_seq ?_
    split
    · rename_i bt hk
      have hkind : s.kind t ≠ .nil ∧ s.kind t ≠ .idle := ⟨hk.trans_ne nofun, hk.trans_ne nofun⟩
      have hmem := (h.settled.startable h.inv hkind htask).mem
      refine .write { h with
        inv := ⟨⟨{ h.inv.wf.shape with }, { h.inv.wf.assigned with }, { h.inv.wf.lists with },
          { h.inv.wf.books with traveled := fun k bt' hk' hd => ?_ }⟩, fun k => { h.inv.linked k with }⟩ }
      change update s.traveled t (insert u (s.traveled t)) k ⊆ s.units k
      rw [update_apply]
      split_ifs with hkt
      · rw [hkt] at hk' hd ⊢
        exact Finset.insert_subset hmem (h.inv.wf.books.traveled t bt' hk' hd)
      · exact h.inv.wf.books.traveled k bt' hk' hd
    · exact .ret h

theorem handle_spec {e : Event U} (hp : Proper s e) : Ensures (e.handle g n) s fun _ s' => Good g s' := by
  have hi := h.inv
  cases e with
  | unitCreated u builder isBeingBuilt => exact unitCreated_spec h hp
  | unitFinished u => exact unitFinished_spec h hp
  | unitIdle u =>
    refine .read_seq <| askFlag_seq fun isLater => .when (fun hc => .read_seq ?_) fun _ => h
    obtain ⟨hu, hm, -⟩ := of_decide_eq_true hc
    split
    · exact .fail
    · rename_i t htask
      exact h.ensures (onUnitIdle_spec (contract_run g n) hi h.settled htask (h.manager_builder hu hm htask))
  | unitDamaged u =>
    refine .read_seq <| .when (fun hc => .read_seq ?_) fun _ => h
    obtain ⟨hu, hm⟩ := of_decide_eq_true hc
    split
    · exact .fail
    · rename_i t htask
      exact h.ensures (onUnitDamaged_spec (contract_run g n) hi h.settled htask (h.manager_builder hu hm htask))
  | unitDestroyed u =>
    exact .read_seq <| .when (fun hu => unitDestroyed_spec h (of_decide_eq_true hu)) fun _ => h
  | travelEnd u => exact travelEnd_spec h
  | updateIdle => exact updateIdle_spec h
  | updateBuild => exact updateBuild_spec h
  | updateAreaUsers => exact updateAreaUsers_spec h
  | enqueue r =>
    refine h.ensures <| .seq (enqueue_spec hi.wf.shape hi.wf.lists r) fun t s' hg => .ret ?_
    exact ⟨hg.1.inv hi, hg.1.frame hi.wf.assigned⟩
  | abort t =>
    refine .read_seq ?_
    split_ifs with ht
    · exact h.ensures ((contract_run g n).dequeue (.refl g s) (hi.stoppable_of_listed ht))
    · exact .fail
  | costMapReady i => exact costMapReady_spec h i
  | staticRepair u nano =>
    refine .read_seq ?_
    split
    · exact .ret h
    · rename_i t ht
      have hk : s.kind t = .retreat := kind_retreatOf (show (some u).bind s.retreatOf = some t from ht)
      exact h.ensures ((checkRepairer_spec hi hk).mono fun _ s' hpost => ⟨hpost.1, hpost.2.frame⟩)
  | fighterAssign u t => exact fighterAssign_spec h t
  | fighterLeave u isRetreat => exact fighterLeave_spec h isRetreat
  | updateFight t =>
    refine .read_seq ?_
    split_ifs with hc
    · obtain ⟨hlt, -, hlive, hk⟩ := hc
      refine updateTask_spec h hlt hlive ?_
      rcases hk with hk | hk <;> rw [hk] <;> exact ⟨nofun, nofun⟩
    · exact .fail

end

end Circuit.Spec.TaskRuns
