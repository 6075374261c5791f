import CircuitAI.Framework.Steps
import CircuitAI.Proof.AreaUpdate.Effects
import Mathlib.Algebra.Order.Ring.Nat

/-!
# The countdown of an area update

Between updates all AIs hold the data in use (`Resting`). From the announcement on `aiToUpdate` is the number of AIs
that still have a task, and an AI without a task holds the next data (`Counting`). A report keeps one of the two
(`Counting.report`), so that an update ends when all AIs that are left have taken the data over (`swap_settled`).
The release of an AI that has reported counts it twice (`swap_early`).
-/

set_option linter.unusedSectionVars false

namespace Circuit.Spec.AreaUpdates

open Impl.AreaUpdate Impl.AreaUpdate.State Framework Relation Function List

variable {α τ : Type*} [DecidableEq α] [DecidableEq τ] {team : α → τ} {s t : State α τ} {a : α}

/-! ## The invariant -/

def Fresh (d : Bool) (m : Shared) : Prop := m.isAreaUpdated = true → m.areaData = d

def Stage (team : α → τ) (s : State α τ) (a : α) : Prop :=
  s.onceTasks a = [.updateAreaUsers] ∨
    (s.areaData a = s.getNextAreaData ∧ (s.enemyManager (team a)).isAreaUpdated = true) ∧
      (s.onceTasks a = [.staggered] ∨ s.onceTasks a = [] ∧ (s.pathfinder (team a)).isAreaUpdated = true)

structure Resting (team : α → τ) (s : State α τ) : Prop where
  settled : ∀ a ∈ s.circuits, Settled team s a
  count : s.aiToUpdate ≤ 0
  queue : s.workTasks.length + s.finishTasks.length ≤ 1
  idle : s.isUpdating = false → s.workTasks = [] ∧ s.finishTasks = []

structure Counting (team : α → τ) (k : ℤ) (s : State α τ) : Prop where
  updating : s.isUpdating = true
  work : s.workTasks = []
  finish : s.finishTasks = []
  count : s.aiToUpdate = owing s.circuits s.onceTasks + k
  stage : ∀ a ∈ s.circuits, Stage team s a
  fresh : ∀ a ∈ s.circuits, Fresh s.getNextAreaData (s.pathfinder (team a)) ∧
    Fresh s.getNextAreaData (s.enemyManager (team a))

def Kept (team : α → τ) (t : State α τ) (d : Bool) : Prop :=
  t.circuits.Nodup ∧ (Resting team t ∨ Counting team 0 t ∧ 0 < t.aiToUpdate ∧ t.pAreaData = d)

def brought (d : Bool) (x : τ) (m : τ → Shared) : τ → Shared := update m x ((m x).updateAreaUsers d)

theorem brought_isAreaUpdated {d : Bool} {x y : τ} {m : τ → Shared} (h : y = x ∨ (m y).isAreaUpdated = true) :
    (brought d x m y).isAreaUpdated = true := by
  unfold brought
  by_cases hy : y = x
  · rw [hy, update_self]
    unfold Shared.updateAreaUsers
    split
    · assumption
    · rfl
  · rw [update_of_ne hy]
    exact h.resolve_left hy

theorem Fresh.brought {d : Bool} {x y : τ} {m : τ → Shared} (h : Fresh d (m y)) : Fresh d (brought d x m y) := by
  unfold AreaUpdates.brought
  by_cases hy : y = x
  · subst hy
    rw [update_self]
    unfold Shared.updateAreaUsers
    split
    · exact h
    · exact fun _ => rfl
  · rw [update_of_ne hy]
    exact h

/-! ## Reports -/

theorem Counting.settled {k : ℤ} (h : Counting team k s) (ha : a ∈ s.circuits) (hdone : s.onceTasks a = []) :
    s.areaData a = s.getNextAreaData ∧ (s.pathfinder (team a)).areaData = s.getNextAreaData ∧
      (s.enemyManager (team a)).areaData = s.getNextAreaData := by
  obtain ⟨hp, he⟩ := h.fresh a ha
  rcases h.stage a ha with hs | ⟨⟨harea, henemy⟩, hs | ⟨_, hpath⟩⟩
  · exact absurd (hdone.symm.trans hs) (by simp)
  · exact absurd (hdone.symm.trans hs) (by simp)
  · exact ⟨harea, hp hpath, he henemy⟩

theorem Counting.report (h : Counting team 1 s) (hnd : s.circuits.Nodup) : Kept team s.onAreaUsersUpdated s.pAreaData := by
  have hcount := h.count
  by_cases h1 : s.aiToUpdate = 1
  · -- nobody has a task left
    have hzero : owing s.circuits s.onceTasks = 0 := by omega
    rw [onAreaUsersUpdated_of_eq h1]
    refine ⟨hnd, .inl ⟨fun a ha => ?_, Int.le_refl 0, by simp [h.work, h.finish], fun _ => ⟨h.work, h.finish⟩⟩⟩
    have hdone := owing_eq_zero.1 hzero a ha
    exact ⟨hdone, h.settled ha hdone⟩
  · rw [onAreaUsersUpdated_of_ne h1]
    refine ⟨hnd, .inr ⟨⟨h.updating, h.work, h.finish, ?_, h.stage, h.fresh⟩, ?_, rfl⟩⟩
    · show s.aiToUpdate - 1 = owing s.circuits s.onceTasks + 0
      omega
    · show 0 < s.aiToUpdate - 1
      omega

section

variable (h : Resting team s) (hnd : s.circuits.Nodup)
include h hnd

theorem Resting.report : Kept team s.onAreaUsersUpdated s.pAreaData := by
  have hcount := h.count
  rw [onAreaUsersUpdated_of_ne (by omega)]
  refine ⟨hnd, .inl ⟨h.settled, ?_, h.queue, h.idle⟩⟩
  show s.aiToUpdate - 1 ≤ 0
  omega

/-! ## Steps between updates -/

theorem Resting.enqueue : Kept team s.enqueueUpdate s.pAreaData := by
  unfold enqueueUpdate
  split
  · exact ⟨hnd, .inl h⟩
  · rename_i hidle
    obtain ⟨hw, hf⟩ := h.idle (by simpa using hidle)
    exact ⟨hnd, .inl ⟨h.settled, h.count, by simp [hw, hf], by simp⟩⟩

theorem Resting.work (ha : a ∈ s.workTasks) : Kept team (s.runWorkTask a) s.pAreaData := by
  have hpos := length_pos_of_mem ha
  have hqueue := h.queue
  refine ⟨hnd, .inl ⟨h.settled, h.count, ?_, fun hidle => ?_⟩⟩
  · show (s.workTasks.erase a).length + (s.finishTasks ++ [a]).length ≤ 1
    rw [length_erase_of_mem ha, length_append, length_singleton]
    omega
  · rw [(h.idle hidle).1] at ha
    exact absurd ha (by simp)

theorem Resting.finish (ha : a ∈ s.finishTasks) : Kept team (s.runFinishTask team a) s.pAreaData := by
  have hpos := length_pos_of_mem ha
  have hqueue := h.queue
  have hwork : s.workTasks = [] := length_eq_zero_iff.1 (by omega)
  have hfinish : s.finishTasks.erase a = [] := by
    apply length_eq_zero_iff.1
    rw [length_erase_of_mem ha]
    omega
  have hupdating : s.isUpdating = true := by
    by_contra hidle
    rw [(h.idle (by simpa using hidle)).2] at ha
    exact absurd ha (by simp)
  unfold runFinishTask
  rw [scheduleUsersUpdate_eq (s := { s with finishTasks := s.finishTasks.erase a }) hnd]
  refine Counting.report ?_ (by exact hnd)
  refine ⟨hupdating, hwork, hfinish, ?_, fun b hb => .inl ?_, fun b hb => ?_⟩
  · show _ = (owing s.circuits (announced s.circuits s.onceTasks) : ℤ) + 1
    rw [owing_announced]
  · show announced s.circuits s.onceTasks b = _
    rw [announced, if_pos hb, (h.settled b hb).1]
    rfl
  · have hmem : team b ∈ s.circuits.map team := mem_map_of_mem hb
    have hfresh (m : τ → Shared) (d : Bool) : Fresh d (prepared team s.circuits m (team b)) := by
      rw [prepared, if_pos hmem]
      intro hset
      exact absurd hset (by simp [Shared.setAreaUpdated])
    exact ⟨hfresh _ _, hfresh _ _⟩

theorem Resting.release : Kept team (s.release a) s.pAreaData := by
  obtain ⟨b, hb⟩ := s.release_eq a
  rw [hb]
  apply Resting.report _ (hnd.erase a)
  refine ⟨fun c hc => ?_, h.count, ?_, fun hidle => ?_⟩
  · obtain ⟨hne, hc⟩ := hnd.mem_erase_iff.1 hc
    obtain ⟨htask, hrest⟩ := h.settled c hc
    refine ⟨?_, hrest⟩
    show update s.onceTasks a [] c = []
    rw [update_of_ne hne, htask]
  · have hw := length_filter_le (· != a) s.workTasks
    have hf := length_filter_le (· != a) s.finishTasks
    have hqueue := h.queue
    show (s.workTasks.filter _).length + (s.finishTasks.filter _).length ≤ 1
    omega
  · obtain ⟨hw, hf⟩ := h.idle hidle
    simp [hw, hf]

end

/-! ## Steps of an announced update -/

theorem Counting.enqueue (h : Counting team 0 s) (hnd : s.circuits.Nodup) (hpos : 0 < s.aiToUpdate) :
    Kept team s.enqueueUpdate s.pAreaData := by
  have heq : s.enqueueUpdate = s := if_pos h.updating
  rw [heq]
  exact ⟨hnd, .inr ⟨h, hpos, rfl⟩⟩

theorem Counting.updateAreaUsers (h : Counting team 0 s) (hnd : s.circuits.Nodup) (hpos : 0 < s.aiToUpdate)
    (ha : a ∈ s.circuits) (htask : s.onceTasks a = [.updateAreaUsers]) :
    Kept team (s.runOnceTask team a .updateAreaUsers) s.pAreaData := by
  have hrun : s.runOnceTask team a .updateAreaUsers =
      { s with
        onceTasks := update s.onceTasks a [.staggered]
        areaData := update s.areaData a s.getNextAreaData
        enemyManager := brought s.getNextAreaData (team a) s.enemyManager } := by
    simp [runOnceTask, State.updateAreaUsers, runTaskAfter, htask, getNextAreaData, brought]
  rw [hrun]
  refine ⟨hnd, .inr ⟨⟨h.updating, h.work, h.finish, ?_, fun b hb => ?_, fun b hb => ?_⟩, hpos, rfl⟩⟩
  · have hbefore := owing_eq_erase ha s.onceTasks
    have hafter := owing_eq_erase ha (update s.onceTasks a [.staggered])
    rw [owing_erase_update hnd] at hafter
    rw [htask, if_neg (by simp)] at hbefore
    rw [update_self, if_neg (by simp)] at hafter
    show s.aiToUpdate = owing s.circuits (update s.onceTasks a [.staggered]) + 0
    rw [hafter, ← hbefore, h.count]
  · by_cases hba : b = a
    · subst hba
      exact .inr ⟨⟨update_self .., brought_isAreaUpdated (.inl rfl)⟩, .inl (update_self ..)⟩
    · unfold Stage
      dsimp only
      rw [update_of_ne hba, update_of_ne hba]
      rcases h.stage b hb with htodo | ⟨⟨harea, he⟩, hrest⟩
      · exact .inl htodo
      · exact .inr ⟨⟨harea, brought_isAreaUpdated (.inr he)⟩, hrest⟩
  · exact ⟨(h.fresh b hb).1, (h.fresh b hb).2.brought⟩

theorem Counting.staggered (h : Counting team 0 s) (hnd : s.circuits.Nodup) (ha : a ∈ s.circuits)
    (htask : s.onceTasks a = [.staggered]) : Kept team (s.runOnceTask team a .staggered) s.pAreaData := by
  have hrun : s.runOnceTask team a .staggered = onAreaUsersUpdated
      { s with
        onceTasks := update s.onceTasks a []
        pathfinder := brought s.getNextAreaData (team a) s.pathfinder } := by
    simp [runOnceTask, State.staggered, htask, getNextAreaData, brought]
  rw [hrun]
  refine Counting.report ?_ (by exact hnd)
  refine ⟨h.updating, h.work, h.finish, ?_, fun b hb => ?_, fun b hb => ?_⟩
  · have hbefore := owing_eq_erase ha s.onceTasks
    have hafter := owing_eq_erase ha (update s.onceTasks a [])
    rw [owing_erase_update hnd] at hafter
    rw [htask, if_neg (by simp)] at hbefore
    rw [update_self, if_pos rfl] at hafter
    have hcount := h.count
    show s.aiToUpdate = owing s.circuits (update s.onceTasks a []) + 1
    omega
  · by_cases hba : b = a
    · subst hba
      rcases h.stage b hb with hs | ⟨hstage, _⟩
      · exact absurd (htask.symm.trans hs) (by simp)
      · exact .inr ⟨hstage, .inr ⟨update_self .., brought_isAreaUpdated (.inl rfl)⟩⟩
    · unfold Stage
      dsimp only
      rw [update_of_ne hba]
      rcases h.stage b hb with htodo | ⟨hstage, hlater | ⟨hdone, hp⟩⟩
      · exact .inl htodo
      · exact .inr ⟨hstage, .inl hlater⟩
      · exact .inr ⟨hstage, .inr ⟨hdone, brought_isAreaUpdated (.inr hp)⟩⟩
  · exact ⟨(h.fresh b hb).1.brought, (h.fresh b hb).2⟩

theorem Counting.once (h : Counting team 0 s) (hnd : s.circuits.Nodup) (hpos : 0 < s.aiToUpdate)
    (ha : a ∈ s.circuits) {x : Task} (hx : x ∈ s.onceTasks a) : Kept team (s.runOnceTask team a x) s.pAreaData := by
  rcases h.stage a ha with hs | ⟨_, hs | ⟨hs, _⟩⟩
  · obtain rfl : x = .updateAreaUsers := by simpa [hs] using hx
    exact h.updateAreaUsers hnd hpos ha hs
  · obtain rfl : x = .staggered := by simpa [hs] using hx
    exact h.staggered hnd ha hs
  · exact absurd hx (by simp [hs])

theorem Counting.release (h : Counting team 0 s) (hnd : s.circuits.Nodup) (ha : a ∈ s.circuits)
    (htask : s.onceTasks a ≠ []) : Kept team (s.release a) s.pAreaData := by
  obtain ⟨b, hb⟩ := s.release_eq a
  rw [hb]
  apply Counting.report _ (hnd.erase a)
  refine ⟨h.updating, by simp [h.work], by simp [h.finish], ?_, fun c hc => ?_, fun c hc => ?_⟩
  · have hbefore := owing_eq_erase ha s.onceTasks
    rw [if_neg htask] at hbefore
    have hcount := h.count
    show s.aiToUpdate = owing (s.circuits.erase a) (update s.onceTasks a []) + 1
    rw [owing_erase_update hnd]
    omega
  · obtain ⟨hne, hc⟩ := hnd.mem_erase_iff.1 hc
    unfold Stage
    dsimp only
    rw [update_of_ne hne]
    exact h.stage c hc
  · exact h.fresh c (mem_of_mem_erase hc)

/-! ## Runs -/

theorem Step.kept (hnd : s.circuits.Nodup) (h : Resting team s ∨ Counting team 0 s ∧ 0 < s.aiToUpdate)
    (hst : Step team Owes s t) : Kept team t s.pAreaData := by
  rcases h with h | ⟨h, hpos⟩
  · cases hst with
    | enqueue _ => exact h.enqueue hnd
    | release _ _ => exact h.release hnd
    | pending hp =>
      cases hp with
      | work ha => exact h.work hnd ha
      | finish _ ha => exact h.finish hnd ha
      | once hlive hx => exact absurd hx (by simp [(h.settled _ hlive).1])
  · cases hst with
    | enqueue _ => exact h.enqueue hnd hpos
    | release hlive hok => exact h.release hnd hlive (hok hpos)
    | pending hp =>
      cases hp with
      | work ha => exact absurd ha (by simp [h.work])
      | finish _ ha => exact absurd ha (by simp [h.finish])
      | once hlive hx => exact h.once hnd hpos hlive hx

theorem Reachable.kept (h : Reachable team Owes s) :
    s.circuits.Nodup ∧ (Resting team s ∨ Counting team 0 s ∧ 0 < s.aiToUpdate) := by
  obtain ⟨circuits, scheduler, hnd, hrun⟩ := h
  refine invariant_of_steps
    (P := fun s => s.circuits.Nodup ∧ (Resting team s ∨ Counting team 0 s ∧ 0 < s.aiToUpdate)) (fun u v hu huv => ?_) ⟨hnd, .inl ?_⟩ hrun
  · obtain ⟨hnd', hv⟩ := huv.kept hu.1 hu.2
    exact ⟨hnd', hv.imp id fun hv => ⟨hv.1, hv.2.1⟩⟩
  · exact ⟨fun _ _ => ⟨rfl, rfl, rfl, rfl⟩, Int.le_refl 0, by simp [new], fun _ => ⟨rfl, rfl⟩⟩

/-- In a run where no AI is released between its report and the end of the update, the shared pointer is swapped and
the update is ended only in a step after which every AI that is left has finished its tasks and holds the new data,
with the managers of its team. -/
theorem swap_settled (h : Reachable team Owes s) (hst : Step team Owes s t) (hswap : Swaps s t) :
    ∀ a ∈ t.circuits, Settled team t a := by
  obtain ⟨hnd, hs⟩ := h.kept
  obtain ⟨_, hrest | ⟨hcount, _, hsame⟩⟩ := hst.kept hnd hs
  · exact hrest.settled
  · -- an announced update goes on
    rcases hswap with hp | ⟨_, hu⟩
    · exact absurd hsame hp
    · exact absurd (hu.symm.trans hcount.updating) (by decide)

/-! ## An AI that is counted twice -/

def reported : State Bool Bool :=
  (new [false, true] false : State Bool Bool).enqueueUpdate
    |>.runWorkTask false
    |>.runFinishTask id false
    |>.runOnceTask id false .updateAreaUsers
    |>.runOnceTask id true .updateAreaUsers
    |>.runOnceTask id false .staggered

theorem reported_reachable (ok : State Bool Bool → Bool → Prop) : Reachable id ok reported := by
  refine ⟨[false, true], false, by decide, ?_⟩
  refine .tail (.tail (.tail (.tail (.tail (.single (.enqueue ?_)) (.pending (.work ?_)))
    (.pending (.finish ?_ ?_))) (.pending (.once ?_ ?_))) (.pending (.once ?_ ?_))) (.pending (.once ?_ ?_))
  all_goals decide +kernel

theorem swap_settled_reported : Settled id (reported.release true) false :=
  swap_settled (reported_reachable Owes) (.release (by decide +kernel) fun _ => by decide +kernel)
    (.inl (by decide +kernel)) false (by decide +kernel)

/-- The release of the AI that has reported ends the update before the other one has: the path finder of its team
still has the old data. -/
theorem swap_early :
    ∃ s t : State Bool Bool, Reachable id (fun _ _ => True) s ∧ Step id (fun _ _ => True) s t ∧ Swaps s t ∧
      true ∈ t.circuits ∧ t.onceTasks true = [.staggered] ∧ (t.pathfinder (id true)).areaData ≠ t.pAreaData :=
  ⟨reported, reported.release false, reported_reachable _, .release (by decide +kernel) trivial,
    .inl (by decide +kernel), by decide +kernel, by decide +kernel, by decide +kernel⟩

end Circuit.Spec.AreaUpdates
