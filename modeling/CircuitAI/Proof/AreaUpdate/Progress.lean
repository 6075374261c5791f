import CircuitAI.Framework.Steps
import CircuitAI.Proof.AreaUpdate.Effects
import Mathlib.Algebra.BigOperators.Group.List.Basic
import Mathlib.Algebra.Order.Ring.Nat

/-!
# An area update comes to its end

While an update runs, either one live scheduler has it in its queues, or the countdown is at most the number of AIs that
have a task (`Phase`). This needs no care about AIs that are counted twice. A pending step lowers `rank`, so that the
countdown comes to zero (`update_ends`). The release of an AI that has the update in its queues loses it for good
(`update_lost`).
-/

set_option linter.unusedSectionVars false

namespace Circuit.Spec.AreaUpdates

open Impl.AreaUpdate Impl.AreaUpdate.State Framework Relation Function List

variable {α τ : Type*} [DecidableEq α] [DecidableEq τ] {team : α → τ} {s t : State α τ} {a : α}

/-! ## Where an update is -/

variable {l : List α}

inductive Phase (s : State α τ) : Prop
  | idle (updating : s.isUpdating = false) (queue : s.workTasks ++ s.finishTasks = []) (count : s.aiToUpdate ≤ 0)
  | queued (a : α) (live : a ∈ s.circuits) (updating : s.isUpdating = true)
    (queue : s.workTasks ++ s.finishTasks = [a]) (count : s.aiToUpdate ≤ 0)
  | counting (updating : s.isUpdating = true) (queue : s.workTasks ++ s.finishTasks = [])
    (pos : 0 < s.aiToUpdate) (count : s.aiToUpdate ≤ owing s.circuits s.onceTasks)

theorem Phase.report (h : Phase s) (hcount : s.aiToUpdate ≤ 0) : Phase s.onAreaUsersUpdated := by
  rw [onAreaUsersUpdated_of_ne (by omega)]
  have hlt : s.aiToUpdate - 1 ≤ 0 := by omega
  cases h with
  | idle hu hq _ => exact .idle hu hq hlt
  | queued a ha hu hq _ => exact .queued a ha hu hq hlt
  | counting _ _ hpos _ => omega

theorem Phase.of_report (hu : s.isUpdating = true) (hq : s.workTasks ++ s.finishTasks = []) (hpos : 0 < s.aiToUpdate)
    (hcount : s.aiToUpdate ≤ owing s.circuits s.onceTasks + 1) : Phase s.onAreaUsersUpdated := by
  by_cases h1 : s.aiToUpdate = 1
  · rw [onAreaUsersUpdated_of_eq h1]
    exact .idle rfl hq (Int.le_refl 0)
  · rw [onAreaUsersUpdated_of_ne h1]
    refine .counting hu hq ?_ ?_
    · show 0 < s.aiToUpdate - 1
      omega
    · show s.aiToUpdate - 1 ≤ owing s.circuits s.onceTasks
      omega

theorem owing_le_update (hnd : s.circuits.Nodup) (ha : a ∈ s.circuits) (x : List Task) :
    owing s.circuits s.onceTasks ≤ owing s.circuits (update s.onceTasks a x) + if x = [] then 1 else 0 := by
  have hbefore := owing_eq_erase ha s.onceTasks
  have hafter := owing_eq_erase ha (update s.onceTasks a x)
  rw [owing_erase_update hnd, update_self] at hafter
  split at hbefore <;> split at hafter <;> simp_all

/-! ## Steps -/

theorem Phase.enqueue (h : Phase s) (hlive : s.scheduler ∈ s.circuits) : Phase s.enqueueUpdate := by
  unfold enqueueUpdate
  split
  · exact h
  · rename_i hidle
    cases h with
    | idle _ hq hc =>
      obtain ⟨hw, hf⟩ := append_eq_nil_iff.1 hq
      exact .queued s.scheduler hlive rfl (by simp [hw, hf]) hc
    | queued _ _ hu _ _ | counting hu _ _ _ => exact absurd hu hidle

theorem Phase.work (h : Phase s) (ha : a ∈ s.workTasks) : Phase (s.runWorkTask a) := by
  have hmem : a ∈ s.workTasks ++ s.finishTasks := mem_append_left _ ha
  cases h with
  | idle _ hq _ | counting _ hq _ _ => exact absurd hmem (by simp [hq])
  | queued b hb hu hq hc =>
    obtain rfl : a = b := by simpa [hq] using hmem
    have hsingle : s.workTasks = [a] ∧ s.finishTasks = [] := by
      rcases append_eq_singleton_iff.1 hq with ⟨hw, _⟩ | hw
      · exact absurd ha (by simp [hw])
      · exact hw
    refine .queued a hb hu ?_ hc
    show s.workTasks.erase a ++ (s.finishTasks ++ [a]) = [a]
    rw [hsingle.1, hsingle.2]
    simp

theorem Phase.finish (h : Phase s) (hnd : s.circuits.Nodup) (ha : a ∈ s.finishTasks) :
    Phase (s.runFinishTask team a) := by
  have hmem : a ∈ s.workTasks ++ s.finishTasks := mem_append_right _ ha
  unfold runFinishTask
  rw [scheduleUsersUpdate_eq (s := { s with finishTasks := s.finishTasks.erase a }) hnd]
  cases h with
  | idle _ hq _ | counting _ hq _ _ => exact absurd hmem (by simp [hq])
  | queued b hb hu hq hc =>
    obtain rfl : a = b := by simpa [hq] using hmem
    have hsingle : s.workTasks = [] ∧ s.finishTasks = [a] := by
      rcases append_eq_singleton_iff.1 hq with hf | ⟨_, hf⟩
      · exact hf
      · exact absurd ha (by simp [hf])
    refine .of_report hu (by simp [hsingle]) ?_ ?_
    · show (0 : ℤ) < s.circuits.length + 1
      omega
    · show (s.circuits.length + 1 : ℤ) ≤ owing s.circuits (announced s.circuits s.onceTasks) + 1
      exact Int.le_of_eq (by rw [owing_announced])

theorem Phase.updateAreaUsers (h : Phase s) (hnd : s.circuits.Nodup) (ha : a ∈ s.circuits) :
    Phase (s.runOnceTask team a .updateAreaUsers) := by
  cases h with
  | idle hu hq hc => exact .idle hu hq hc
  | queued b hb hu hq hc => exact .queued b hb hu hq hc
  | counting hu hq hpos hc =>
    refine .counting hu hq hpos (Int.le_trans hc ?_)
    have hle := owing_le_update hnd ha ((s.onceTasks a).erase .updateAreaUsers ++ [.staggered])
    rw [if_neg (by simp)] at hle
    simp only [runOnceTask, State.updateAreaUsers, runTaskAfter, update_self, update_idem]
    exact_mod_cast hle

theorem Phase.staggered (h : Phase s) (hnd : s.circuits.Nodup) (ha : a ∈ s.circuits) :
    Phase (s.runOnceTask team a .staggered) := by
  simp only [runOnceTask, State.staggered]
  cases h with
  | idle hu hq hc => exact Phase.report (.idle hu hq hc) hc
  | queued b hb hu hq hc => exact Phase.report (.queued b hb hu hq hc) hc
  | counting hu hq hpos hc =>
    refine .of_report hu hq hpos (Int.le_trans hc ?_)
    have hle := owing_le_update hnd ha ((s.onceTasks a).erase .staggered)
    dsimp only
    split at hle <;> omega

theorem Phase.release (h : Phase s) (hnd : s.circuits.Nodup) (ha : a ∈ s.circuits)
    (hok : a ∉ s.workTasks ∧ a ∉ s.finishTasks) : Phase (s.release a) := by
  obtain ⟨b, hb⟩ := s.release_eq a
  have hkept {l : List α} (hl : a ∉ l) : l.filter (· != a) = l := by
    refine filter_eq_self.2 fun c hc => bne_iff_ne.2 ?_
    rintro rfl
    exact hl hc
  rw [hb, hkept hok.1, hkept hok.2]
  cases h with
  | idle hu hq hc => exact Phase.report (.idle hu hq hc) hc
  | queued c hc hu hq hcount =>
    have hmem : c ∈ s.workTasks ∨ c ∈ s.finishTasks := mem_append.1 (by simp [hq])
    have hne : c ≠ a := by
      rintro rfl
      exact hmem.elim hok.1 hok.2
    exact Phase.report (.queued c (hnd.mem_erase_iff.2 ⟨hne, hc⟩) hu hq hcount) hcount
  | counting hu hq hpos hc =>
    refine .of_report hu hq hpos (Int.le_trans hc ?_)
    have hle := owing_eq_erase ha s.onceTasks
    show _ ≤ (owing (s.circuits.erase a) (update s.onceTasks a []) : ℤ) + 1
    rw [owing_erase_update hnd]
    split at hle <;> omega

theorem Pending.phase (h : Phase s) (hnd : s.circuits.Nodup) (hst : Pending team s t) : Phase t := by
  cases hst with
  | work ha => exact h.work ha
  | finish _ ha => exact h.finish hnd ha
  | @once _ x ha hx =>
    cases x with
    | updateAreaUsers => exact h.updateAreaUsers hnd ha
    | staggered => exact h.staggered hnd ha

theorem Pending.circuits (hnd : s.circuits.Nodup) (hst : Pending team s t) : t.circuits = s.circuits := by
  cases hst with
  | work _ => rfl
  | @finish a _ _ =>
    unfold runFinishTask
    rw [scheduleUsersUpdate_eq (s := { s with finishTasks := s.finishTasks.erase a }) hnd]
    exact (onAreaUsersUpdated_users _).1
  | @once _ x _ _ =>
    cases x with
    | updateAreaUsers => rfl
    | staggered => exact (onAreaUsersUpdated_users _).1

/-! ## The rank -/

def weight : Task → ℕ
  | .updateAreaUsers => 2
  | .staggered => 1

def load (f : α → List Task) (a : α) : ℕ := ((f a).map weight).sum

def rank (s : State α τ) : ℕ :=
  (2 * s.workTasks.length + s.finishTasks.length) * (2 * s.circuits.length + 1) +
    (s.circuits.map (load s.onceTasks)).sum

theorem sum_load_eq_erase (ha : a ∈ l) (f : α → List Task) :
    (l.map (load f)).sum = load f a + ((l.erase a).map (load f)).sum := by
  rw [((perm_cons_erase ha).map (load f)).sum_eq, map_cons, sum_cons]

theorem sum_load_erase_update (hl : l.Nodup) (a : α) (f : α → List Task) (x : List Task) :
    (l.erase a).map (load (update f a x)) = (l.erase a).map (load f) := by
  refine map_congr_left fun b hb => ?_
  have hne : b ≠ a := (hl.mem_erase_iff.1 hb).1
  simp [load, hne]

theorem sum_load_update (hl : l.Nodup) (ha : a ∈ l) {f : α → List Task} {x : Task} (hx : x ∈ f a) (y : List Task) :
    (l.map (load (update f a ((f a).erase x ++ y)))).sum + weight x = (l.map (load f)).sum + (y.map weight).sum := by
  have htask : load f a = weight x + (((f a).erase x).map weight).sum := by
    rw [load, ((perm_cons_erase hx).map weight).sum_eq, map_cons, sum_cons]
  rw [sum_load_eq_erase ha, sum_load_eq_erase ha f, sum_load_erase_update hl, htask]
  simp only [load, update_self, map_append, sum_append]
  omega

theorem sum_load_announced (l : List α) (f : α → List Task) :
    (l.map (load (announced l f))).sum = (l.map (load f)).sum + 2 * l.length := by
  have hload : l.map (load (announced l f)) = l.map fun a => load f a + 2 := by
    refine map_congr_left fun a ha => ?_
    simp [load, announced, ha, weight]
  rw [hload, sum_map_add]
  simp [Nat.mul_comm]

theorem rank_lt_of_queue {k n x y : ℕ} (h : x < y + n) : k * n + x < (k + 1) * n + y := by
  rw [Nat.add_mul, Nat.one_mul]
  omega

theorem rank_runWorkTask (ha : a ∈ s.workTasks) : rank (s.runWorkTask a) < rank s := by
  have hpos := length_pos_of_mem ha
  have hsteps : 2 * s.workTasks.length + s.finishTasks.length =
      2 * (s.workTasks.erase a).length + (s.finishTasks ++ [a]).length + 1 := by
    rw [length_erase_of_mem ha, length_append, length_singleton]
    omega
  unfold rank
  rw [hsteps]
  refine rank_lt_of_queue ?_
  dsimp only [runWorkTask]
  omega

theorem rank_runFinishTask (hnd : s.circuits.Nodup) (ha : a ∈ s.finishTasks) :
    rank (s.runFinishTask team a) < rank s := by
  have hpos := length_pos_of_mem ha
  have hsteps : 2 * s.workTasks.length + s.finishTasks.length =
      2 * s.workTasks.length + (s.finishTasks.erase a).length + 1 := by
    rw [length_erase_of_mem ha]
    omega
  unfold runFinishTask rank
  rw [scheduleUsersUpdate_eq (s := { s with finishTasks := s.finishTasks.erase a }) hnd, hsteps]
  simp only [onAreaUsersUpdated_users, sum_load_announced]
  refine rank_lt_of_queue ?_
  omega

theorem rank_runOnceTask (hnd : s.circuits.Nodup) (ha : a ∈ s.circuits) {x : Task} (hx : x ∈ s.onceTasks a) :
    rank (s.runOnceTask team a x) < rank s := by
  unfold rank
  cases x with
  | updateAreaUsers =>
    have hload := sum_load_update hnd ha hx [.staggered]
    simp only [runOnceTask, State.updateAreaUsers, runTaskAfter, update_self, update_idem]
    simp [weight] at hload
    omega
  | staggered =>
    have hload := sum_load_update hnd ha hx []
    simp only [runOnceTask, State.staggered, onAreaUsersUpdated_users]
    simp [weight] at hload
    omega

theorem Phase.exists_pending (h : Phase s) (hnd : s.circuits.Nodup) (hu : s.isUpdating = true) :
    ∃ t, Pending team s t ∧ rank t < rank s := by
  cases h with
  | idle hidle _ _ => exact absurd (hu.symm.trans hidle) (by decide)
  | queued a ha _ hq _ =>
    have hmem : a ∈ s.workTasks ∨ a ∈ s.finishTasks := mem_append.1 (by simp [hq])
    rcases hmem with hw | hf
    · exact ⟨_, .work hw, rank_runWorkTask hw⟩
    · exact ⟨_, .finish ha hf, rank_runFinishTask hnd hf⟩
  | counting _ _ hpos hc =>
    obtain ⟨a, ha, htask⟩ : ∃ a ∈ s.circuits, s.onceTasks a ≠ [] := by
      by_contra hnone
      have hzero : owing s.circuits s.onceTasks = 0 := owing_eq_zero.2 (by simpa using hnone)
      omega
    obtain ⟨x, hx⟩ := exists_mem_of_ne_nil _ htask
    exact ⟨_, .once ha hx, rank_runOnceTask hnd ha hx⟩

/-! ## Runs -/

theorem Step.phase (hnd : s.circuits.Nodup) (h : s.circuits = [] ∨ Phase s) (hst : Step team Unburdened s t) :
    t.circuits.Nodup ∧ (t.circuits = [] ∨ Phase t) := by
  cases hst with
  | enqueue hlive =>
    have hcircuits : s.enqueueUpdate.circuits = s.circuits := by
      unfold enqueueUpdate
      split <;> rfl
    rw [hcircuits]
    exact ⟨hnd, h.imp id fun h => h.enqueue hlive⟩
  | pending hp =>
    rw [hp.circuits hnd]
    exact ⟨hnd, h.imp id fun h => hp.phase h hnd⟩
  | @release a hlive hok =>
    have hcircuits : (s.release a).circuits = s.circuits.erase a := by
      obtain ⟨b, hb⟩ := s.release_eq a
      rw [hb]
      exact (onAreaUsersUpdated_users _).1
    rw [hcircuits]
    refine ⟨hnd.erase a, ?_⟩
    rcases hok with hok | hlast
    · exact h.imp (fun h => by simp [h]) fun h => h.release hnd hlive hok
    · exact .inl (by simp [hlast])

/-- In a run where no AI but the last is released while its scheduler holds the update, an update that runs and has
AIs left comes to its end by pending steps. -/
theorem update_ends (h : Reachable team Unburdened s) (hlive : s.circuits ≠ []) :
    ∃ t, ReflTransGen (Pending team) s t ∧ t.isUpdating = false := by
  obtain ⟨circuits, scheduler, hnd, hrun⟩ := h
  obtain ⟨hnd, hphase⟩ := invariant_of_steps
    (P := fun s => s.circuits.Nodup ∧ (s.circuits = [] ∨ Phase s)) (fun u v hu huv => huv.phase hu.1 hu.2)
    ⟨hnd, .inr (.idle rfl rfl (Int.le_refl 0))⟩ hrun
  refine exists_run_of_rank (P := fun s => s.circuits.Nodup ∧ Phase s) rank (fun u hu => ?_)
    ⟨hnd, hphase.resolve_left hlive⟩
  cases hupdating : u.isUpdating with
  | false => exact .inl rfl
  | true =>
    obtain ⟨v, hst, hlt⟩ := hu.2.exists_pending hu.1 hupdating
    exact .inr ⟨v, hst, ⟨(hst.circuits hu.1).symm ▸ hu.1, hst.phase hu.2 hu.1⟩, hlt⟩

def started : State Bool Unit := (new [false, true] false : State Bool Unit).enqueueUpdate

def ownerReleased : State Bool Unit :=
  ((started.runWorkTask false).runFinishTask (fun _ => ()) false).release false

/-- The AI that is left ends the update. -/
theorem update_ends_released : ownerReleased.isUpdating = true ∧ ownerReleased.circuits = [true] ∧
    ∃ t, ReflTransGen (Pending fun _ => ()) ownerReleased t ∧ t.isUpdating = false := by
  have hannounced : ReflTransGen (Step (fun _ => ()) Unburdened) (new [false, true] false)
      ((started.runWorkTask false).runFinishTask (fun _ => ()) false) :=
    .tail (.tail (.single (.enqueue (by decide))) (.pending (.work (by decide))))
      (.pending (.finish (by decide) (by decide)))
  have hreleased : Reachable (fun _ => ()) Unburdened ownerReleased :=
    ⟨[false, true], false, by decide, .tail hannounced (.release (by decide) (.inl (by decide)))⟩
  exact ⟨by decide, by decide, update_ends hreleased (by decide)⟩

/-! ## An update that is lost -/

structure Lost (s : State α τ) : Prop where
  updating : s.isUpdating = true
  work : s.workTasks = []
  finish : s.finishTasks = []
  once : ∀ a, s.onceTasks a = []
  count : s.aiToUpdate ≤ 0

theorem Lost.step {ok : State α τ → α → Prop} (h : Lost s) (hst : Step team ok s t) : Lost t := by
  cases hst with
  | enqueue _ =>
    have heq : s.enqueueUpdate = s := if_pos h.updating
    rw [heq]
    exact h
  | pending hp =>
    cases hp with
    | work ha => exact absurd ha (by simp [h.work])
    | finish _ ha => exact absurd ha (by simp [h.finish])
    | once _ hx => exact absurd hx (by simp [h.once])
  | @release a _ _ =>
    have hcount := h.count
    obtain ⟨b, hb⟩ := s.release_eq a
    rw [hb, onAreaUsersUpdated_of_ne (by dsimp only; omega)]
    refine ⟨h.updating, by simp [h.work], by simp [h.finish], fun c => ?_, ?_⟩
    · show update s.onceTasks a [] c = []
      by_cases hc : c = a <;> simp [hc, h.once]
    · show s.aiToUpdate - 1 ≤ 0
      omega

/-- The owner is released while the worker has its update: the AI that is left never sees the end of it. -/
theorem update_lost :
    ∃ s : State Bool Unit, Reachable (fun _ => ()) (fun _ _ => True) s ∧ s.circuits ≠ [] ∧ s.isUpdating = true ∧
      ∀ t, ReflTransGen (Step (fun _ => ()) fun _ _ => True) s t → t.isUpdating = true := by
  have hlost : Lost (started.release false) :=
    ⟨by decide, by decide, by decide, fun a => by cases a <;> decide, by decide⟩
  refine ⟨started.release false, ⟨[false, true], false, by decide, ?_⟩, by decide, hlost.updating, fun t h => ?_⟩
  · exact .tail (.single (.enqueue (by decide))) (.release (by decide) trivial)
  · exact (invariant_of_steps (P := Lost) (fun _ _ hu huv => hu.step huv) hlost h).updating

end Circuit.Spec.AreaUpdates
