import CircuitAI.Spec.AreaUpdates
import Mathlib.Algebra.Order.Ring.Int

/-!
# What the steps of an area update change

`onAreaUsersUpdated` either counts down or ends the update (`onAreaUsersUpdated_of_ne`, `onAreaUsersUpdated_of_eq`).
`scheduleUsersUpdate_eq` and `release_eq` write the other two places that call it as one report at the end.
`owing` counts the AIs that still have a task.
-/

namespace Circuit.Impl.AreaUpdate.State

open Function List

variable {α τ : Type*}

/-! ## Reports -/

variable {s : State α τ} {l : List α} {a : α}

theorem onAreaUsersUpdated_of_ne (h : s.aiToUpdate ≠ 1) :
    s.onAreaUsersUpdated = { s with aiToUpdate := s.aiToUpdate - 1 } := by
  have h0 : s.aiToUpdate - 1 ≠ 0 := by omega
  simp [onAreaUsersUpdated, h0]

theorem onAreaUsersUpdated_of_eq (h : s.aiToUpdate = 1) :
    s.onAreaUsersUpdated = { s with aiToUpdate := 0, pAreaData := s.getNextAreaData, isUpdating := false } := by
  simp [onAreaUsersUpdated, getNextAreaData, h]

/-- A report changes nothing that belongs to an AI or a scheduler. -/
@[simp]
theorem onAreaUsersUpdated_users (s : State α τ) :
    s.onAreaUsersUpdated.circuits = s.circuits ∧ s.onAreaUsersUpdated.workTasks = s.workTasks ∧
      s.onAreaUsersUpdated.finishTasks = s.finishTasks ∧ s.onAreaUsersUpdated.onceTasks = s.onceTasks := by
  unfold onAreaUsersUpdated
  dsimp only
  split <;> exact ⟨rfl, rfl, rfl, rfl⟩

variable [DecidableEq α] [DecidableEq τ] {team : α → τ}

/-! ## The announcement -/

def announced (l : List α) (f : α → List Task) (a : α) : List Task :=
  if a ∈ l then f a ++ [.updateAreaUsers] else f a

def prepared (team : α → τ) (l : List α) (m : τ → Shared) (t : τ) : Shared :=
  if t ∈ l.map team then (m t).setAreaUpdated false else m t

theorem announced_cons (ha : a ∉ l) (f : α → List Task) :
    announced l (update f a (f a ++ [.updateAreaUsers])) = announced (a :: l) f := by
  funext b
  unfold announced
  by_cases hb : b = a
  · subst hb
    simp [ha]
  · simp [hb]

omit [DecidableEq α] in
theorem prepared_cons (m : τ → Shared) :
    prepared team l (update m (team a) ((m (team a)).setAreaUpdated false)) = prepared team (a :: l) m := by
  funext t
  unfold prepared
  by_cases ht : t = team a
  · subst ht
    simp [Shared.setAreaUpdated]
  · simp [ht]

theorem foldl_scheduleUser (l : List α) (hl : l.Nodup) (s : State α τ) : l.foldl (scheduleUser team) s = { s with
        aiToUpdate := s.aiToUpdate + l.length
        onceTasks := announced l s.onceTasks
        pathfinder := prepared team l s.pathfinder
        enemyManager := prepared team l s.enemyManager } := by
  induction l generalizing s with
  | nil =>
    have ha : announced [] s.onceTasks = s.onceTasks := rfl
    have hp (m : τ → Shared) : prepared team [] m = m := rfl
    simp [ha, hp]
  | cons a l ih =>
    obtain ⟨ha, hl⟩ := nodup_cons.1 hl
    rw [foldl_cons, ih hl]
    simp only [scheduleUser, prepareAreaUpdate, runTaskAfter, announced_cons ha, prepared_cons, mk.injEq, true_and,
      length_cons, and_true]
    push_cast
    omega

theorem scheduleUsersUpdate_eq {s : State α τ} (h : s.circuits.Nodup) : s.scheduleUsersUpdate team = onAreaUsersUpdated
      { s with
        aiToUpdate := s.circuits.length + 1
        onceTasks := announced s.circuits s.onceTasks
        pathfinder := prepared team s.circuits s.pathfinder
        enemyManager := prepared team s.circuits s.enemyManager } := by
  simp [scheduleUsersUpdate, foldl_scheduleUser _ h]

/-! ## Releases -/

omit [DecidableEq τ] in
theorem release_eq (s : State α τ) (a : α) : ∃ b, s.release a = onAreaUsersUpdated
      { s with
        scheduler := b
        circuits := s.circuits.erase a
        workTasks := s.workTasks.filter (· != a)
        finishTasks := s.finishTasks.filter (· != a)
        onceTasks := update s.onceTasks a [] } := by
  have hdelegate (u : State α τ) : ∃ b, u.delegateAuthority a = { u with scheduler := b } := by
    unfold delegateAuthority
    split
    · exact ⟨_, rfl⟩
    · exact ⟨u.scheduler, rfl⟩
  have howner (u : State α τ) :
      ∃ b, (if u.scheduler = a then u.delegateAuthority a else u) = { u with scheduler := b } := by
    split
    · exact hdelegate u
    · exact ⟨u.scheduler, rfl⟩
  obtain ⟨b, hb⟩ := howner s.onAreaUsersUpdated
  refine ⟨b, ?_⟩
  unfold release
  dsimp only
  rw [hb]
  unfold onAreaUsersUpdated releaseScheduler
  dsimp only
  split <;> rfl

/-! ## Who still has a task -/

def owing (l : List α) (f : α → List Task) : ℕ := l.countP fun a => !(f a).isEmpty

omit [DecidableEq α] in
theorem owing_eq_zero {f : α → List Task} : owing l f = 0 ↔ ∀ a ∈ l, f a = [] := by
  simp [owing, countP_eq_zero]

theorem owing_eq_erase (ha : a ∈ l) (f : α → List Task) :
    owing l f = owing (l.erase a) f + if f a = [] then 0 else 1 := by
  unfold owing
  rw [(perm_cons_erase ha).countP_eq, countP_cons]
  by_cases h : f a = [] <;> simp [h]

theorem owing_erase_update (hl : l.Nodup) (a : α) (f : α → List Task) (x : List Task) :
    owing (l.erase a) (update f a x) = owing (l.erase a) f := by
  refine countP_congr fun b hb => ?_
  have hne : b ≠ a := (hl.mem_erase_iff.1 hb).1
  simp [hne]

theorem owing_announced (l : List α) (f : α → List Task) : owing l (announced l f) = l.length := by
  refine countP_eq_length.2 fun a ha => ?_
  simp [announced, ha]

end Circuit.Impl.AreaUpdate.State
