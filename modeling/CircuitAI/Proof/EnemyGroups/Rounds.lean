import CircuitAI.Spec.GroupRounds

/-!
# Which buffer a round of the enemy groups writes

`GetEnemyGroups` returns the vector of the first buffer for good, while the rounds write the two buffers in turn. A
round that is done while the first buffer is current writes the second one and starts from what was published
(`round_buffered`); one that is done while the second buffer is current writes what `GetEnemyGroups` returns
(`writes_groupSlot`), and starts from the groups of an earlier round (`round_unbuffered`).
-/

set_option linter.unusedSectionVars false

namespace Circuit.Spec.GroupRounds

open Framework Impl.EnemyGroups State
open Impl.TerrainManager (AIFloat3)

variable {ρ : Type*} [DecidableEq ρ] {mod : InitThrMod} {enemyPos : AIFloat3} {s t : State ρ} {e : Event ρ}
  {es : List (Event ρ)}

/-! ## Steps -/

@[simp]
theorem prepare_groups : (s.prepare.groupData.get s.groupData.next).enemyGroups =
    (s.groupData.get s.groupData.cur).enemyGroups := by
  simp [prepare]

theorem next_of_first (h : s.groupData.cur = .first) : s.groupData.next = .second := by
  simp [Buffers.next, h, Slot.other]

theorem next_of_second (h : s.groupData.cur = .second) : s.groupData.next = .first := by
  simp [Buffers.next, h, Slot.other]

theorem Step.written_eq (hst : Step mod s e t) {slot : Slot} (h : e.written = some slot) : slot = s.groupData.next := by
  cases hst <;> simp_all [Event.written]

theorem getEnemyGroups_prepare (h : s.groupData.cur = .first) : s.prepare.getEnemyGroups = s.getEnemyGroups := by
  simp [prepare, getEnemyGroups, groupSlot, next_of_first h]

theorem getEnemyGroups_update (h : s.groupData.cur = .first) : (s.update mod).getEnemyGroups = s.getEnemyGroups := by
  simp [update, getEnemyGroups, groupSlot, next_of_first h]

/-! ## Runs -/

theorem Run.published_eq (h : Run mod enemyPos es s)
    (hs : s.groupData.cur = .first ∨ s.worker = .idle ∨ s.worker = .queued) :
    s.getEnemyGroups = published enemyPos es := by
  induction h with
  | new => rfl
  | @step s t es e h hst ih =>
    cases hst with
    | enqueue hw hu => exact ih (.inr (.inl hw))
    | prepare hw =>
      have hcur : s.groupData.cur = .first := by simpa [prepare] using hs
      rw [getEnemyGroups_prepare hcur]
      exact ih (.inl hcur)
    | update hw =>
      have hcur : s.groupData.cur = .first := by simpa [update] using hs
      rw [getEnemyGroups_update hcur]
      exact ih (.inl hcur)
    | apply hw => rfl

/-- Every step of every run that is taken while the first buffer is current keeps to the double buffering, whatever the
rounds before it were. -/
theorem round_buffered (h : Run mod enemyPos es s) (hst : Step mod s e t) (hcur : s.groupData.cur = .first) :
    Buffered enemyPos es e := by
  refine ⟨fun hw => ?_, ?_⟩
  · have hslot := hst.written_eq hw
    rw [next_of_first hcur] at hslot
    exact absurd hslot (by decide)
  · intro slot groups he
    have hread := h.published_eq (.inl hcur)
    cases hst with
    | prepare hq =>
      obtain ⟨-, rfl⟩ := Event.prepare.inj he
      rw [prepare_groups, hcur]
      exact hread
    | _ => cases he

theorem writes_groupSlot (hst : Step mod s e t) (hcur : s.groupData.cur = .second) {slot : Slot}
    (hw : e.written = some slot) : slot = State.groupSlot := by
  rw [hst.written_eq hw, next_of_second hcur]
  rfl

/-! ## Two rounds -/

def stranger : EnemyData Unit := ⟨7, none, ⟨8, 0, 8⟩, 0, 1, true⟩

def unitMod : InitThrMod := ⟨1, 0⟩

def roundOne : State Unit := ((State.new .zeroVector).enqueueUpdate [stranger] []).prepare.update unitMod |>.apply

theorem enqueue_stranger {s : State Unit} (h : s.worker = .idle) (hu : s.isUpdating = false) :
    Step unitMod s .enqueue (s.enqueueUpdate [stranger] []) := .enqueue h hu

theorem run_roundOne : ∃ es, Run unitMod .zeroVector es roundOne :=
  ⟨_, (((Run.new.step (.enqueue rfl rfl)).step (.prepare rfl)).step (.update rfl)).step (.apply rfl)⟩

theorem round_buffered_one : ∃ (es : List (Event Unit)) (s t : State Unit) (e : Event Unit),
    Run unitMod .zeroVector es s ∧ Step unitMod s e t ∧ s.groupData.cur = .first ∧ e.written = some .second ∧
      Buffered .zeroVector es e := by
  have h := Run.new.step (enqueue_stranger (s := .new .zeroVector) rfl rfl)
  exact ⟨_, _, _, _, h, .prepare rfl, rfl, rfl, round_buffered h (.prepare rfl) rfl⟩

/-- The second round writes the buffer that is read, and starts from the one group of the constructor and not from the
two that were published. -/
theorem round_unbuffered : ∃ (es : List (Event Unit)) (s t : State Unit) (slot : Slot)
    (groups : List (EnemyGroup Unit)), Run unitMod .zeroVector es s ∧ Step unitMod s (.prepare slot groups) t ∧
      slot = State.groupSlot ∧ groups ≠ published .zeroVector es := by
  obtain ⟨es, h⟩ := run_roundOne
  have h := h.step (enqueue_stranger rfl rfl)
  refine ⟨_, _, _, _, _, h, .prepare rfl, rfl, fun heq => ?_⟩
  rw [← h.published_eq (.inr (.inr rfl))] at heq
  have hlen := congrArg List.length heq
  revert hlen
  decide +kernel

end Circuit.Spec.GroupRounds
