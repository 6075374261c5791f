import CircuitAI.Spec.Authority

/-!
# Who owns the shared objects

Every AI that is recorded in the terrain data or a map manager has a release task that passes the object on, so that
both are owned in all runs (`Run.inv`). The enemy manager and the scheduler of the path finder are never passed on: they
stay with the AI that made them (`founder_released`), and are owned as long as that AI is not released before the other
ones of its team (`managers_owned`).
-/

set_option linter.unusedSectionVars false

namespace Circuit.Spec.Authority

open Impl.AllyTeam Impl.AllyTeam.State Function List

variable {α τ : Type*} [DecidableEq α] [DecidableEq τ] {team : α → τ} {s t : State α τ} {a c : α} {order : List α}
  {task k : ReleaseTask} {rest : List ReleaseTask} {cond : α → Prop} {owner : Option α}

/-! ## Release tasks -/

structure Keeps (s t : State α τ) : Prop where
  circuits : t.circuits = s.circuits
  gaCounter : t.gaCounter = s.gaCounter
  isInitialized : t.isInitialized = s.isInitialized
  initCount : ∀ T, (t.allyTeams T).initCount = (s.allyTeams T).initCount
  enemyManager : ∀ T, (t.allyTeams T).enemyManager = (s.allyTeams T).enemyManager
  pathfinder : ∀ T, (t.allyTeams T).pathfinder = (s.allyTeams T).pathfinder
  releaseTasks : ∀ b k, k ∈ s.releaseTasks b → k ∈ t.releaseTasks b

theorem mem_runOnRelease {b : α} (h : k ∈ s.releaseTasks b) : k ∈ (s.runOnRelease a task).releaseTasks b := by
  show k ∈ update s.releaseTasks a (s.releaseTasks a ++ [task]) b
  by_cases hb : b = a
  · subst hb
    rw [update_self]
    exact mem_append_left _ h
  · rw [update_of_ne hb]
    exact h

theorem mem_runOnRelease_self : task ∈ (s.runOnRelease a task).releaseTasks a := by
  show task ∈ update s.releaseTasks a (s.releaseTasks a ++ [task]) a
  simp

namespace Keeps

theorem refl (s : State α τ) : Keeps s s := ⟨rfl, rfl, rfl, fun _ => rfl, fun _ => rfl, fun _ => rfl, fun _ _ => id⟩

theorem trans {u : State α τ} (h : Keeps s t) (h' : Keeps t u) : Keeps s u where
  circuits := h'.circuits.trans h.circuits
  gaCounter := h'.gaCounter.trans h.gaCounter
  isInitialized := h'.isInitialized.trans h.isInitialized
  initCount T := (h'.initCount T).trans (h.initCount T)
  enemyManager T := (h'.enemyManager T).trans (h.enemyManager T)
  pathfinder T := (h'.pathfinder T).trans (h.pathfinder T)
  releaseTasks b k hk := h'.releaseTasks b k (h.releaseTasks b k hk)

theorem delegateTerrainData : Keeps s (s.delegateTerrainData order a) := by
  unfold State.delegateTerrainData
  split
  · exact ⟨rfl, rfl, rfl, fun _ => rfl, fun _ => rfl, fun _ => rfl, fun _ _ => mem_runOnRelease⟩
  · exact .refl s

theorem delegateAllyTeam : Keeps s (s.delegateAllyTeam team order a) := by
  unfold State.delegateAllyTeam
  split
  · next c hc =>
    have hteam : ∀ T, (update s.allyTeams (team a) ((s.allyTeams (team a)).setAuthority c) T).initCount =
        (s.allyTeams T).initCount ∧
        (update s.allyTeams (team a) ((s.allyTeams (team a)).setAuthority c) T).enemyManager =
          (s.allyTeams T).enemyManager ∧
        (update s.allyTeams (team a) ((s.allyTeams (team a)).setAuthority c) T).pathfinder =
          (s.allyTeams T).pathfinder := by
      intro T
      by_cases hT : T = team a
      · subst hT
        rw [update_self]
        exact ⟨rfl, rfl, rfl⟩
      · rw [update_of_ne hT]
        exact ⟨rfl, rfl, rfl⟩
    exact ⟨rfl, rfl, rfl, fun T => (hteam T).1, fun T => (hteam T).2.1, fun T => (hteam T).2.2,
      fun _ _ => mem_runOnRelease⟩
  · exact .refl s

theorem runTask (task : ReleaseTask) : Keeps s (s.runTask team order a task) := by
  cases task with
  | terrainData => exact delegateTerrainData
  | allyTeam => exact delegateAllyTeam

theorem foldl (rest : List ReleaseTask) : Keeps s (rest.foldl (State.runTask team order a) s) := by
  induction rest generalizing s with
  | nil => exact .refl s
  | cons k rest ih => exact (runTask k).trans ih

end Keeps

def Held (s : State α τ) (a : α) (rest : List ReleaseTask) (cond : α → Prop) (task : ReleaseTask) (owner : Option α) :
    Prop :=
  ∃ c, owner = some c ∧ s.isInitialized c = true ∧ cond c ∧ task ∈ s.releaseTasks c ∧
    (c = a → task ∈ rest ∨ ∀ b, s.isInitialized b = true → cond b → b = a)

theorem Held.skip (hk : Keeps s t) (hne : task ≠ k) (h : Held s a (k :: rest) cond task owner) :
    Held t a rest cond task owner := by
  obtain ⟨c, hc, hinit, hcond, htask, hlast⟩ := h
  refine ⟨c, hc, hk.isInitialized ▸ hinit, hcond, hk.releaseTasks c task htask, fun hca => ?_⟩
  rcases hlast hca with hmem | hall
  · exact .inl ((mem_cons.1 hmem).resolve_left hne)
  · exact .inr (hk.isInitialized ▸ hall)

theorem Held.other {b : α} (h : Held s a [] cond task owner) (hb : s.isInitialized b = true) (hcond : cond b)
    (hne : b ≠ a) : ∃ c, c ≠ a ∧ owner = some c ∧ s.isInitialized c = true ∧ cond c ∧ task ∈ s.releaseTasks c := by
  obtain ⟨c, hc, hinit, hcc, htask, hlast⟩ := h
  refine ⟨c, fun hca => ?_, hc, hinit, hcc, htask⟩
  rcases hlast hca with hmem | hall
  · simp at hmem
  · exact hne (hall b hb hcond)

structure Passing (team : α → τ) (a : α) (order : List α) (s : State α τ) (rest : List ReleaseTask) : Prop where
  order : ∀ b, b ∈ order ↔ s.isInitialized b = true
  terrainData : Held s a rest (fun _ => True) .terrainData s.terrainData
  mapManager : ∀ T, 0 < (s.allyTeams T).initCount → Held s a rest (team · = T) .allyTeam (s.allyTeams T).mapManager

theorem Passing.terrainData_step (h : Passing team a order s (.terrainData :: rest)) :
    Held (s.delegateTerrainData order a) a rest (fun _ => True) .terrainData
      (s.delegateTerrainData order a).terrainData := by
  unfold State.delegateTerrainData
  split
  · next c hc =>
    have hpred := find?_some hc
    simp only [Bool.and_eq_true, decide_eq_true_eq] at hpred
    exact ⟨c, rfl, hpred.1, trivial, mem_runOnRelease_self, fun hca => absurd hca hpred.2⟩
  · next hnone =>
    obtain ⟨c, hc, hinit, hcond, htask, -⟩ := h.terrainData
    refine ⟨c, hc, hinit, hcond, htask, fun _ => .inr fun b hb _ => ?_⟩
    have hb' := find?_eq_none.1 hnone b ((h.order b).2 hb)
    simpa [hb] using hb'

theorem Passing.allyTeam_step (h : Passing team a order s (.allyTeam :: rest)) (T : τ)
    (hT : 0 < (s.allyTeams T).initCount) : Held (s.delegateAllyTeam team order a) a rest (team · = T) .allyTeam
      ((s.delegateAllyTeam team order a).allyTeams T).mapManager := by
  obtain ⟨c', hc', hinit', hcond', htask', hlast'⟩ := h.mapManager T hT
  unfold State.delegateAllyTeam
  split
  · next c hc =>
    have hpred := find?_some hc
    simp only [Bool.and_eq_true, decide_eq_true_eq] at hpred
    obtain ⟨⟨hinit, hne⟩, hteam⟩ := hpred
    by_cases hTa : T = team a
    · subst hTa
      refine ⟨c, ?_, hinit, hteam, mem_runOnRelease_self, fun hca => absurd hca hne⟩
      show (update s.allyTeams (team a) _ (team a)).mapManager = some c
      rw [update_self]
      rfl
    · refine ⟨c', ?_, hinit', hcond', mem_runOnRelease htask', fun hca => ?_⟩
      · show (update s.allyTeams (team a) _ T).mapManager = some c'
        rw [update_of_ne hTa]
        exact hc'
      · exact absurd (hcond'.symm.trans (congrArg team hca)) hTa
  · next hnone =>
    refine ⟨c', hc', hinit', hcond', htask', fun hca => .inr fun b hb hbT => ?_⟩
    have hb' := find?_eq_none.1 hnone b ((h.order b).2 hb)
    have hteam : team b = team a := by
      rw [hbT, ← hcond', hca]
    simpa [hb, hteam] using hb'

theorem Passing.step (h : Passing team a order s (k :: rest)) : Passing team a order (s.runTask team order a k) rest := by
  have hkeeps : Keeps s (s.runTask team order a k) := .runTask k
  cases k with
  | terrainData =>
    refine ⟨fun b => hkeeps.isInitialized ▸ h.order b, h.terrainData_step, fun T hT => ?_⟩
    have hteams : (s.runTask team order a .terrainData).allyTeams = s.allyTeams := by
      show (s.delegateTerrainData order a).allyTeams = s.allyTeams
      unfold State.delegateTerrainData
      split <;> rfl
    rw [hteams] at hT ⊢
    exact (h.mapManager T hT).skip hkeeps (by decide)
  | allyTeam =>
    refine ⟨fun b => hkeeps.isInitialized ▸ h.order b, ?_, fun T hT => h.allyTeam_step T (hkeeps.initCount T ▸ hT)⟩
    have hterrain : (s.runTask team order a .allyTeam).terrainData = s.terrainData := by
      show (s.delegateAllyTeam team order a).terrainData = s.terrainData
      unfold State.delegateAllyTeam
      split <;> rfl
    rw [hterrain]
    exact h.terrainData.skip hkeeps (by decide)

theorem Passing.foldl (h : Passing team a order s rest) :
    Passing team a order (rest.foldl (State.runTask team order a) s) [] := by
  induction rest generalizing s with
  | nil => exact h
  | cons k rest ih => exact ih h.step

/-! ## Steps and runs -/

structure Inv (team : α → τ) (s : State α τ) : Prop where
  nodup : s.circuits.Nodup
  mem_circuits : ∀ a, a ∈ s.circuits ↔ s.isInitialized a = true
  gaCounter : s.gaCounter = s.circuits.length
  initCount : ∀ T, (s.allyTeams T).initCount = s.circuits.countP (team · = T)
  terrainData_none : s.circuits = [] → s.terrainData = none
  terrainData : s.circuits ≠ [] → ∃ c, s.terrainData = some c ∧ s.isInitialized c = true ∧
    .terrainData ∈ s.releaseTasks c
  mapManager : ∀ T, 0 < (s.allyTeams T).initCount → ∃ c, (s.allyTeams T).mapManager = some c ∧
    s.isInitialized c = true ∧ team c = T ∧ .allyTeam ∈ s.releaseTasks c

theorem Inv.passing (h : Inv team s) (ha : s.isInitialized a = true) (horder : order.Perm s.circuits) :
    Passing team a order s (s.releaseTasks a) where
  order b := horder.mem_iff.trans (h.mem_circuits b)
  terrainData := by
    have hne : s.circuits ≠ [] := ne_nil_of_mem ((h.mem_circuits a).2 ha)
    obtain ⟨c, hc, hinit, htask⟩ := h.terrainData hne
    exact ⟨c, hc, hinit, trivial, htask, fun hca => .inl (hca ▸ htask)⟩
  mapManager T hT := by
    obtain ⟨c, hc, hinit, hteam, htask⟩ := h.mapManager T hT
    exact ⟨c, hc, hinit, hteam, htask, fun hca => .inl (hca ▸ htask)⟩

theorem Inv.new : Inv team (State.new : State α τ) := by
  constructor <;> simp [State.new, AllyTeam.new]

theorem init_eq : s.init team a = {
    circuits := a :: s.circuits
    gaCounter := s.gaCounter + 1
    isInitialized := update s.isInitialized a true
    terrainData := if s.terrainData.isNone then some a else s.terrainData
    allyTeams := update s.allyTeams (team a)
      (if 0 < (s.allyTeams (team a)).initCount then
        { s.allyTeams (team a) with initCount := (s.allyTeams (team a)).initCount + 1 }
      else (s.allyTeams (team a)).create a)
    releaseTasks := update s.releaseTasks a
      ((if s.terrainData.isNone then [.terrainData] else []) ++
        if 0 < (s.allyTeams (team a)).initCount then [] else [.allyTeam]) } := by
  cases hterrain : s.terrainData.isNone <;> by_cases hcount : 0 < (s.allyTeams (team a)).initCount <;>
    simp [State.init, initAllyTeam, hcount, initTerrainData, createGameAttribute, hterrain, setTeam,
      runOnRelease]

theorem Inv.init (h : Inv team s) (ha : s.isInitialized a = false) : Inv team (s.init team a) := by
  have hnot : a ∉ s.circuits := by
    rw [h.mem_circuits, ha]
    decide
  -- an AI that is recorded is initialised already, so that its tasks stay
  have hne : ∀ c, s.isInitialized c = true → c ≠ a := by
    rintro c hc rfl
    simp [ha] at hc
  have hinit : ∀ c, s.isInitialized c = true → update s.isInitialized a true c = true := by
    intro c hc
    rw [update_of_ne (hne c hc)]
    exact hc
  rw [init_eq]
  constructor
  · exact nodup_cons.2 ⟨hnot, h.nodup⟩
  · intro b
    by_cases hb : b = a
    · subst hb
      simp
    · simp [hb, h.mem_circuits]
  · simp [h.gaCounter]
  · intro T
    have hcount := h.initCount T
    by_cases hT : T = team a
    · subst hT
      rw [countP_cons_of_pos (by simp), ← hcount]
      dsimp only
      rw [update_self]
      split <;> rfl
    · rw [countP_cons_of_neg (by simpa using Ne.symm hT), ← hcount]
      dsimp only
      rw [update_of_ne hT]
  · simp
  · intro _
    dsimp only
    by_cases hnone : s.circuits = []
    · rw [h.terrainData_none hnone]
      exact ⟨a, rfl, update_self .., by simp⟩
    · obtain ⟨c, hc, hci, htask⟩ := h.terrainData hnone
      rw [hc]
      refine ⟨c, rfl, hinit c hci, ?_⟩
      rw [update_of_ne (hne c hci)]
      exact htask
  · intro T hT
    dsimp only at hT ⊢
    by_cases hTa : T = team a
    · subst hTa
      rw [update_self]
      by_cases hpos : 0 < (s.allyTeams (team a)).initCount
      · obtain ⟨c, hc, hci, hteam, htask⟩ := h.mapManager _ hpos
        rw [if_pos hpos]
        refine ⟨c, hc, hinit c hci, hteam, ?_⟩
        rw [update_of_ne (hne c hci)]
        exact htask
      · rw [if_neg hpos]
        exact ⟨a, rfl, update_self .., rfl, by simp [hpos]⟩
    · rw [update_of_ne hTa] at hT ⊢
      obtain ⟨c, hc, hci, hteam, htask⟩ := h.mapManager T hT
      refine ⟨c, hc, hinit c hci, hteam, ?_⟩
      rw [update_of_ne (hne c hci)]
      exact htask

theorem release_eq (hcounter : 1 < s.gaCounter) (hkeeps : Keeps s (s.processRelease team order a)) :
    s.release team order a = {
      circuits := s.circuits.erase a
      gaCounter := s.gaCounter - 1
      isInitialized := update s.isInitialized a false
      terrainData := (s.processRelease team order a).terrainData
      allyTeams := update (s.processRelease team order a).allyTeams (team a)
        ((s.processRelease team order a).allyTeams (team a)).release
      releaseTasks := (s.processRelease team order a).releaseTasks } := by
  have hle : ¬ s.gaCounter ≤ 1 := Nat.not_le.2 hcounter
  simp [State.release, destroyGameAttribute, setTeam, hle, hkeeps.circuits, hkeeps.gaCounter, hkeeps.isInitialized]

theorem release_last (hcounter : s.gaCounter ≤ 1) (hkeeps : Keeps s (s.processRelease team order a)) :
    s.release team order a = {
      circuits := s.circuits.erase a
      gaCounter := 0
      isInitialized := update s.isInitialized a false
      terrainData := none
      allyTeams := fun _ => .new
      releaseTasks := (s.processRelease team order a).releaseTasks } := by
  have hle : (s.processRelease team order a).gaCounter ≤ 1 := by
    rw [hkeeps.gaCounter]
    exact hcounter
  simp [State.release, destroyGameAttribute, setTeam, hle, hkeeps.circuits, hkeeps.isInitialized]

theorem countP_release (h : Inv team s) (ha : a ∈ s.circuits) (T : τ) : (s.circuits.erase a).countP (team · = T) =
      if T = team a then (s.allyTeams T).initCount - 1 else (s.allyTeams T).initCount := by
  have hcount := (perm_cons_erase ha).countP_eq (team · = T)
  rw [h.initCount T, hcount]
  by_cases hT : T = team a
  · subst hT
    simp
  · simp [hT, Ne.symm hT]

theorem Inv.release (h : Inv team s) (ha : s.isInitialized a = true) (horder : order.Perm s.circuits) :
    Inv team (s.release team order a) := by
  have hmem := (h.mem_circuits a).2 ha
  have hkeeps : Keeps s (s.processRelease team order a) := .foldl _
  have hpass : Passing team a order (s.processRelease team order a) [] := (h.passing ha horder).foldl
  have hmem' : ∀ b, b ∈ s.circuits.erase a ↔ update s.isInitialized a false b = true := by
    intro b
    rw [h.nodup.mem_erase_iff, h.mem_circuits]
    by_cases hb : b = a
    · subst hb
      simp
    · simp [hb]
  by_cases hcounter : s.gaCounter ≤ 1
  · have hnil : s.circuits.erase a = [] := by
      rw [← length_eq_zero_iff, length_erase_of_mem hmem, ← h.gaCounter]
      omega
    rw [release_last hcounter hkeeps, hnil]
    rw [hnil] at hmem'
    refine ⟨nodup_nil, hmem', rfl, ?_, fun _ => rfl, fun hne => absurd rfl hne, ?_⟩
    · simp [AllyTeam.new]
    · simp [AllyTeam.new]
  · have hcounter : 1 < s.gaCounter := Nat.lt_of_not_le hcounter
    -- who is left and recorded is not the released one
    have hleft : ∀ c, c ≠ a → s.isInitialized c = true → update s.isInitialized a false c = true := by
      intro c hca hc
      rw [update_of_ne hca]
      exact hc
    have hcount : ∀ T, (update (s.processRelease team order a).allyTeams (team a)
        ((s.processRelease team order a).allyTeams (team a)).release T).initCount =
          (s.circuits.erase a).countP (team · = T) := by
      intro T
      rw [countP_release h hmem]
      by_cases hT : T = team a
      · subst hT
        rw [if_pos rfl, update_self, ← hkeeps.initCount]
        unfold AllyTeam.release
        split <;> rfl
      · rw [if_neg hT, update_of_ne hT]
        exact hkeeps.initCount T
    rw [release_eq hcounter hkeeps]
    constructor
    · exact h.nodup.erase a
    · exact hmem'
    · show s.gaCounter - 1 = (s.circuits.erase a).length
      rw [length_erase_of_mem hmem, h.gaCounter]
    · exact hcount
    · intro hnil
      have hlen := congrArg length hnil
      rw [length_erase_of_mem hmem, ← h.gaCounter] at hlen
      simp at hlen
      omega
    · intro hne
      obtain ⟨b, hb⟩ := exists_mem_of_ne_nil _ hne
      obtain ⟨hba, hb⟩ := h.nodup.mem_erase_iff.1 hb
      have hb : (s.processRelease team order a).isInitialized b = true := by
        rw [hkeeps.isInitialized]
        exact (h.mem_circuits b).1 hb
      obtain ⟨c, hca, hc, hci, -, htask⟩ := hpass.terrainData.other hb trivial hba
      exact ⟨c, hc, hleft c hca (hkeeps.isInitialized ▸ hci), htask⟩
    · intro T hT
      have hpos : 0 < (s.circuits.erase a).countP (team · = T) := hcount T ▸ hT
      obtain ⟨b, hb, hbT⟩ := countP_pos_iff.1 hpos
      have hbT : team b = T := by simpa using hbT
      obtain ⟨hba, hb⟩ := h.nodup.mem_erase_iff.1 hb
      have hb' : (s.processRelease team order a).isInitialized b = true := by
        rw [hkeeps.isInitialized]
        exact (h.mem_circuits b).1 hb
      have hpos' : 0 < ((s.processRelease team order a).allyTeams T).initCount := by
        rw [hkeeps.initCount, h.initCount]
        exact countP_pos_iff.2 ⟨b, hb, by simpa using hbT⟩
      obtain ⟨c, hca, hc, hci, hteam, htask⟩ := (hpass.mapManager T hpos').other hb' hbT hba
      refine ⟨c, ?_, hleft c hca (hkeeps.isInitialized ▸ hci), hteam, htask⟩
      dsimp only
      by_cases hTa : T = team a
      · subst hTa
        rw [update_self, ← hc]
        rw [countP_release h hmem, if_pos rfl, ← hkeeps.initCount] at hpos
        unfold AllyTeam.release
        rw [if_pos (by omega)]
      · rw [update_of_ne hTa]
        exact hc

theorem Inv.step {i : Input α} (h : Inv team s) (hst : Step team s i t) : Inv team t := by
  cases hst with
  | init ha => exact h.init ha
  | release ha horder => exact h.release ha horder

theorem Run.inv {ok : State α τ → Input α → Prop} (h : Run team ok s) : Inv team s := by
  induction h with
  | new => exact .new
  | step _ _ hst ih => exact ih.step hst

def FounderLast (team : α → τ) (s : State α τ) : Input α → Prop
  | .init _ => True
  | .release a _ => (s.allyTeams (team a)).enemyManager = some a →
    ∀ b, s.isInitialized b = true → team b = team a → b = a

def Founded (team : α → τ) (s : State α τ) : Prop :=
  ∀ T, 0 < (s.allyTeams T).initCount → ∃ c, (s.allyTeams T).enemyManager = some c ∧
    (s.allyTeams T).pathfinder = some c ∧ s.isInitialized c = true ∧ team c = T

theorem Founded.init (h : Founded team s) : Founded team (s.init team a) := by
  have hinit : ∀ c, s.isInitialized c = true → update s.isInitialized a true c = true := by
    intro c hc
    by_cases hca : c = a
    · rw [hca, update_self]
    · rw [update_of_ne hca]
      exact hc
  intro T hT
  rw [init_eq] at hT ⊢
  dsimp only at hT ⊢
  by_cases hTa : T = team a
  · subst hTa
    rw [update_self]
    by_cases hpos : 0 < (s.allyTeams (team a)).initCount
    · obtain ⟨c, he, hp, hci, hteam⟩ := h _ hpos
      rw [if_pos hpos]
      exact ⟨c, he, hp, hinit c hci, hteam⟩
    · rw [if_neg hpos]
      exact ⟨a, rfl, rfl, update_self .., rfl⟩
  · rw [update_of_ne hTa] at hT ⊢
    obtain ⟨c, he, hp, hci, hteam⟩ := h T hT
    exact ⟨c, he, hp, hinit c hci, hteam⟩

theorem release_enemyManager (t : AllyTeam α) : t.release.enemyManager = t.enemyManager := by
  unfold AllyTeam.release
  split <;> rfl

theorem release_pathfinder {t : AllyTeam α} (h : 0 < t.release.initCount) : t.release.pathfinder = t.pathfinder := by
  unfold AllyTeam.release at h ⊢
  split at h
  · next hlt => rw [if_pos hlt]
  · next hlt =>
    have hpos : 0 < t.initCount - 1 := h
    omega

theorem Founded.release (hinv : Inv team s) (h : Founded team s) (ha : s.isInitialized a = true)
    (horder : order.Perm s.circuits) (hok : FounderLast team s (.release a order)) :
    Founded team (s.release team order a) := by
  have hinv' := hinv.release ha horder
  have hkeeps : Keeps s (s.processRelease team order a) := .foldl _
  intro T hT
  have hcounter : 1 < s.gaCounter := by
    by_contra hle
    rw [release_last (Nat.le_of_not_lt hle) hkeeps] at hT
    exact absurd hT (Nat.lt_irrefl 0)
  -- another AI of the team is left, so that the founder is not the one that is released
  have hpos : 0 < (s.release team order a).circuits.countP (team · = T) := hinv'.initCount T ▸ hT
  obtain ⟨b, hb, hbT⟩ := countP_pos_iff.1 hpos
  have hbT : team b = T := by simpa using hbT
  rw [release_eq hcounter hkeeps] at hT hb ⊢
  dsimp only at hT hb ⊢
  obtain ⟨hba, hbs⟩ := hinv.nodup.mem_erase_iff.1 hb
  have hpos : 0 < (s.allyTeams T).initCount := by
    rw [hinv.initCount]
    exact countP_pos_iff.2 ⟨b, hbs, by simpa using hbT⟩
  obtain ⟨c, he, hp, hci, hteam⟩ := h T hpos
  have hca : c ≠ a := by
    rintro rfl
    have he : (s.allyTeams (team c)).enemyManager = some c := by rw [hteam]; exact he
    exact hba (hok he b ((hinv.mem_circuits b).1 hbs) (hbT.trans hteam.symm))
  refine ⟨c, ?_, ?_, (update_of_ne hca _ _).trans hci, hteam⟩
  · by_cases hTa : T = team a
    · subst hTa
      rw [update_self]
      exact (release_enemyManager ..).trans ((hkeeps.enemyManager _).trans he)
    · rw [update_of_ne hTa]
      exact (hkeeps.enemyManager T).trans he
  · by_cases hTa : T = team a
    · subst hTa
      rw [update_self] at hT ⊢
      exact (release_pathfinder hT).trans ((hkeeps.pathfinder _).trans hp)
    · rw [update_of_ne hTa]
      exact (hkeeps.pathfinder T).trans hp

theorem Run.founded (h : Run team (FounderLast team) s) : Founded team s := by
  induction h with
  | new => exact fun T hT => absurd hT (Nat.lt_irrefl 0)
  | step h hok hst ih =>
    cases hst with
    | init ha => exact ih.init
    | release ha horder => exact ih.release h.inv ha horder hok

/-- If the AI that has made the managers of a team is released last, each of them has an initialised AI recorded
whenever there is one in the team. -/
theorem managers_owned (h : Run team (FounderLast team) s) {T : τ} (hT : ∃ a, team a = T ∧ s.isInitialized a = true) :
    Owned s (s.allyTeams T).mapManager ∧ Owned s (s.allyTeams T).enemyManager ∧ Owned s s.terrainData ∧
      Owned s (s.allyTeams T).pathfinder := by
  have hinv := h.inv
  obtain ⟨a, haT, ha⟩ := hT
  have hmem := (hinv.mem_circuits a).2 ha
  have hpos : 0 < (s.allyTeams T).initCount := by
    rw [hinv.initCount]
    exact countP_pos_iff.2 ⟨a, hmem, by simpa using haT⟩
  obtain ⟨c, hc, hci, -⟩ := hinv.mapManager T hpos
  obtain ⟨d, hd, hdi, -⟩ := hinv.terrainData (ne_nil_of_mem hmem)
  obtain ⟨f, hfe, hfp, hfi, -⟩ := h.founded T hpos
  exact ⟨⟨c, hc, hci⟩, ⟨f, hfe, hfi⟩, ⟨d, hd, hdi⟩, ⟨f, hfp, hfi⟩⟩

theorem managers_owned_two : ∃ s : State Bool Unit, Run (fun _ => ()) (FounderLast fun _ => ()) s ∧
    s.isInitialized true = true ∧ Owned s (s.allyTeams ()).enemyManager := by
  have h0 : Run (fun _ => ()) (FounderLast fun _ => ()) (.new : State Bool Unit) := .new
  have h1 := h0.step (i := .init true) trivial (.init rfl)
  have h2 := h1.step (i := .init false) trivial (.init rfl)
  have h3 := h2.step (i := .release false [true, false]) (fun hfounder => by cases hfounder)
    (.release rfl (by decide))
  exact ⟨_, h3, rfl, (managers_owned h3 (T := ()) ⟨true, rfl, rfl⟩).2.1⟩

/-- When the AI that came first is released, the enemy manager and the path finder stay with it. -/
theorem founder_released : ∃ s : State Bool Unit, Run (fun _ => ()) (fun _ _ => True) s ∧
    s.isInitialized false = true ∧ ¬ Owned s (s.allyTeams ()).enemyManager ∧ ¬ Owned s (s.allyTeams ()).pathfinder := by
  have h0 : Run (fun _ => ()) (fun _ _ => True) (.new : State Bool Unit) := .new
  have h1 := h0.step (i := .init true) trivial (.init rfl)
  have h2 := h1.step (i := .init false) trivial (.init rfl)
  have h3 := h2.step (i := .release true [true, false]) trivial (.release rfl (by decide))
  refine ⟨_, h3, rfl, ?_, ?_⟩
  · rintro ⟨a, ha, hinit⟩
    cases Option.some.inj ha
    cases hinit
  · rintro ⟨a, ha, hinit⟩
    cases Option.some.inj ha
    cases hinit

end Circuit.Spec.Authority
