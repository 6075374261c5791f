import CircuitAI.Spec.EnemyRegistry

/-!
# What a step does to the registries

A step of the enemy subsystem is one of `Core.Step` on the registries (`Step.core_step`): changes of an enemy that keep
its id and its death, of the hostile and peaceful units and of the sums do not show.
-/

set_option linter.unusedSectionVars false

namespace Circuit.Spec.EnemyRuns

open Impl.Enemies Impl.Enemies.State Function

variable {α ρ : Type*} [DecidableEq α] {s t : State α ρ} {p : ℕ} {v : Sight ρ} {ai : α} {id : ℤ}

@[simp]
theorem clearHidden_keeps (e : EnemyUnit ρ) : e.clearHidden.id = e.id ∧ e.clearHidden.isDead = e.isDead :=
  ⟨rfl, rfl⟩

@[simp]
theorem setKnown_keeps (e : EnemyUnit ρ) (frame : ℤ) :
    (e.setKnown frame).id = e.id ∧ (e.setKnown frame).isDead = e.isDead :=
  ⟨rfl, rfl⟩

@[simp]
theorem core_modify {f : EnemyUnit ρ → EnemyUnit ρ} (h : ∀ e, (f e).id = e.id ∧ (f e).isDead = e.isDead) :
    core (s.modify p f) = core s := by
  have hid : (fun q => ((s.modify p f).heap q).id) = fun q => (s.heap q).id := by
    funext q
    by_cases hq : q = p
    · subst hq
      simp [State.modify, (h _).1]
    · simp [State.modify, hq]
  have hdead : (fun q => ((s.modify p f).heap q).isDead) = fun q => (s.heap q).isDead := by
    funext q
    by_cases hq : q = p
    · subst hq
      simp [State.modify, (h _).2]
    · simp [State.modify, hq]
  unfold core
  rw [hid, hdead]
  rfl

@[simp]
theorem core_setHostile (q : Option ℕ) : core (s.setHostile id q) = core s := rfl

@[simp]
theorem core_setPeace (q : Option ℕ) : core (s.setPeace id q) = core s := rfl

@[simp]
theorem core_setInfo (q : Option ℕ) : core (s.setInfo ai id q) = (core s).setInfo ai id q := rfl

@[simp]
theorem core_addEnemyCost (mod : ThrMod) : core (s.addEnemyCost mod p) = core s := by
  unfold addEnemyCost
  split
  · rfl
  · dsimp only
    split <;> rfl

@[simp]
theorem core_delEnemyCost (mod : ThrMod) : core (s.delEnemyCost mod p) = core s := by
  unfold delEnemyCost
  split
  · rfl
  · dsimp only
    split <;> rfl

@[simp]
theorem core_unitInLOS : core (s.unitInLOS p v).2 = core s := by
  unfold unitInLOS
  split
  · rfl
  · split
    · dsimp only
      split <;> simp
    · rfl

@[simp]
theorem core_peaceEnterLOS : core (s.peaceEnterLOS p) = core s := by
  unfold peaceEnterLOS
  dsimp only
  split
  · simp [EnemyUnit.clearHidden]
  · split <;> simp

@[simp]
theorem core_hostileEnterLOS : core (s.hostileEnterLOS p) = core s := by
  unfold hostileEnterLOS
  dsimp only
  split <;> simp

@[simp]
theorem core_mapEnterLOS : core (s.mapEnterLOS p v).2 = core s := by
  unfold mapEnterLOS
  dsimp only
  split <;> simp

@[simp]
theorem core_mapEnterRadar : core (s.mapEnterRadar p) = core s := by
  unfold mapEnterRadar
  dsimp only
  split
  · simp
  · split
    · simp
    · split <;> simp

@[simp]
theorem core_mapDestroyed : core (s.mapDestroyed p).2 = core s := by
  unfold mapDestroyed
  dsimp only
  split <;> rfl

/-! ## The gate of the ally team -/

theorem teamEnterLOS_owner (mod : ThrMod) (h : s.circuit = ai) : s.teamEnterLOS mod ai p v =
    if (s.mapEnterLOS p v).1 then (s.mapEnterLOS p v).2.addEnemyCost mod p else (s.mapEnterLOS p v).2 := by
  simp [teamEnterLOS, h]

theorem teamEnterLOS_other (mod : ThrMod) (h : s.circuit ≠ ai) : s.teamEnterLOS mod ai p v = s := by
  simp [teamEnterLOS, h]

theorem teamEnterRadar_owner (h : s.circuit = ai) : s.teamEnterRadar ai p = s.mapEnterRadar p := by
  simp [teamEnterRadar, h]

theorem teamEnterRadar_other (h : s.circuit ≠ ai) : s.teamEnterRadar ai p = s := by
  simp [teamEnterRadar, h]

theorem teamDestroyed_owner (mod : ThrMod) (h : s.circuit = ai) : s.teamDestroyed mod ai p =
    if (s.mapDestroyed p).1 then (s.mapDestroyed p).2.delEnemyCost mod p else (s.mapDestroyed p).2 := by
  simp [teamDestroyed, h]

theorem teamDestroyed_other (mod : ThrMod) (h : s.circuit ≠ ai) : s.teamDestroyed mod ai p = s := by
  simp [teamDestroyed, h]

theorem enemyEnterLOS_eq (mod : ThrMod) : s.enemyEnterLOS mod ai id v =
    (s.registerEnemyInfo ai id true v).1.elim (s.registerEnemyInfo ai id true v).2
      ((s.registerEnemyInfo ai id true v).2.teamEnterLOS mod ai · v) := by
  unfold enemyEnterLOS
  split
  · next h => rw [h]; rfl
  · next h => rw [h]; rfl

theorem enemyEnterRadar_eq : s.enemyEnterRadar ai id v =
    (s.registerEnemyInfo ai id false v).1.elim (s.registerEnemyInfo ai id false v).2
      ((s.registerEnemyInfo ai id false v).2.teamEnterRadar ai ·) := by
  unfold enemyEnterRadar
  split
  · next h => rw [h]; rfl
  · next h => rw [h]; rfl

@[simp]
theorem core_teamEnterLOS (mod : ThrMod) : core (s.teamEnterLOS mod ai p v) = core s := by
  unfold teamEnterLOS
  split
  · rfl
  · dsimp only
    split <;> simp

@[simp]
theorem core_teamEnterRadar : core (s.teamEnterRadar ai p) = core s := by
  unfold teamEnterRadar
  split <;> simp

@[simp]
theorem core_teamLeaveLOS : core (s.teamLeaveLOS ai p) = core s := by
  unfold teamLeaveLOS
  split <;> simp

@[simp]
theorem core_teamLeaveRadar : core (s.teamLeaveRadar ai p) = core s := by
  unfold teamLeaveRadar
  split <;> simp

@[simp]
theorem core_teamDestroyed (mod : ThrMod) : core (s.teamDestroyed mod ai p) = core s := by
  unfold teamDestroyed
  split
  · rfl
  · dsimp only
    split <;> simp

/-! ## Records -/

theorem core_heap (s : State α ρ) {h : ℕ → EnemyUnit ρ} (hh : ∀ q, (h q).id = (s.heap q).id ∧ (h q).isDead = (s.heap q).isDead) :
    core { s with heap := h } = core s := by
  have hid : (fun q => (h q).id) = fun q => (s.heap q).id := funext fun q => (hh q).1
  have hdead : (fun q => (h q).isDead) = fun q => (s.heap q).isDead := funext fun q => (hh q).2
  simp only [core, hid, hdead]

theorem core_registerEnemyUnit (s : State α ρ) (id : ℤ) (isInLOS : Bool) (v : Sight ρ) :
    (s.registerEnemyUnit id isInLOS v).1 = none ∧ (s.registerEnemyUnit id isInLOS v).2 = s ∨
    (s.registerEnemyUnit id isInLOS v).1 = some s.next ∧
      core (s.registerEnemyUnit id isInLOS v).2 = (core s).register id := by
  unfold registerEnemyUnit
  dsimp only
  split
  · exact .inl ⟨rfl, rfl⟩
  · refine .inr ⟨rfl, ?_⟩
    simp only [core, Core.register, Core.mk.injEq, and_true, true_and]
    constructor
    · funext q
      by_cases hq : q = s.next <;> simp [update_apply, hq, EnemyUnit.new]
    · funext q
      by_cases hq : q = s.next <;> simp [update_apply, hq, EnemyUnit.new]

theorem core_unregisterEnemyUnit : core (s.unregisterEnemyUnit p) = (core s).kill p := by
  simp only [core, Core.kill, unregisterEnemyUnit, State.modify, Core.mk.injEq, and_true, true_and]
  constructor
  · funext q
    by_cases hq : q = p <;> simp [update_apply, hq, EnemyUnit.setDead]
  · funext q
    by_cases hq : q = p <;> simp [update_apply, hq, EnemyUnit.setDead]

theorem core_registerEnemyInfo (s : State α ρ) (ai : α) (id : ℤ) (isInLOS : Bool) (v : Sight ρ) :
    (core (s.registerEnemyInfo ai id isInLOS v).2 = core s ∧
      ∀ p ∈ (s.registerEnemyInfo ai id isInLOS v).1, s.enemyInfos ai id = some p) ∨
    (s.circuit ≠ ai ∧ ∃ p, s.enemyUnits id = some p ∧
      core (s.registerEnemyInfo ai id isInLOS v).2 = (core s).setInfo ai id (some p)) ∨
    (s.circuit = ai ∧ s.enemyInfos ai id = none ∧ (s.registerEnemyInfo ai id isInLOS v).1 = some s.next ∧
      core (s.registerEnemyInfo ai id isInLOS v).2 = ((core s).register id).setInfo ai id (some s.next)) := by
  unfold registerEnemyInfo
  split
  · next p hp =>
    refine .inl ?_
    split
    · dsimp only
      split
      · exact ⟨rfl, by simp [hp]⟩
      · exact ⟨core_unitInLOS, by simp [hp]⟩
    · exact ⟨rfl, by simp [hp]⟩
  · next hp =>
    by_cases hai : s.circuit = ai
    · rw [if_neg (not_not_intro hai)]
      rcases core_registerEnemyUnit s id isInLOS v with ⟨h1, h2⟩ | ⟨h1, h2⟩
      · simp [h1, h2]
      · refine .inr (.inr ⟨hai, hp, ?_⟩)
        simp [h1, h2]
    · rw [if_pos hai]
      dsimp only
      split
      · exact .inl ⟨rfl, by simp⟩
      · next p hp => exact .inr (.inl ⟨hai, p, hp, rfl⟩)

@[simp]
theorem registerEnemyInfo_circuit (isInLOS : Bool) : (s.registerEnemyInfo ai id isInLOS v).2.circuit = s.circuit := by
  have hcircuit : (core (s.registerEnemyInfo ai id isInLOS v).2).circuit = (core s).circuit := by
    rcases core_registerEnemyInfo s ai id isInLOS v with ⟨h, -⟩ | ⟨-, p, -, h⟩ | ⟨-, -, -, h⟩
    · rw [h]
    · rw [h]
      rfl
    · rw [h]
      rfl
  exact hcircuit

theorem registerEnemyInfo_ne_none {isInLOS : Bool} (hbefore : s.enemyInfos s.circuit id = none)
    (hafter : (core (s.registerEnemyInfo s.circuit id isInLOS v).2).infos s.circuit id ≠ none) :
    (s.registerEnemyInfo s.circuit id isInLOS v).1 ≠ none := by
  rcases core_registerEnemyInfo s s.circuit id isInLOS v with ⟨h, -⟩ | ⟨hai, -⟩ | ⟨-, -, hp, -⟩
  · rw [h] at hafter
    exact absurd hbefore hafter
  · exact absurd rfl hai
  · simp [hp]

theorem infos_of_registerEnemyInfo {isInLOS : Bool} (hp : (s.registerEnemyInfo s.circuit id isInLOS v).1 = some p) :
    (core (s.registerEnemyInfo s.circuit id isInLOS v).2).infos s.circuit id = some p := by
  rcases core_registerEnemyInfo s s.circuit id isInLOS v with ⟨h, hold⟩ | ⟨hai, -⟩ | ⟨-, -, hnew, h⟩
  · rw [h]
    exact hold p hp
  · exact absurd rfl hai
  · rw [hnew] at hp
    rw [h, ← hp]
    simp [Core.setInfo]

theorem core_unregisterEnemyInfo : core (s.unregisterEnemyInfo ai p) = (core s).remove ai p := by
  unfold unregisterEnemyInfo Core.remove
  by_cases hai : s.circuit = ai
  · have hid : ((s.unregisterEnemyUnit p).heap p).id = (s.heap p).id := by
      simp [unregisterEnemyUnit, State.modify, EnemyUnit.setDead]
    simp only [hai, ne_eq, not_true_eq_false, if_false, core_setInfo, core_unregisterEnemyUnit, hid]
    rw [if_pos (by exact hai)]
    rfl
  · simp only [ne_eq, hai, not_false_eq_true, if_true, core_setInfo]
    rw [if_neg (by exact hai)]
    rfl

theorem core_enemyDestroyed (mod : ThrMod) (h : s.enemyInfos ai id = some p) :
    core (s.enemyDestroyed mod ai id) = (core s).remove ai p := by
  simp [enemyDestroyed, h, core_unregisterEnemyInfo]

theorem hostileInLOS_keeps (isSeen : Bool) (threat : ℚ) (e : EnemyUnit ρ) :
    (hostileInLOS isSeen threat e).id = e.id ∧ (hostileInLOS isSeen threat e).isDead = e.isDead := by
  unfold hostileInLOS
  split
  · exact ⟨rfl, rfl⟩
  · split
    · exact ⟨rfl, rfl⟩
    · split <;> exact ⟨rfl, rfl⟩

theorem peaceInLOS_keeps (isSeen : Bool) (e : EnemyUnit ρ) :
    (peaceInLOS isSeen e).id = e.id ∧ (peaceInLOS isSeen e).isDead = e.isDead := by
  unfold peaceInLOS
  split
  · exact ⟨rfl, rfl⟩
  · split <;> exact ⟨rfl, rfl⟩

theorem ite_keeps {c : Prop} [Decidable c] {e e' : EnemyUnit ρ} (h : e'.id = e.id ∧ e'.isDead = e.isDead) :
    (if c then e' else e).id = e.id ∧ (if c then e' else e).isDead = e.isDead := by
  split
  · exact h
  · exact ⟨rfl, rfl⟩

theorem core_prepareUpdate (isSeen : ℕ → Bool) (threat : ℕ → ℚ) : core (s.prepareUpdate isSeen threat) = core s := by
  refine core_heap s fun q => ?_
  have hhostile := ite_keeps (c := (s.hostileUnits (s.heap q).id = some q))
    (hostileInLOS_keeps (isSeen q) (threat q) (s.heap q))
  have hpeace := fun e : EnemyUnit ρ => ite_keeps (c := (s.peaceUnits e.id = some q)) (peaceInLOS_keeps (isSeen q) e)
  exact ⟨(hpeace _).1.trans hhostile.1, (hpeace _).2.trans hhostile.2⟩

theorem core_garbageEnemy : core (s.garbageEnemy p) = { (core s).kill p with
    garbage := s.enemyGarbage ++ [(s.heap p).id], iterator := s.enemyIterator + 1 } := by
  have h := core_unregisterEnemyUnit (s := { s with enemyGarbage := s.enemyGarbage ++ [(s.heap p).id] }) (p := p)
  exact congrArg (fun c : Core α => { c with iterator := c.iterator + 1 }) h

theorem core_updateEnemyData (n : ℕ) (isWeak : Bool) : core (s.updateEnemyData p n isWeak) = { core s with
    iterator := s.enemyIterator + 1, pc := .sweep n } := by
  have h : core (s.modify p fun e => if e.isInLOS then { e with isWeak } else e) = core s :=
    core_modify fun e => ite_keeps ⟨rfl, rfl⟩
  exact congrArg (fun c : Core α => { c with iterator := c.iterator + 1, pc := .sweep n }) h

/-! ## Steps -/

theorem core_pc (s : State α ρ) (pc : Pc α) : core { s with pc } = { core s with pc } := rfl

theorem core_enemyEnterLOS (mod : ThrMod) :
    core (s.enemyEnterLOS mod ai id v) = core (s.registerEnemyInfo ai id true v).2 := by
  rw [enemyEnterLOS_eq]
  cases (s.registerEnemyInfo ai id true v).1 with
  | none => rfl
  | some p => exact core_teamEnterLOS mod

theorem core_enemyEnterRadar : core (s.enemyEnterRadar ai id v) = core (s.registerEnemyInfo ai id false v).2 := by
  rw [enemyEnterRadar_eq]
  cases (s.registerEnemyInfo ai id false v).1 with
  | none => rfl
  | some p => exact core_teamEnterRadar

theorem enterLOS_core_step (mod : ThrMod) (hpc : s.pc = .idle) :
    Core.Step (core s) (some (ai, id)) (enterEvent s ai id v) (core (s.enemyEnterLOS mod ai id v)) := by
  unfold enterEvent
  rw [core_enemyEnterLOS]
  rcases core_registerEnemyInfo s ai id true v with ⟨h, hp⟩ | ⟨hai, p, hp, h⟩ | ⟨hai, hid, hp, h⟩
  · rw [h]
    split
    · next hai =>
      cases hr : (s.registerEnemyInfo ai id true v).1 with
      | none => exact .keep hpc
      | some p =>
        have hinfo : s.enemyInfos s.circuit id = some p := hai.symm ▸ hp p hr
        exact .seen hpc hinfo
    · exact .keep hpc
  · rw [if_neg hai, h]
    exact .record hpc hai hp
  · subst hai
    rw [if_pos rfl, hp, h]
    exact .register hpc hid (.inr rfl)

theorem enterRadar_core_step (hpc : s.pc = .idle) :
    Core.Step (core s) (some (ai, id)) .tau (core (s.enemyEnterRadar ai id v)) := by
  rw [core_enemyEnterRadar]
  rcases core_registerEnemyInfo s ai id false v with ⟨h, -⟩ | ⟨hai, p, hp, h⟩ | ⟨hai, hid, -, h⟩
  · rw [h]
    exact .keep hpc
  · rw [h]
    exact .record hpc hai hp
  · subst hai
    rw [h]
    exact .register hpc hid (.inl rfl)

theorem team_core_step (mark : ℤ) (isUpdating : Bool) (isSeen : ℕ → Bool) (threat : ℕ → ℚ)
    (hpc : s.pc = .garbage ai []) : Core.Step (core s) none (teamUpdate mark s ai isUpdating isSeen threat).1
      (core (teamUpdate mark s ai isUpdating isSeen threat).2) := by
  unfold teamUpdate
  split
  · exact .done hpc
  · next hai =>
    have hai : s.circuit = ai := not_not.1 hai
    subst hai
    split
    · have hcore : core (if isUpdating then s else s.prepareUpdate isSeen threat) = core s := by
        split
        · rfl
        · exact core_prepareUpdate isSeen threat
      dsimp only
      rw [core_pc (if isUpdating then s else s.prepareUpdate isSeen threat), hcore]
      exact .done hpc
    · split
      · next h =>
        have hcore : core s.beginSweep = { core s with
            iterator := 0, garbage := [], pc := .sweep (s.enemyUpdates.length / (7 - 1) + 1) } := by
          simp [core, beginSweep, h]
        rw [hcore]
        exact .beginPass hpc h
      · next h =>
        have hcore : core s.beginSweep = { core s with
            garbage := [], pc := .sweep (s.enemyUpdates.length / (7 - 1) + 1) } := by
          simp [core, beginSweep, h]
        rw [hcore]
        exact .sweep hpc (Nat.lt_of_not_le h)

theorem Step.core_step {mod : ThrMod} {mark : ℤ} {i : Input α ρ} {e : Event α} (h : Step mod mark s i e t) :
    Core.Step (core s) i.entering e (core t) := by
  cases h with
  | enterLOS hpc => exact enterLOS_core_step mod hpc
  | leaveLOS hpc =>
    unfold enemyLeaveLOS
    split
    · rw [core_teamLeaveLOS]
      exact .keep hpc
    · exact .keep hpc
  | enterRadar hpc => exact enterRadar_core_step hpc
  | leaveRadar hpc =>
    unfold enemyLeaveRadar
    split
    · rw [core_teamLeaveRadar]
      exact .keep hpc
    · exact .keep hpc
  | @destroyed ai id hpc =>
    cases hp : s.enemyInfos ai id with
    | none =>
      rw [enemyDestroyed, hp]
      exact .keep hpc
    | some p =>
      rw [core_enemyDestroyed mod hp]
      exact .destroyed hpc hp
  | update hpc => exact .update hpc
  | @handle ai id rest hpc =>
    rw [core_pc (s.enemyDestroyed mod ai id)]
    cases hp : s.enemyInfos ai id with
    | none =>
      rw [enemyDestroyed, hp]
      exact .skip hpc hp
    | some p =>
      rw [core_enemyDestroyed mod hp]
      exact .handle hpc hp
  | team hpc => exact team_core_step mark _ _ _ hpc
  | delete hpc hp hd => exact .delete hpc hp hd
  | @garbage n p isOut isWeak hpc hp hd hg =>
    rw [core_garbageEnemy]
    exact .garbage hpc hp hd
  | @visit n p isOut isWeak hpc hp hd hg =>
    rw [core_updateEnemyData]
    exact .visit hpc hp hd
  | endSweep hpc h => exact .endSweep hpc

end Circuit.Spec.EnemyRuns
