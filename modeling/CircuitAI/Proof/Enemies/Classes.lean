import CircuitAI.Proof.Enemies.Registry

/-!
# Hostile and peaceful enemies

An enemy that has once been put in `hostileUnits` or `peaceUnits` is looked for in both when it is destroyed, but is
removed from one only. It is in one only as long as its definition does not change its class behind the back of
`CMapManager` (`KeepsClass`); then the two maps stay apart and hold none but enemies of which the owner has a record
(`Run.classified`), so that no enemy is in them when it is freed (`freed_nowhere`). Otherwise it can be in both
(`freed_in_peaceUnits`).
-/

set_option linter.unusedSectionVars false

namespace Circuit.Spec.EnemyRuns

open Impl.Enemies Impl.Enemies.State Function Prod

/-! ## The two maps -/

section Maps

variable {hostile peace infos : ℤ → Option ℕ} {id : ℤ} {p : ℕ}

structure Classified (hostile peace infos : ℤ → Option ℕ) : Prop where
  hostile_infos : ∀ id p, hostile id = some p → infos id = some p
  peace_infos : ∀ id p, peace id = some p → infos id = some p
  apart : ∀ id, hostile id = none ∨ peace id = none

namespace Classified

section

variable (h : Classified hostile peace infos)
include h

theorem swap : Classified peace hostile infos :=
  ⟨h.peace_infos, h.hostile_infos, fun id => (h.apart id).symm⟩

theorem setHostile (hp : infos id = some p) (hpeace : peace id = none) :
    Classified (update hostile id (some p)) peace infos where
  hostile_infos i q hq := by
    by_cases hi : i = id
    · subst hi
      rw [update_self] at hq
      exact hp.trans hq
    · rw [update_of_ne hi] at hq
      exact h.hostile_infos i q hq
  peace_infos := h.peace_infos
  apart i := by
    by_cases hi : i = id
    · exact .inr (hi ▸ hpeace)
    · rw [update_of_ne hi]
      exact h.apart i

theorem eraseHostile (id : ℤ) : Classified (update hostile id none) peace infos where
  hostile_infos i q hq := by
    by_cases hi : i = id
    · subst hi
      simp at hq
    · rw [update_of_ne hi] at hq
      exact h.hostile_infos i q hq
  peace_infos := h.peace_infos
  apart i := by
    by_cases hi : i = id
    · subst hi
      exact .inl (update_self ..)
    · rw [update_of_ne hi]
      exact h.apart i

theorem setPeace (hp : infos id = some p) (hhostile : hostile id = none) :
    Classified hostile (update peace id (some p)) infos :=
  (h.swap.setHostile hp hhostile).swap

theorem erasePeace (id : ℤ) : Classified hostile (update peace id none) infos :=
  (h.swap.eraseHostile id).swap

theorem setInfo (hid : infos id = none) : Classified hostile peace (update infos id (some p)) := by
  have hne : ∀ i q, infos i = some q → i ≠ id := by
    rintro i q hq rfl
    simp [hid] at hq
  refine ⟨fun i q hq => ?_, fun i q hq => ?_, h.apart⟩
  · have hold := h.hostile_infos i q hq
    rw [update_of_ne (hne i q hold)]
    exact hold
  · have hold := h.peace_infos i q hq
    rw [update_of_ne (hne i q hold)]
    exact hold

theorem eraseInfo (hhostile : hostile id = none) (hpeace : peace id = none) :
    Classified hostile peace (update infos id none) := by
  refine ⟨fun i q hq => ?_, fun i q hq => ?_, h.apart⟩
  · have hi : i ≠ id := by
      rintro rfl
      simp [hhostile] at hq
    rw [update_of_ne hi]
    exact h.hostile_infos i q hq
  · have hi : i ≠ id := by
      rintro rfl
      simp [hpeace] at hq
    rw [update_of_ne hi]
    exact h.peace_infos i q hq

end

end Classified

end Maps

/-! ## What the functions do to the maps -/

variable {α ρ : Type*} [DecidableEq α] {s t : State α ρ} {p : ℕ} {v : Sight ρ} {ai : α} {id : ℤ}

def maps (s : State α ρ) : (ℤ → Option ℕ) × (ℤ → Option ℕ) := (s.hostileUnits, s.peaceUnits)

@[simp]
theorem maps_modify (f : EnemyUnit ρ → EnemyUnit ρ) : maps (s.modify p f) = maps s := rfl

@[simp]
theorem maps_addEnemyCost (mod : ThrMod) : maps (s.addEnemyCost mod p) = maps s := by
  unfold addEnemyCost
  split
  · rfl
  · dsimp only
    split <;> rfl

@[simp]
theorem maps_delEnemyCost (mod : ThrMod) : maps (s.delEnemyCost mod p) = maps s := by
  unfold delEnemyCost
  split
  · rfl
  · dsimp only
    split <;> rfl

@[simp]
theorem maps_unitInLOS : maps (s.unitInLOS p v).2 = maps s := by
  unfold unitInLOS
  split
  · rfl
  · split
    · dsimp only
      split <;> rfl
    · rfl

@[simp]
theorem maps_registerEnemyUnit (isInLOS : Bool) : maps (s.registerEnemyUnit id isInLOS v).2 = maps s := by
  unfold registerEnemyUnit
  dsimp only
  split <;> rfl

@[simp]
theorem maps_registerEnemyInfo (s : State α ρ) (ai : α) (id : ℤ) (isInLOS : Bool) (v : Sight ρ) :
    maps (s.registerEnemyInfo ai id isInLOS v).2 = maps s := by
  unfold registerEnemyInfo
  split
  · split
    · dsimp only
      split
      · rfl
      · exact maps_unitInLOS
    · rfl
  · have hmaps : maps (if s.circuit ≠ ai then (s.enemyUnits id, s) else s.registerEnemyUnit id isInLOS v).2 = maps s := by
      split
      · rfl
      · exact maps_registerEnemyUnit isInLOS
    dsimp only
    split
    · exact hmaps
    · exact hmaps

@[simp]
theorem maps_unregisterEnemyInfo : maps (s.unregisterEnemyInfo ai p) = maps s := by
  unfold unregisterEnemyInfo
  dsimp only
  split <;> rfl

def classified (s : State α ρ) : Prop := Classified (maps s).1 (maps s).2 ((core s).infos (core s).circuit)

theorem classified_congr (hmaps : maps t = maps s) (hcore : core t = core s) (h : classified s) : classified t := by
  unfold classified
  rw [hmaps, hcore]
  exact h

section

variable (h : classified s)
include h

section

variable (hp : s.enemyInfos s.circuit (s.heap p).id = some p)
include hp

theorem classified_hostileEnterLOS (hpeace : s.peaceUnits (s.heap p).id = none) : classified (s.hostileEnterLOS p) := by
  unfold hostileEnterLOS
  dsimp only
  split
  · exact h.setHostile hp hpeace
  · exact classified_congr (maps_modify _) (by simp) h

theorem classified_peaceEnterLOS
    (hhostile : (s.heap p).threat ≤ 0 → s.hostileUnits (s.heap p).id = none) : classified (s.peaceEnterLOS p) := by
  unfold peaceEnterLOS
  dsimp only
  split
  · refine classified_congr (maps_modify _) (core_modify fun _ => ⟨rfl, rfl⟩) ?_
    exact (h.eraseHostile _).setPeace hp (update_self ..)
  · next hthreat =>
    split
    · exact h.setPeace hp (hhostile (not_lt.1 hthreat))
    · exact classified_congr (maps_modify _) (by simp) h

theorem classified_mapEnterLOS (hpeace : (s.heap p).isAttacker = true → s.peaceUnits (s.heap p).id = none)
    (hhostile : (s.heap p).isAttacker = false → (s.heap p).threat ≤ 0 → s.hostileUnits (s.heap p).id = none) :
    classified (s.mapEnterLOS p v).2 := by
  have hs : classified (s.modify p fun e => { e with isInLOS := true }) :=
    classified_congr (maps_modify _) (core_modify fun _ => ⟨rfl, rfl⟩) h
  have hheap : (s.modify p fun e => { e with isInLOS := true }).heap p = { s.heap p with isInLOS := true } := by
    simp [State.modify]
  unfold mapEnterLOS
  dsimp only
  refine classified_congr (maps_modify _) (core_modify fun _ => ⟨rfl, rfl⟩) ?_
  rw [hheap]
  split
  · next ha =>
    refine classified_congr (maps_modify _) (core_modify fun _ => ⟨rfl, rfl⟩) ?_
    refine classified_hostileEnterLOS hs ?_ ?_
    · rw [hheap]
      exact hp
    · rw [hheap]
      exact hpeace ha
  · next ha =>
    refine classified_congr (maps_modify _) (core_modify fun _ => ⟨rfl, rfl⟩) ?_
    refine classified_peaceEnterLOS hs ?_ ?_
    · rw [hheap]
      exact hp
    · rw [hheap]
      exact hhostile (Bool.eq_false_of_not_eq_true ha)

theorem classified_mapEnterRadar
    (hpeace : (s.heap p).isInLOS = false → (s.heap p).isAttacker = true → s.peaceUnits (s.heap p).id = none) :
    classified (s.mapEnterRadar p) := by
  have hs : classified (s.modify p fun e => { e with lastSeen := -1, isInRadar := true }) :=
    classified_congr (maps_modify _) (core_modify fun _ => ⟨rfl, rfl⟩) h
  have hheap : (s.modify p fun e => { e with lastSeen := -1, isInRadar := true }).heap p =
      { s.heap p with lastSeen := -1, isInRadar := true } := by
    simp [State.modify]
  unfold mapEnterRadar
  dsimp only
  rw [hheap]
  split
  · exact hs
  · next hlos =>
    split
    · exact classified_congr (maps_modify _) (by simp) hs
    · next ha =>
      split
      · refine classified_congr (maps_modify _) (core_modify fun _ => ⟨rfl, rfl⟩) ?_
        exact hs.setHostile hp (hpeace (Bool.eq_false_of_not_eq_true hlos) (by simpa [EnemyUnit.isAttacker] using ha))
      · exact classified_congr (maps_modify _) (by simp) hs

end

theorem classified_mapDestroyed :
    classified (s.mapDestroyed p).2 ∧ (s.mapDestroyed p).2.hostileUnits (s.heap p).id = none ∧
      (s.mapDestroyed p).2.peaceUnits (s.heap p).id = none := by
  unfold mapDestroyed
  dsimp only
  split
  · next hnone => exact ⟨h.erasePeace _, hnone, update_self ..⟩
  · next hsome =>
    exact ⟨h.eraseHostile _, update_self .., (h.apart _).resolve_left hsome⟩

/-! ## Steps and runs -/

def KeepsClass (s : State α ρ) : Input α ρ → Prop
  | .enterLOS ai id v => s.circuit = ai → ∀ p, (s.registerEnemyInfo ai id true v).1 = some p →
    let e := (s.registerEnemyInfo ai id true v).2.heap p
    (e.isAttacker = true → s.peaceUnits id = none) ∧
      (e.isAttacker = false → e.threat ≤ 0 → s.hostileUnits id = none)
  | .enterRadar ai id v => s.circuit = ai → ∀ p, (s.registerEnemyInfo ai id false v).1 = some p →
    let e := (s.registerEnemyInfo ai id false v).2.heap p
    e.isInLOS = false → e.isAttacker = true → s.peaceUnits id = none
  | _ => True

theorem classified_registerEnemyInfo (ai : α) (id : ℤ) (isInLOS : Bool) (v : Sight ρ) :
    classified (s.registerEnemyInfo ai id isInLOS v).2 := by
  unfold classified
  rw [maps_registerEnemyInfo]
  rcases core_registerEnemyInfo s ai id isInLOS v with ⟨hcore, -⟩ | ⟨hai, p, hp, hcore⟩ | ⟨hai, hid, hp, hcore⟩
  · rw [hcore]
    exact h
  · rw [hcore]
    show Classified _ _ (((core s).setInfo ai id (some p)).infos (core s).circuit)
    rw [Core.setInfo_other hai]
    exact h
  · subst hai
    rw [hcore]
    have hinfos := Core.setInfo_owner ((core s).register id) id (some s.next)
    show Classified _ _ ((((core s).register id).setInfo ((core s).register id).circuit id (some s.next)).infos
      ((core s).register id).circuit)
    rw [hinfos]
    exact h.setInfo hid

end

theorem registerEnemyInfo_owner {isInLOS : Bool} (hr : Registry (core (s.registerEnemyInfo s.circuit id isInLOS v).2))
    (hp : (s.registerEnemyInfo s.circuit id isInLOS v).1 = some p) :
    ((s.registerEnemyInfo s.circuit id isInLOS v).2.heap p).id = id ∧
      (s.registerEnemyInfo s.circuit id isInLOS v).2.enemyInfos
        (s.registerEnemyInfo s.circuit id isInLOS v).2.circuit id = some p := by
  have hinfo := infos_of_registerEnemyInfo hp
  rw [registerEnemyInfo_circuit]
  exact ⟨(hr.infos_id _ _ _ hinfo).1, hinfo⟩

theorem classified_enemyEnterLOS (mod : ThrMod) (hr : Registry (core (s.enemyEnterLOS mod ai id v)))
    (h : classified s) (hok : KeepsClass s (.enterLOS ai id v)) : classified (s.enemyEnterLOS mod ai id v) := by
  have hreg := classified_registerEnemyInfo h ai id true v
  have hmaps := maps_registerEnemyInfo s ai id true v
  rw [core_enemyEnterLOS] at hr
  rw [enemyEnterLOS_eq]
  cases hp : (s.registerEnemyInfo ai id true v).1 with
  | none => exact hreg
  | some p =>
    by_cases hai : s.circuit = ai
    · subst hai
      obtain ⟨hid, hinfo⟩ := registerEnemyInfo_owner hr hp
      obtain ⟨hpeace, hhostile⟩ := hok rfl p hp
      have hmap : classified ((s.registerEnemyInfo s.circuit id true v).2.mapEnterLOS p v).2 := by
        refine classified_mapEnterLOS hreg (hid.symm ▸ hinfo) (fun ha => ?_) fun ha hthreat => ?_
        · rw [hid]
          exact (congrFun (congrArg snd hmaps) id).trans (hpeace ha)
        · rw [hid]
          exact (congrFun (congrArg fst hmaps) id).trans (hhostile ha hthreat)
      show classified ((s.registerEnemyInfo s.circuit id true v).2.teamEnterLOS mod s.circuit p v)
      rw [teamEnterLOS_owner mod (registerEnemyInfo_circuit true)]
      split
      · exact classified_congr (maps_addEnemyCost mod) (core_addEnemyCost mod) hmap
      · exact hmap
    · show classified ((s.registerEnemyInfo ai id true v).2.teamEnterLOS mod ai p v)
      rw [teamEnterLOS_other mod (by rwa [registerEnemyInfo_circuit])]
      exact hreg

theorem classified_enemyEnterRadar (hr : Registry (core (s.enemyEnterRadar ai id v)))
    (h : classified s) (hok : KeepsClass s (.enterRadar ai id v)) : classified (s.enemyEnterRadar ai id v) := by
  have hreg := classified_registerEnemyInfo h ai id false v
  have hmaps := maps_registerEnemyInfo s ai id false v
  rw [core_enemyEnterRadar] at hr
  rw [enemyEnterRadar_eq]
  cases hp : (s.registerEnemyInfo ai id false v).1 with
  | none => exact hreg
  | some p =>
    by_cases hai : s.circuit = ai
    · subst hai
      obtain ⟨hid, hinfo⟩ := registerEnemyInfo_owner hr hp
      show classified ((s.registerEnemyInfo s.circuit id false v).2.teamEnterRadar s.circuit p)
      rw [teamEnterRadar_owner (registerEnemyInfo_circuit false)]
      refine classified_mapEnterRadar hreg (hid.symm ▸ hinfo) fun hlos ha => ?_
      rw [hid]
      exact (congrFun (congrArg snd hmaps) id).trans (hok rfl p hp hlos ha)
    · show classified ((s.registerEnemyInfo ai id false v).2.teamEnterRadar ai p)
      rw [teamEnterRadar_other (by rwa [registerEnemyInfo_circuit])]
      exact hreg

theorem classified_enemyDestroyed (mod : ThrMod) (h : classified s) (hp : s.enemyInfos ai id = some p) : classified (s.enemyDestroyed mod ai id) := by
  unfold classified
  rw [core_enemyDestroyed mod hp]
  simp only [enemyDestroyed, hp, maps_unregisterEnemyInfo, Core.remove_circuit]
  by_cases hai : s.circuit = ai
  · subst hai
    obtain ⟨hmap, hhostile, hpeace⟩ := classified_mapDestroyed (p := p) h
    have hmaps : maps (s.teamDestroyed mod s.circuit p) = maps (s.mapDestroyed p).2 := by
      rw [teamDestroyed_owner mod rfl]
      split <;> simp
    rw [hmaps]
    show Classified _ _ (((core s).remove (core s).circuit p).infos (core s).circuit)
    rw [Core.remove_owner_infos]
    unfold classified at hmap
    rw [core_mapDestroyed] at hmap
    exact hmap.eraseInfo hhostile hpeace
  · rw [teamDestroyed_other mod hai, Core.remove_other hai, Core.setInfo_other hai]
    exact h

theorem classified_step {mod : ThrMod} {mark : ℤ} {i : Input α ρ} {e : Event α} (hr : Registry (core s))
    (h : classified s) (hok : KeepsClass s i) (hst : Step mod mark s i e t) : classified t := by
  have hr' := hr.step hst.core_step
  cases hst with
  | enterLOS => exact classified_enemyEnterLOS mod hr' h hok
  | leaveLOS =>
    unfold enemyLeaveLOS teamLeaveLOS
    split
    · split
      · exact h
      · exact classified_congr (maps_modify _) (core_modify fun _ => ⟨rfl, rfl⟩) h
    · exact h
  | enterRadar => exact classified_enemyEnterRadar hr' h hok
  | leaveRadar =>
    unfold enemyLeaveRadar teamLeaveRadar
    split
    · split
      · exact h
      · exact classified_congr (maps_modify _) (core_modify fun _ => ⟨rfl, rfl⟩) h
    · exact h
  | @destroyed ai id hpc | @handle ai id rest hpc =>
    cases hp : s.enemyInfos ai id with
    | none =>
      rw [enemyDestroyed, hp]
      exact h
    | some p => exact classified_enemyDestroyed mod h hp
  | update | delete | garbage | visit | endSweep => exact h
  | team =>
    unfold teamUpdate
    split
    · exact h
    · split
      · dsimp only
        split <;> exact h
      · exact h

theorem Run.classified {mod : ThrMod} {mark : ℤ} {es : List (Event α)} (h : Run mod mark KeepsClass es s) :
    classified s := by
  induction h with
  | new circuit => exact ⟨by simp [maps, State.new], by simp [maps, State.new], by simp [maps, State.new]⟩
  | step h hok hst ih => exact classified_step h.registry ih hok hst

/-- As long as no enemy changes its class without notice, no enemy is both hostile and peaceful, and one that is freed
is in none of the maps. -/
theorem freed_nowhere {mod : ThrMod} {mark : ℤ} {es : List (Event α)} (h : Run mod mark KeepsClass es s) :
    (∀ id id' p, ¬ (s.hostileUnits id = some p ∧ s.peaceUnits id' = some p)) ∧
    ∀ i p t, Step mod mark s i (.delete p) t →
      ∀ id, s.enemyUnits id ≠ some p ∧ s.hostileUnits id ≠ some p ∧ s.peaceUnits id ≠ some p := by
  have hr := h.registry
  have hc := h.classified
  constructor
  · rintro id id' p ⟨hhostile, hpeace⟩
    -- the records tell that the two ids are that of the enemy
    have hid := (hr.infos_id _ _ _ (hc.hostile_infos id p hhostile)).1
    have hid' := (hr.infos_id _ _ _ (hc.peace_infos id' p hpeace)).1
    subst hid
    subst hid'
    rcases hc.apart _ with hnone | hnone
    · exact Option.some_ne_none p (hhostile.symm.trans hnone)
    · exact Option.some_ne_none p (hpeace.symm.trans hnone)
  · intro i p t hst id
    have hcore := hst.core_step
    generalize core t = c' at hcore
    generalize i.entering = w at hcore
    cases hcore with
    | delete hpc hp hd =>
      have hinfo := hr.not_infos_of_delete hpc hp hd id
      exact ⟨fun hu => hinfo (hr.units_infos id p hu), fun hh => hinfo (hc.hostile_infos id p hh),
        fun hh => hinfo (hc.peace_infos id p hh)⟩
    | register hpc hid he => simp at he

theorem freed_nowhere_attacker : ∃ (es : List (Event Unit)) (s t : State Unit Unit) (i : Input Unit Unit),
    Run unitThrMod 0 KeepsClass es s ∧ Step unitThrMod 0 s i (.delete 0) t ∧ s.hostileUnits 7 ≠ some 0 := by
  have h0 : Run unitThrMod 0 KeepsClass [] (State.new () : State Unit Unit) := .new ()
  have h1 := h0.step (i := .enterLOS () 7 (seeing (scout true))) (fun _ _ _ => ⟨fun _ => rfl, fun _ _ => rfl⟩)
    (.enterLOS rfl)
  have h2 := h1.step (i := .destroyed () 7) trivial (.destroyed rfl)
  have h3 := h2.step (i := .update () 6) trivial (.update rfl)
  have h4 := h3.step (i := .team true (fun _ => false) fun _ => 0) trivial (.team rfl)
  refine ⟨_, _, _, .sweep false false, h4, .delete rfl rfl rfl, ?_⟩
  exact ((freed_nowhere h4).2 (.sweep false false) 0 _ (.delete rfl rfl rfl) 7).2.1

/-- A unit that is seen first as none that attacks and then as an attacker is in both maps, and stays in `peaceUnits`
when it is freed. -/
theorem freed_in_peaceUnits :
    (∃ (es : List (Event Unit)) (s : State Unit Unit), Run unitThrMod 0 (fun _ _ => True) es s ∧
      s.hostileUnits 7 = some 0 ∧ s.peaceUnits 7 = some 0) ∧
    ∃ (es : List (Event Unit)) (s t : State Unit Unit) (i : Input Unit Unit),
      Run unitThrMod 0 (fun _ _ => True) es s ∧ Step unitThrMod 0 s i (.delete 0) t ∧ s.peaceUnits 7 = some 0 := by
  have h0 : Run unitThrMod 0 (fun _ _ => True) [] (State.new () : State Unit Unit) := .new ()
  have h1 := h0.step (i := .enterLOS () 7 (seeing (scout false))) trivial (.enterLOS rfl)
  have h2 := h1.step (i := .enterLOS () 7 (seeing (scout true))) trivial (.enterLOS rfl)
  have h3 := h2.step (i := .destroyed () 7) trivial (.destroyed rfl)
  have h4 := h3.step (i := .update () 6) trivial (.update rfl)
  have h5 := h4.step (i := .team true (fun _ => false) fun _ => 0) trivial (.team rfl)
  exact ⟨⟨_, _, h2, rfl, rfl⟩, _, _, _, .sweep false false, h5, .delete rfl rfl rfl, rfl⟩

end Circuit.Spec.EnemyRuns
