import CircuitAI.Proof.Enemies.Registry

/-!
# Garbage of another enemy

`enemyGarbage` holds ids, is read by every AI in its `Update` and is cleared only when the enemies are swept, so that it
lives through a threat update. An enemy that is registered meanwhile under such an id is destroyed for the old entry
(`handled_without_garbage`). Where no id is used again that early, a record is removed only for the garbage that its
own enemy became (`handled_is_garbage`).
-/

set_option linter.unusedSectionVars false

namespace Circuit.Spec.EnemyRuns

open Impl.Enemies Framework Function List

variable {α ρ : Type*} [DecidableEq α] {c c' : Core α} {e : Event α} {es : List (Event α)} {s t : State α ρ}
  {mod : ThrMod} {mark : ℤ} {i : Input α ρ} {p : ℕ} {id : ℤ}

def NoReuse (s : State α ρ) : Input α ρ → Prop
  | .enterLOS ai id v =>
    s.circuit = ai → s.enemyInfos ai id = none → (s.registerEnemyInfo ai id true v).1 ≠ none → id ∉ s.enemyGarbage
  | .enterRadar ai id v =>
    s.circuit = ai → s.enemyInfos ai id = none → (s.registerEnemyInfo ai id false v).1 ≠ none → id ∉ s.enemyGarbage
  | .sweep isOut _ =>
    ∀ n p, s.pc = .sweep (n + 1) → s.enemyUpdates[s.enemyIterator]? = some p → (s.heap p).isDead = false →
      s.isGarbage p isOut = true → ∀ a q, s.enemyInfos a (s.heap p).id = some q → q = p
  | _ => True

structure Accounted (c : Core α) (es : List (Event α)) : Prop where
  units : ∀ id ∈ c.garbage, c.units id = none
  infos : ∀ id ∈ c.garbage, ∀ a p, c.infos a id = some p → .garbage p ∈ es
  rest : ∀ a rest, c.pc = .garbage a rest → ∀ id ∈ rest, id ∈ c.garbage

namespace Accounted

theorem shrink (h : Accounted c es) (hgarbage : ∀ id ∈ c'.garbage, id ∈ c.garbage)
    (hunits : ∀ id, c.units id = none → c'.units id = none)
    (hinfos : ∀ a id p, c'.infos a id = some p → c.infos a id = some p)
    (hrest : ∀ a rest, c'.pc = .garbage a rest → ∀ id ∈ rest, id ∈ c'.garbage) : Accounted c' (e :: es) where
  units id hid := hunits id (h.units id (hgarbage id hid))
  infos id hid a p hp := mem_cons_of_mem _ (h.infos id (hgarbage id hid) a p (hinfos a id p hp))
  rest := hrest

theorem record {ai : α} (h : Accounted c es) (hpc : c.pc = .idle) (hp : c.units id = some p) :
    Accounted (c.setInfo ai id (some p)) (e :: es) where
  units := h.units
  infos j hj a q hq := by
    rw [Core.setInfo_infos] at hq
    split at hq
    · next hi =>
      rw [hi.2] at hj
      simp [h.units id hj] at hp
    · exact mem_cons_of_mem _ (h.infos j hj a q hq)
  rest a rest hcon := by
    have hcon : c.pc = .garbage a rest := hcon
    rw [hpc] at hcon
    cases hcon

theorem register (h : Accounted c es) (hpc : c.pc = .idle) (hid : id ∉ c.garbage) :
    Accounted ((c.register id).setInfo c.circuit id (some c.next)) (e :: es) where
  units j hj := by
    show update c.units id (some c.next) j = none
    have hne : j ≠ id := by
      rintro rfl
      exact hid hj
    rw [update_of_ne hne]
    exact h.units j hj
  infos j hj a q hq := by
    have hne : ¬ (a = c.circuit ∧ j = id) := by
      rintro ⟨-, rfl⟩
      exact hid hj
    rw [Core.setInfo_infos, if_neg hne] at hq
    exact mem_cons_of_mem _ (h.infos j hj a q hq)
  rest a rest hcon := by
    have hcon : c.pc = .garbage a rest := hcon
    rw [hpc] at hcon
    cases hcon

theorem garbage {n : ℕ} (h : Accounted c es) (hpc : c.pc = .sweep n) (hp : ∀ a q, c.infos a (c.id p) = some q → q = p) :
    Accounted { c.kill p with garbage := c.garbage ++ [c.id p], iterator := c.iterator + 1 } (.garbage p :: es) where
  units j hj := by
    rcases mem_append.1 hj with hj | hj
    · exact Core.kill_units_none (h.units j hj)
    · rw [mem_singleton.1 hj]
      exact update_self ..
  infos j hj a q hq := by
    rcases mem_append.1 hj with hj | hj
    · exact mem_cons_of_mem _ (h.infos j hj a q hq)
    · rw [mem_singleton.1 hj] at hq
      rw [hp a q hq]
      exact mem_cons_self
  rest a rest hcon := by
    have hcon : c.pc = .garbage a rest := hcon
    rw [hpc] at hcon
    cases hcon

theorem step {w : Option (α × ℤ)} (h : Accounted c es) (hst : Core.Step c w e c')
    (hnew : ∀ id, w = some (c.circuit, id) → c.infos c.circuit id = none → c'.infos c.circuit id ≠ none →
      id ∉ c.garbage)
    (hgarbage : ∀ p, e = .garbage p → ∀ a q, c.infos a (c.id p) = some q → q = p) : Accounted c' (e :: es) := by
  cases hst with
  | keep hpc | seen hpc hp | delete hpc hp hd => exact h.shrink (fun _ => id) (fun _ => id) (fun _ _ _ => id) h.rest
  | record hpc hai hp => exact h.record hpc hp
  | @register id _ hpc hid he =>
    refine h.register hpc (hnew id rfl hid ?_)
    rw [Core.setInfo_infos, if_pos ⟨rfl, rfl⟩]
    simp
  | destroyed hpc hp =>
    refine h.shrink (fun id hid => ?_) (fun _ => Core.remove_units_none) (fun _ _ _ => Core.infos_of_remove) ?_
    · rwa [Core.remove_garbage] at hid
    · rw [Core.remove_pc, Core.remove_garbage]
      exact h.rest
  | update hpc =>
    refine h.shrink (fun _ => id) (fun _ => id) (fun _ _ _ => id) fun a rest hcon id hid => ?_
    cases hcon
    exact hid
  | skip hpc hid =>
    refine h.shrink (fun _ => id) (fun _ => id) (fun _ _ _ => id) fun a rest hcon id hid => ?_
    cases hcon
    exact h.rest _ _ hpc id (mem_cons_of_mem _ hid)
  | handle hpc hp =>
    refine h.shrink (fun id hid => ?_) (fun _ => Core.remove_units_none) (fun _ _ _ => Core.infos_of_remove)
      fun a rest hcon id hid => ?_
    · rwa [Core.remove_garbage] at hid
    · cases hcon
      rw [Core.remove_garbage]
      exact h.rest _ _ hpc id (mem_cons_of_mem _ hid)
  | done hpc | visit hpc hp hd | endSweep hpc => exact h.shrink (fun _ => id) (fun _ => id) (fun _ _ _ => id) nofun
  | sweep hpc hlt | beginPass hpc hle => exact h.shrink (by simp) (fun _ => id) (fun _ _ _ => id) nofun
  | garbage hpc hp hd => exact h.garbage hpc (hgarbage _ rfl)

theorem new (circuit : α) : Accounted (core (State.new circuit : State α ρ)) [] := by
  constructor <;> simp [core, State.new]

end Accounted

theorem NoReuse.register (hok : NoReuse s i) (hst : Step mod mark s i e t)
    (hi : i.entering = some (s.circuit, id)) (hbefore : s.enemyInfos s.circuit id = none)
    (hafter : (core t).infos s.circuit id ≠ none) : id ∉ s.enemyGarbage := by
  cases hst with
  | enterLOS =>
    cases hi
    rw [core_enemyEnterLOS] at hafter
    exact hok rfl hbefore (registerEnemyInfo_ne_none hbefore hafter)
  | enterRadar =>
    cases hi
    rw [core_enemyEnterRadar] at hafter
    exact hok rfl hbefore (registerEnemyInfo_ne_none hbefore hafter)
  | _ => cases hi

theorem NoReuse.garbage (hok : NoReuse s i) (hst : Step mod mark s i (.garbage p) t) (a : α) (q : ℕ)
    (hq : s.enemyInfos a (s.heap p).id = some q) : q = p := by
  generalize he : Event.garbage p = e at hst
  cases hst with
  | garbage hpc hp hd hg =>
    cases he
    exact hok _ _ hpc hp hd hg a q hq
  | @enterLOS ai id v hpc =>
    unfold enterEvent at he
    split at he
    · cases h : (s.registerEnemyInfo ai id true v).1 <;> simp [h] at he
    · cases he
  | @destroyed ai id hpc | @handle ai id rest hpc => cases h : s.enemyInfos ai id <;> simp [h] at he
  | team hpc =>
    unfold teamUpdate at he
    split at he
    · cases he
    · split at he
      · cases he
      · dsimp only at he
        split at he <;> cases he
  | _ => cases he

theorem Run.accounted (h : Run mod mark NoReuse es s) : Accounted (core s) es := by
  induction h with
  | new circuit => exact .new circuit
  | step h hok hst ih =>
    refine ih.step hst.core_step (fun id hi hbefore hafter => hok.register hst hi hbefore hafter) ?_
    rintro p rfl
    exact hok.garbage hst

/-- If no id is used again too early, each AI removes a record because of `enemyGarbage` only if its enemy had become
garbage. -/
theorem handled_is_garbage (h : Run mod mark NoReuse es s) {a : α} (hst : Step mod mark s i (.handled a p) t) :
    .garbage p ∈ es := by
  have hacc := h.accounted
  have hcore := hst.core_step
  generalize core t = c' at hcore
  generalize i.entering = w at hcore
  cases hcore with
  | @handle _ id rest _ hpc hp => exact hacc.infos id (hacc.rest _ _ hpc id mem_cons_self) a p hp
  | register hpc hid he => simp at he

theorem handled_is_garbage_once : ∃ (es : List (Event Unit)) (s t : State Unit Unit) (i : Input Unit Unit),
    Run unitThrMod 0 NoReuse es s ∧ Step unitThrMod 0 s i (.handled () 0) t ∧ .garbage 0 ∈ es := by
  have h0 : Run unitThrMod 0 NoReuse [] (State.new () : State Unit Unit) := .new ()
  have h1 := h0.step (i := .enterLOS () 7 (seeing (scout true))) (fun _ _ _ => by simp [State.new]) (.enterLOS rfl)
  have h2 := h1.step (i := .update () 6) trivial (.update rfl)
  have h3 := h2.step (i := .team true (fun _ => false) fun _ => 0) trivial (.team rfl)
  have h4 := h3.step (i := .sweep true false)
    (fun _ _ _ hp _ _ _ _ hq => by cases Option.some.inj hp; exact (Option.some.inj hq).symm)
    (.garbage rfl rfl rfl rfl)
  have h5 := h4.step (i := .sweep true false) (fun _ _ _ hp => by cases hp) (.endSweep rfl (.inr (by decide)))
  have h6 := h5.step (i := .update () 7) trivial (.update rfl)
  refine ⟨_, _, _, .handle, h6, @Step.handle _ _ _ _ _ _ () 7 [] rfl, ?_⟩
  exact handled_is_garbage h6 (@Step.handle _ _ _ _ _ _ () 7 [] rfl)

/-- An enemy that becomes garbage and is handled in a threat update leaves its id in `enemyGarbage`. The next enemy with
the id is destroyed by that entry. -/
theorem handled_without_garbage : ∃ (es : List (Event Unit)) (s t : State Unit Unit) (i : Input Unit Unit),
    Run unitThrMod 0 (fun _ _ => True) es s ∧ Step unitThrMod 0 s i (.handled () 1) t ∧ .garbage 1 ∉ es := by
  have h0 : Run unitThrMod 0 (fun _ _ => True) [] (State.new () : State Unit Unit) := .new ()
  have h1 := h0.step (i := .enterLOS () 7 (seeing (scout true))) trivial (.enterLOS rfl)
  -- the unit is out of bounds in the sweep of frame 6
  have h2 := h1.step (i := .update () 6) trivial (.update rfl)
  have h3 := h2.step (i := .team true (fun _ => false) fun _ => 0) trivial (.team rfl)
  have h4 := h3.step (i := .sweep true false) trivial (.garbage rfl rfl rfl rfl)
  have h5 := h4.step (i := .sweep true false) trivial (.endSweep rfl (.inr (by decide)))
  -- frame 7 is one of a threat update
  have h6 := h5.step (i := .update () 7) trivial (.update rfl)
  have h7 := h6.step (i := .handle) trivial (.handle rfl)
  have h8 := h7.step (i := .team true (fun _ => false) fun _ => 0) trivial (.team rfl)
  have h9 := h8.step (i := .enterLOS () 7 (seeing (scout true))) trivial (.enterLOS rfl)
  have h10 := h9.step (i := .update () 8) trivial (.update rfl)
  exact ⟨_, _, _, .handle, h10, @Step.handle _ _ _ _ _ _ () 7 [] rfl, by decide⟩

end Circuit.Spec.EnemyRuns
