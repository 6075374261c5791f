import CircuitAI.Proof.Enemies.Core

/-!
# The registries fit together

`Registry` holds in every state of a run (`Run.registry`). The steps are taken one by one: those that only move the
program counter, the iterator or the garbage (`Registry.control`), a new enemy (`Registry.register`), a record that is
made (`Registry.record`) or removed (`Registry.remove`), and the two moves of the sweep that change the units
(`Registry.delete`, `Registry.garbage`).
-/

set_option linter.unusedSectionVars false

namespace Circuit.Spec.EnemyRuns

open Impl.Enemies Framework Function List Option

variable {α ρ : Type*} [DecidableEq α] {c : Core α} {ai a : α} {id i : ℤ} {p q : ℕ}

namespace Core

theorem setInfo_infos (c : Core α) (ai a : α) (id i : ℤ) (q : Option ℕ) :
    (c.setInfo ai id q).infos a i = if a = ai ∧ i = id then q else c.infos a i := by
  by_cases ha : a = ai
  · subst ha
    by_cases hi : i = id <;> simp [setInfo, hi]
  · simp [setInfo, ha]

theorem setInfo_owner (c : Core α) (id : ℤ) (q : Option ℕ) :
    (c.setInfo c.circuit id q).infos c.circuit = update (c.infos c.circuit) id q :=
  update_self ..

theorem setInfo_other (hai : c.circuit ≠ ai) (id : ℤ) (q : Option ℕ) :
    (c.setInfo ai id q).infos c.circuit = c.infos c.circuit :=
  update_of_ne hai ..

theorem remove_owner (c : Core α) (p : ℕ) : c.remove c.circuit p = (c.kill p).setInfo c.circuit (c.id p) none := by
  simp [remove]

theorem remove_owner_infos (c : Core α) (p : ℕ) :
    (c.remove c.circuit p).infos c.circuit = update (c.infos c.circuit) (c.id p) none := by
  rw [remove_owner]
  exact update_self ..

theorem remove_other (hai : c.circuit ≠ ai) (p : ℕ) : c.remove ai p = c.setInfo ai (c.id p) none := by
  simp [remove, hai]

theorem ne_of_kill_live (hd : (c.kill p).dead q = false) : q ≠ p ∧ c.dead q = false := by
  have hupd : update c.dead p true q = false := hd
  have hqp : q ≠ p := by
    rintro rfl
    simp at hupd
  rw [update_of_ne hqp] at hupd
  exact ⟨hqp, hupd⟩

theorem kill_units_none (h : c.units i = none) : (c.kill p).units i = none := by
  show update c.units (c.id p) none i = none
  by_cases hi : i = c.id p
  · rw [hi, update_self]
  · rw [update_of_ne hi]
    exact h

theorem remove_units_none (h : c.units i = none) : (c.remove ai p).units i = none := by
  unfold remove
  split
  · exact kill_units_none h
  · exact h

theorem infos_of_remove (h : (c.remove ai p).infos a i = some q) : c.infos a i = some q := by
  have hinfos : (if c.circuit = ai then c.kill p else c).infos = c.infos := by
    split <;> rfl
  unfold remove at h
  rw [setInfo_infos, hinfos] at h
  split at h
  · cases h
  · exact h

theorem live_of_remove_live (hd : (c.remove ai p).dead q = false) : c.dead q = false := by
  unfold remove at hd
  split at hd
  · exact (ne_of_kill_live hd).2
  · exact hd

@[simp]
theorem remove_next : (c.remove ai p).next = c.next := by
  unfold remove
  split <;> rfl

@[simp]
theorem remove_updates : (c.remove ai p).updates = c.updates := by
  unfold remove
  split <;> rfl

@[simp]
theorem remove_iterator : (c.remove ai p).iterator = c.iterator := by
  unfold remove
  split <;> rfl

@[simp]
theorem remove_circuit : (c.remove ai p).circuit = c.circuit := by
  unfold remove
  split <;> rfl

@[simp]
theorem remove_garbage : (c.remove ai p).garbage = c.garbage := by
  unfold remove
  split <;> rfl

@[simp]
theorem remove_pc : (c.remove ai p).pc = c.pc := by
  unfold remove
  split <;> rfl

theorem toHandle_remove : (c.remove ai p).toHandle = c.toHandle := by
  unfold remove
  split <;> rfl

theorem toHandle_of_pc (h : ∀ a rest, c.pc ≠ .garbage a rest) : c.toHandle = c.garbage := by
  unfold toHandle
  split
  · next a rest hpc => exact absurd hpc (h a rest)
  · rfl

end Core

namespace Registry

theorem units_eq (h : Registry c) (hp : c.infos c.circuit id = some p) (hq : c.units id = some q) : q = p := by
  have hinfo := h.units_infos id q hq
  rw [hp] at hinfo
  exact (some.inj hinfo).symm

theorem control {it : ℕ} {g : List ℤ} {pc : Pc α} (h : Registry c) (hit : it ≤ c.updates.length)
    (hpending : ∀ id p, c.infos c.circuit id = some p → c.dead p = true →
      id ∈ ({ c with iterator := it, garbage := g, pc := pc } : Core α).toHandle)
    (hswept : ∀ n id p, pc = .sweep n → c.infos c.circuit id = some p → c.dead p = true → p ∈ c.updates.take it) :
    Registry { c with iterator := it, garbage := g, pc := pc } where
  nodup := h.nodup
  lt_next := h.lt_next
  iterator_le := hit
  units := h.units
  live := h.live
  infos_id := h.infos_id
  infos := h.infos
  units_infos := h.units_infos
  pending := hpending
  swept := hswept

theorem register (h : Registry c) (hpc : c.pc = .idle) (hid : c.infos c.circuit id = none) :
    Registry ((c.register id).setInfo c.circuit id (some c.next)) := by
  have hne : ∀ p ∈ c.updates, p ≠ c.next := fun p hp => Nat.ne_of_lt (h.lt_next p hp)
  have hunits : ∀ i p, c.units i = some p → i ≠ id := by
    rintro i p hp rfl
    simp [h.units_infos i p hp] at hid
  -- the records and units are the new one and the old ones
  have hinfo : ∀ i p, ((c.register id).setInfo c.circuit id (some c.next)).infos c.circuit i = some p →
      i = id ∧ p = c.next ∨ c.infos c.circuit i = some p := by
    intro i p hp
    rw [Core.setInfo_infos] at hp
    split at hp
    · next hi => exact .inl ⟨hi.2, (some.inj hp).symm⟩
    · exact .inr hp
  have hunit : ∀ i p, update c.units id (some c.next) i = some p →
      i = id ∧ p = c.next ∨ i ≠ id ∧ c.units i = some p := by
    intro i p hp
    by_cases hi : i = id
    · subst hi
      rw [update_self] at hp
      exact .inl ⟨rfl, (some.inj hp).symm⟩
    · rw [update_of_ne hi] at hp
      exact .inr ⟨hi, hp⟩
  constructor
  · show (c.updates ++ [c.next]).Nodup
    rw [← concat_eq_append]
    exact h.nodup.concat fun hmem => hne _ hmem rfl
  · intro p hp
    rcases mem_append.1 hp with hp | hp
    · exact Nat.lt_succ_of_lt (h.lt_next p hp)
    · rw [mem_singleton.1 hp]
      exact Nat.lt_succ_self _
  · show c.iterator ≤ (c.updates ++ [c.next]).length
    rw [length_append]
    exact Nat.le_add_right_of_le h.iterator_le
  · intro i p hp
    show update c.id c.next id p = i ∧ p ∈ c.updates ++ [c.next] ∧ update c.dead c.next false p = false
    rcases hunit i p hp with ⟨rfl, rfl⟩ | ⟨-, hp⟩
    · simp
    · obtain ⟨hi, hmem, hd⟩ := h.units i p hp
      rw [update_of_ne (hne p hmem), update_of_ne (hne p hmem)]
      exact ⟨hi, mem_append_left _ hmem, hd⟩
  · intro p hp hd
    show update c.units id (some c.next) (update c.id c.next id p) = some p
    rcases mem_append.1 hp with hp | hp
    · have hdead : c.dead p = false := by
        rw [← hd]
        exact (update_of_ne (hne p hp) _ _).symm
      have hlive := h.live p hp hdead
      rw [update_of_ne (hne p hp), update_of_ne (hunits _ _ hlive)]
      exact hlive
    · rw [mem_singleton.1 hp, update_self, update_self]
  · intro a i p hp
    show update c.id c.next id p = i ∧ p < c.next + 1
    rw [Core.setInfo_infos] at hp
    split at hp
    · next hi =>
      rw [← some.inj hp, update_self]
      exact ⟨hi.2.symm, Nat.lt_succ_self _⟩
    · obtain ⟨hi, hlt⟩ := h.infos_id a i p hp
      rw [update_of_ne (Nat.ne_of_lt hlt)]
      exact ⟨hi, Nat.lt_succ_of_lt hlt⟩
  · intro i p hp
    rcases hinfo i p hp with ⟨-, rfl⟩ | hp
    · exact mem_append_right _ (mem_singleton_self _)
    · exact mem_append_left _ (h.infos i p hp)
  · intro i p hp
    show ((c.register id).setInfo c.circuit id (some c.next)).infos c.circuit i = some p
    rw [Core.setInfo_infos]
    rcases hunit i p hp with ⟨rfl, rfl⟩ | ⟨hi, hp⟩
    · exact if_pos ⟨rfl, rfl⟩
    · rw [if_neg fun h => hi h.2]
      exact h.units_infos i p hp
  · intro i p hp hd
    show i ∈ c.toHandle
    have hdead : update c.dead c.next false p = true := hd
    rcases hinfo i p hp with ⟨-, rfl⟩ | hp
    · simp at hdead
    · rw [update_of_ne (hne p (h.infos i p hp))] at hdead
      exact h.pending i p hp hdead
  · intro n i p hsweep
    have hcon : c.pc = .sweep n := hsweep
    rw [hpc] at hcon
    cases hcon

theorem setInfo_other {q : Option ℕ} (h : Registry c) (hai : c.circuit ≠ ai)
    (hq : ∀ p, q = some p → c.id p = id ∧ p < c.next) : Registry (c.setInfo ai id q) := by
  have hinfos := Core.setInfo_other hai id q
  constructor
  · exact h.nodup
  · exact h.lt_next
  · exact h.iterator_le
  · exact h.units
  · exact h.live
  · intro a i p hp
    rw [Core.setInfo_infos] at hp
    split at hp
    · next hi => exact hi.2 ▸ hq p hp
    · exact h.infos_id a i p hp
  · intro i p hp
    exact h.infos i p (hinfos ▸ hp)
  · intro i p hp
    exact hinfos ▸ h.units_infos i p hp
  · intro i p hp
    exact h.pending i p (hinfos ▸ hp)
  · intro n i p hpc hp
    exact h.swept n i p hpc (hinfos ▸ hp)

theorem kill_units (h : Registry c) (hq : (c.kill p).units i = some q) :
    i ≠ c.id p ∧ c.units i = some q ∧ c.id q = i ∧ q ∈ c.updates ∧ (c.kill p).dead q = false := by
  have hupd : update c.units (c.id p) none i = some q := hq
  have hi : i ≠ c.id p := by
    rintro rfl
    simp at hupd
  rw [update_of_ne hi] at hupd
  obtain ⟨hid, hmem, hd⟩ := h.units i q hupd
  have hqp : q ≠ p := fun hqp => hi (hqp ▸ hid.symm)
  exact ⟨hi, hupd, hid, hmem, (update_of_ne hqp _ _).trans hd⟩

theorem kill_live (h : Registry c) (hp : c.infos c.circuit (c.id p) = some p) (hmem : q ∈ c.updates)
    (hd : (c.kill p).dead q = false) : (c.kill p).units (c.id q) = some q := by
  obtain ⟨hqp, hd⟩ := Core.ne_of_kill_live hd
  have hlive := h.live q hmem hd
  have hid : c.id q ≠ c.id p := fun hid => hqp (h.units_eq hp (hid ▸ hlive))
  exact (update_of_ne hid _ _).trans hlive

theorem kill_dead (hd : (c.kill p).dead q = true) : q = p ∨ c.dead q = true := by
  have hupd : update c.dead p true q = true := hd
  by_cases hqp : q = p
  · exact .inl hqp
  · rw [update_of_ne hqp] at hupd
    exact .inr hupd

theorem remove_owner (h : Registry c) (hpc : ∀ n, c.pc ≠ .sweep n) (hp : c.infos c.circuit id = some p) :
    Registry (c.remove c.circuit p) := by
  have hid := (h.infos_id _ _ _ hp).1
  subst hid
  have hinfo : ∀ a i q, ((c.kill p).setInfo c.circuit (c.id p) none).infos a i = some q →
      ¬ (a = c.circuit ∧ i = c.id p) ∧ c.infos a i = some q := by
    intro a i q hq
    rw [Core.setInfo_infos] at hq
    split at hq
    · cases hq
    · next hi => exact ⟨hi, hq⟩
  rw [Core.remove_owner]
  constructor
  · exact h.nodup
  · exact h.lt_next
  · exact h.iterator_le
  · intro i q hq
    exact (h.kill_units hq).2.2
  · intro q hmem hd
    exact h.kill_live hp hmem hd
  · intro a i q hq
    exact h.infos_id a i q (hinfo a i q hq).2
  · intro i q hq
    exact h.infos i q (hinfo _ i q hq).2
  · intro i q hq
    obtain ⟨hi, hq, -⟩ := h.kill_units hq
    show ((c.kill p).setInfo c.circuit (c.id p) none).infos c.circuit i = some q
    rw [Core.setInfo_infos, if_neg fun h => hi h.2]
    exact h.units_infos i q hq
  · intro i q hq hd
    obtain ⟨hi, hq⟩ := hinfo _ i q hq
    rcases kill_dead hd with rfl | hd
    · exact absurd ⟨rfl, (h.infos_id _ _ _ hq).1.symm⟩ hi
    · exact h.pending i q hq hd
  · intro n i q hsweep
    exact absurd hsweep (hpc n)

theorem remove (h : Registry c) (hpc : ∀ n, c.pc ≠ .sweep n) (hp : c.infos ai id = some p) :
    Registry (c.remove ai p) := by
  by_cases hai : c.circuit = ai
  · subst hai
    exact h.remove_owner hpc hp
  · rw [Core.remove_other hai]
    exact h.setInfo_other hai (by simp)

theorem not_mem_take (h : Registry c) (hp : c.updates[c.iterator]? = some p) : p ∉ c.updates.take c.iterator := by
  intro hmem
  obtain ⟨k, hk, hkp⟩ := getElem_of_mem hmem
  rw [length_take] at hk
  rw [getElem_take] at hkp
  have hlt := (List.getElem?_eq_some_iff.1 hp).1
  have heq := (List.getElem?_eq_some_iff.1 hp).2
  have hki := (h.nodup.getElem_inj_iff).1 (hkp.trans heq.symm)
  omega

theorem not_infos_of_delete {n : ℕ} (h : Registry c) (hpc : c.pc = .sweep n) (hp : c.updates[c.iterator]? = some p)
    (hd : c.dead p = true) (id : ℤ) : c.infos c.circuit id ≠ some p :=
  fun hinfo => h.not_mem_take hp (h.swept n id p hpc hinfo hd)

theorem delete {n : ℕ} (h : Registry c) (hpc : c.pc = .sweep n) (hp : c.updates[c.iterator]? = some p)
    (hd : c.dead p = true) : Registry { c with updates := swapRemove c.updates c.iterator 0 } := by
  have hlt := (List.getElem?_eq_some_iff.1 hp).1
  have hperm := cons_swapRemove_perm hp 0
  have hsub : ∀ q ∈ swapRemove c.updates c.iterator 0, q ∈ c.updates :=
    fun q hq => hperm.subset (mem_cons_of_mem _ hq)
  have hmem : ∀ q ∈ c.updates, q ≠ p → q ∈ swapRemove c.updates c.iterator 0 := by
    intro q hq hqp
    rcases mem_cons.1 (hperm.symm.subset hq) with hqp' | hq
    · exact absurd hqp' hqp
    · exact hq
  constructor
  · exact (hperm.nodup_iff.2 h.nodup).of_cons
  · intro q hq
    exact h.lt_next q (hsub q hq)
  · have hlen := hperm.length_eq
    rw [length_cons] at hlen
    show c.iterator ≤ (swapRemove c.updates c.iterator 0).length
    omega
  · intro i q hq
    obtain ⟨hid, hq, hlive⟩ := h.units i q hq
    refine ⟨hid, hmem q hq ?_, hlive⟩
    rintro rfl
    simp [hd] at hlive
  · intro q hq hlive
    exact h.live q (hsub q hq) hlive
  · exact h.infos_id
  · intro i q hq
    refine hmem q (h.infos i q hq) ?_
    rintro rfl
    exact h.not_infos_of_delete hpc hp hd i hq
  · exact h.units_infos
  · exact h.pending
  · intro m i q hsweep hq hdead
    show q ∈ (swapRemove c.updates c.iterator 0).take c.iterator
    rw [take_swapRemove hlt]
    exact h.swept m i q hsweep hq hdead

theorem garbage {n : ℕ} (h : Registry c) (hpc : c.pc = .sweep n) (hp : c.updates[c.iterator]? = some p)
    (hd : c.dead p = false) :
    Registry { c.kill p with garbage := c.garbage ++ [c.id p], iterator := c.iterator + 1 } := by
  obtain ⟨hlt, hget⟩ := List.getElem?_eq_some_iff.1 hp
  have hinfo := h.units_infos _ _ (h.live p (mem_of_getElem? hp) hd)
  have htoHandle : c.toHandle = c.garbage := Core.toHandle_of_pc (by simp [hpc])
  constructor
  · exact h.nodup
  · exact h.lt_next
  · exact hlt
  · intro i q hq
    exact (h.kill_units hq).2.2
  · intro q hmem hdead
    exact h.kill_live hinfo hmem hdead
  · exact h.infos_id
  · exact h.infos
  · intro i q hq
    exact h.units_infos i q (h.kill_units hq).2.1
  · intro i q hq hdead
    have hgoal : i ∈ c.garbage ++ [c.id p] := by
      rcases kill_dead hdead with rfl | hdead
      · rw [(h.infos_id _ _ _ hq).1]
        exact mem_append_right _ (mem_singleton_self _)
      · exact mem_append_left _ (htoHandle ▸ h.pending i q hq hdead)
    rwa [Core.toHandle_of_pc (by simp [Core.kill, hpc])]
  · intro m i q _ hq hdead
    show q ∈ c.updates.take (c.iterator + 1)
    rw [take_add_one, hp]
    rcases kill_dead hdead with rfl | hdead
    · simp
    · exact mem_append_left _ (h.swept n i q hpc hq hdead)

theorem step {w : Option (α × ℤ)} {e : Event α} {c' : Core α} (h : Registry c) (hst : Core.Step c w e c') : Registry c' := by
  cases hst with
  | keep => exact h
  | seen => exact h
  | @record ai id p hpc hai hp =>
    refine h.setInfo_other hai fun q hq => ?_
    obtain ⟨hid, hmem, -⟩ := h.units id p hp
    rw [← some.inj hq]
    exact ⟨hid, h.lt_next p hmem⟩
  | register hpc hid => exact h.register hpc hid
  | destroyed hpc hp => exact h.remove (by simp [hpc]) hp
  | @update ai hpc =>
    refine h.control h.iterator_le (fun i p hp hd => ?_) (by simp)
    have hi : i ∈ c.garbage := by
      rw [← Core.toHandle_of_pc (c := c) (by simp [hpc])]
      exact h.pending i p hp hd
    simpa [Core.toHandle] using hi
  | @skip ai id rest hpc hid =>
    refine h.control h.iterator_le (fun i p hp hd => ?_) (by simp)
    have hi := h.pending i p hp hd
    simp only [Core.toHandle, hpc] at hi ⊢
    split at hi
    · next hai =>
      subst hai
      rw [if_pos rfl]
      rcases mem_cons.1 hi with rfl | hi
      · simp [hp] at hid
      · exact hi
    · next hai =>
      rw [if_neg hai]
      exact hi
  | @handle ai id rest p hpc hp =>
    have hrem := h.remove (by simp [hpc]) hp
    refine hrem.control hrem.iterator_le (fun i q hq hd => ?_) (by simp)
    have hi := hrem.pending i q hq hd
    rw [Core.toHandle_remove] at hi
    simp only [Core.toHandle, hpc, Core.remove_circuit, Core.remove_garbage] at hi ⊢
    split at hi
    · next hai =>
      subst hai
      rw [if_pos rfl]
      rcases mem_cons.1 hi with rfl | hi
      · rw [Core.remove_circuit, Core.remove_owner, Core.setInfo_infos, (h.infos_id _ _ _ hp).1] at hq
        simp at hq
      · exact hi
    · next hai =>
      rw [if_neg hai]
      exact hi
  | @done ai hpc =>
    refine h.control h.iterator_le (fun i p hp hd => ?_) (by simp)
    have hi := h.pending i p hp hd
    simp only [Core.toHandle, hpc] at hi ⊢
    split at hi
    · simp at hi
    · exact hi
  | @sweep n hpc hlt =>
    refine h.control h.iterator_le (fun i p hp hd => ?_) (fun m i p _ hp hd => ?_)
    · have hi := h.pending i p hp hd
      simp [Core.toHandle, hpc] at hi
    · have hi := h.pending i p hp hd
      simp [Core.toHandle, hpc] at hi
  | @beginPass n hpc hle =>
    refine h.control (Nat.zero_le _) (fun i p hp hd => ?_) (fun m i p _ hp hd => ?_)
    · have hi := h.pending i p hp hd
      simp [Core.toHandle, hpc] at hi
    · have hi := h.pending i p hp hd
      simp [Core.toHandle, hpc] at hi
  | delete hpc hp hd => exact h.delete hpc hp hd
  | garbage hpc hp hd => exact h.garbage hpc hp hd
  | @visit n m p hpc hp hd =>
    refine h.control (List.getElem?_eq_some_iff.1 hp).1 (fun i q hq hdead => ?_) (fun k i q _ hq hdead => ?_)
    · have hi := h.pending i q hq hdead
      simpa [Core.toHandle, hpc] using hi
    · exact (take_subset_take_left _ (Nat.le_succ _)) (h.swept n i q hpc hq hdead)
  | @endSweep n hpc =>
    refine h.control h.iterator_le (fun i p hp hd => ?_) (by simp)
    have hi := h.pending i p hp hd
    simpa [Core.toHandle, hpc] using hi

theorem new (circuit : α) : Registry (core (State.new circuit : State α ρ)) := by
  constructor <;> simp [core, State.new]

end Registry

theorem Run.registry {mod : ThrMod} {mark : ℤ} {ok : State α ρ → Input α ρ → Prop} {es : List (Event α)}
    {s : State α ρ} (h : Run mod mark ok es s) : Registry (core s) := by
  induction h with
  | new circuit => exact .new circuit
  | step _ _ hst ih => exact ih.step hst.core_step

end Circuit.Spec.EnemyRuns
