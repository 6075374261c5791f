import CircuitAI.Proof.Enemies.Registry

/-!
# The life of an enemy

Every registered enemy is in `enemyUpdates` once until it is deleted, and what is left of it in the other registries is
gone by then. A pass of the sweep comes to every live enemy: `History.visited` says of each one that the pass has
visited it or that it lies at or after the iterator, which the swap with the last entry keeps.
-/

namespace Circuit.Spec.EnemyRuns

open Impl.Enemies Framework List

variable {α ρ : Type*} [DecidableEq α] {c c' : Core α} {e : Event α} {es : List (Event α)}

def sincePass (es : List (Event α)) : List (Event α) := es.takeWhile (· ≠ .beginPass)

theorem sincePass_cons (he : e ≠ .beginPass) : sincePass (e :: es) = e :: sincePass es := by
  simp [sincePass, he]

structure History (c : Core α) (es : List (Event α)) : Prop where
  count : ∀ p, c.updates.count p + es.count (.delete p) = if p < c.next then 1 else 0
  visited : ∀ p ∈ c.updates, c.dead p = false → .visit p ∈ sincePass es ∨ p ∈ c.updates.drop c.iterator

namespace History

theorem keep (h : History c es) (hupdates : c'.updates = c.updates) (hnext : c'.next = c.next)
    (hiterator : c'.iterator = c.iterator) (hdead : ∀ p, c'.dead p = false → c.dead p = false)
    (hdelete : ∀ p, e ≠ .delete p) (hpass : e ≠ .beginPass) : History c' (e :: es) where
  count p := by
    rw [hupdates, hnext, count_cons_of_ne (hdelete p)]
    exact h.count p
  visited p hp hd := by
    rw [hupdates] at hp ⊢
    rw [hiterator, sincePass_cons hpass]
    rcases h.visited p hp (hdead p hd) with hv | hv
    · exact .inl (mem_cons_of_mem _ hv)
    · exact .inr hv

theorem register {id : ℤ} (hr : Registry c) (h : History c es) (hdelete : ∀ p, e ≠ .delete p) (hpass : e ≠ .beginPass) :
    History ((c.register id).setInfo c.circuit id (some c.next)) (e :: es) where
  count p := by
    show (c.updates ++ [c.next]).count p + _ = if p < c.next + 1 then 1 else 0
    have hcount := h.count p
    rw [count_append, count_cons_of_ne (hdelete p), count_singleton]
    by_cases hp : p = c.next
    · subst hp
      simp at hcount ⊢
      omega
    · have hlt : p < c.next + 1 ↔ p < c.next := by omega
      have hne : (c.next == p) = false := by simpa using Ne.symm hp
      simp only [hlt, hne]
      simpa using hcount
  visited p hp hd := by
    show _ ∨ p ∈ (c.updates ++ [c.next]).drop c.iterator
    rw [sincePass_cons hpass, drop_append_of_le_length hr.iterator_le]
    rcases mem_append.1 hp with hp | hp
    · have hlive : c.dead p = false := by
        rw [← hd]
        exact (Function.update_of_ne (Nat.ne_of_lt (hr.lt_next p hp)) _ _).symm
      rcases h.visited p hp hlive with hv | hv
      · exact .inl (mem_cons_of_mem _ hv)
      · exact .inr (mem_append_left _ hv)
    · exact .inr (mem_append_right _ hp)

theorem beginPass {n : ℕ} (h : History c es) :
    History { c with iterator := 0, garbage := [], pc := .sweep n } (.beginPass :: es) where
  count p := by
    rw [count_cons_of_ne (by simp)]
    exact h.count p
  visited p hp _ := .inr hp

theorem delete {p : ℕ} (h : History c es) (hp : c.updates[c.iterator]? = some p) (hd : c.dead p = true) :
    History { c with updates := swapRemove c.updates c.iterator 0 } (.delete p :: es) where
  count q := by
    have hcount := h.count q
    have hperm := (cons_swapRemove_perm hp 0).count_eq q
    show (swapRemove c.updates c.iterator 0).count q + _ = if q < c.next then 1 else 0
    by_cases hq : q = p
    · subst hq
      rw [count_cons_self] at hperm ⊢
      omega
    · rw [count_cons_of_ne (Ne.symm hq)] at hperm
      rw [count_cons_of_ne (by simpa using Ne.symm hq)]
      omega
  visited q hq hlive := by
    obtain ⟨hlt, hget⟩ := List.getElem?_eq_some_iff.1 hp
    have hqp : q ≠ p := by
      rintro rfl
      exact Bool.false_ne_true (hlive.symm.trans hd)
    have hmem : q ∈ c.updates := (cons_swapRemove_perm hp 0).subset (mem_cons_of_mem _ hq)
    rw [sincePass_cons (by simp)]
    rcases h.visited q hmem hlive with hv | hv
    · exact .inl (mem_cons_of_mem _ hv)
    · -- the entry was not the deleted one, so that it comes after the iterator, in whichever order
      rw [drop_eq_getElem_cons hlt, hget] at hv
      have hafter := (mem_cons.1 hv).resolve_left hqp
      exact .inr ((drop_swapRemove_perm hlt 0).symm.subset hafter)

theorem advance {p : ℕ} (h : History c es) (hp : c.updates[c.iterator]? = some p) (hupdates : c'.updates = c.updates)
    (hnext : c'.next = c.next) (hiterator : c'.iterator = c.iterator + 1)
    (hdead : ∀ q, c'.dead q = false → c.dead q = false) (hdelete : ∀ q, e ≠ .delete q) (hpass : e ≠ .beginPass)
    (hhere : c'.dead p = false → e = .visit p) : History c' (e :: es) where
  count q := by
    rw [hupdates, hnext, count_cons_of_ne (hdelete q)]
    exact h.count q
  visited q hq hlive := by
    obtain ⟨hlt, hget⟩ := List.getElem?_eq_some_iff.1 hp
    rw [hupdates] at hq ⊢
    rw [hiterator, sincePass_cons hpass]
    rcases h.visited q hq (hdead q hlive) with hv | hv
    · exact .inl (mem_cons_of_mem _ hv)
    · rw [drop_eq_getElem_cons hlt, hget] at hv
      rcases mem_cons.1 hv with rfl | hv
      · rw [hhere hlive]
        exact .inl mem_cons_self
      · exact .inr hv

theorem step {w : Option (α × ℤ)} (hr : Registry c) (h : History c es) (hst : Core.Step c w e c') : History c' (e :: es) := by
  cases hst with
  | keep | seen | record | update | skip | done | sweep | endSweep =>
    exact h.keep rfl rfl rfl (fun _ => id) (by simp) (by simp)
  | register hpc hid he =>
    rcases he with rfl | rfl
    · exact h.register hr (by simp) (by simp)
    · exact h.register hr (by simp) (by simp)
  | destroyed | handle =>
    exact h.keep Core.remove_updates Core.remove_next Core.remove_iterator (fun _ => Core.live_of_remove_live)
      (by simp) (by simp)
  | beginPass => exact h.beginPass
  | delete hpc hp hd => exact h.delete hp hd
  | garbage hpc hp hd =>
    refine h.advance hp rfl rfl rfl (fun _ hq => (Core.ne_of_kill_live hq).2) (by simp) (by simp) fun hlive => ?_
    exact absurd rfl (Core.ne_of_kill_live hlive).1
  | visit hpc hp hd => exact h.advance hp rfl rfl rfl (fun _ => id) (by simp) (by simp) fun _ => rfl

theorem new (circuit : α) : History (core (State.new circuit : State α ρ)) [] := by
  constructor <;> simp [core, State.new]

end History

theorem Run.history {mod : ThrMod} {mark : ℤ} {ok : State α ρ → Input α ρ → Prop} {s : State α ρ}
    (h : Run mod mark ok es s) : History (core s) es := by
  induction h with
  | new circuit => exact .new circuit
  | step h _ hst ih => exact ih.step h.registry hst.core_step

/-- Every registered enemy is listed once until it is deleted, which happens once at most and when no unit and no record
of the owner is left of it; the live ones are the units; and each that is live at the end of a pass was visited in it. -/
theorem enemy_lifecycle {mod : ThrMod} {mark : ℤ} {ok : State α ρ → Input α ρ → Prop} {s : State α ρ}
    (h : Run mod mark ok es s) : (∀ p, s.enemyUpdates.count p + es.count (.delete p) = if p < s.next then 1 else 0) ∧
    (∀ p, p ∈ s.enemyUpdates ∧ (s.heap p).isDead = false ↔ ∃ id, s.enemyUnits id = some p) ∧
    ∀ i e t, Step mod mark s i e t →
      (∀ p, e = .delete p → ∀ id, s.enemyUnits id ≠ some p ∧ s.enemyInfos s.circuit id ≠ some p) ∧
      (e = .beginPass → ∀ p ∈ s.enemyUpdates, (s.heap p).isDead = false → .visit p ∈ sincePass es) := by
  have hr := h.registry
  refine ⟨h.history.count, fun p => ⟨fun hp => ?_, fun hp => ?_⟩, fun i e t hst => ?_⟩
  · exact ⟨_, hr.live p hp.1 hp.2⟩
  · obtain ⟨id, hp⟩ := hp
    exact (hr.units id p hp).2
  · have hcore := hst.core_step
    generalize core t = c' at hcore
    generalize i.entering = w at hcore
    constructor
    · rintro p rfl id
      cases hcore with
      | delete hpc hp hd =>
        refine ⟨fun hunit => ?_, hr.not_infos_of_delete hpc hp hd id⟩
        exact Bool.false_ne_true ((hr.units id p hunit).2.2.symm.trans hd)
      | register hpc hid he => simp at he
    · rintro rfl p hp hd
      cases hcore with
      | beginPass hpc hle =>
        have hv := h.history.visited p hp hd
        rw [drop_eq_nil_of_le hle] at hv
        simpa using hv
      | register hpc hid he => simp at he

/-- Two enemies are seen and the first one is destroyed. The sweep deletes it, so that the other one takes its place, and
visits that one before the next pass begins. -/
theorem enemy_lifecycle_pass : ∃ (es : List (Event Unit)) (s : State Unit Unit),
    Run unitThrMod 0 (fun _ _ => True) es s ∧ s.next = 2 ∧ s.enemyUpdates = [1] ∧ es.count (.delete 0) = 1 ∧
      (∃ id, s.enemyUnits id = some 1) ∧ .visit 1 ∈ sincePass es := by
  have h0 : Run unitThrMod 0 (fun _ _ => True) [] (State.new () : State Unit Unit) := .new ()
  have h1 := h0.step (i := .enterLOS () 7 (seeing (scout true))) trivial (.enterLOS rfl)
  have h2 := h1.step (i := .enterLOS () 8 (seeing (scout true))) trivial (.enterLOS rfl)
  have h3 := h2.step (i := .destroyed () 7) trivial (.destroyed rfl)
  have h4 := h3.step (i := .update () 5) trivial (.update rfl)
  have h5 := h4.step (i := .team true (fun _ => false) fun _ => 0) trivial (.team rfl)
  have h6 := h5.step (i := .sweep false false) trivial (.delete rfl rfl rfl)
  have h7 := h6.step (i := .sweep false false) trivial (.visit rfl rfl rfl rfl)
  have h8 := h7.step (i := .sweep false false) trivial (.endSweep rfl (.inl rfl))
  have h9 := h8.step (i := .update () 6) trivial (.update rfl)
  obtain ⟨hcount, hunits, hstep⟩ := enemy_lifecycle h9
  have hteam := hstep (.team true (fun _ => false) fun _ => 0) _ _ (.team rfl)
  exact ⟨_, _, h9, rfl, rfl, hcount 0, (hunits 1).1 ⟨mem_singleton_self 1, rfl⟩,
    hteam.2 rfl 1 (mem_singleton_self 1) rfl⟩

end Circuit.Spec.EnemyRuns
