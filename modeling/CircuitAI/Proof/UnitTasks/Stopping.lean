import CircuitAI.Proof.UnitTasks.Moves

/-!
# Stopping a task

`DequeueTask` takes the task off the lists and marks it dead, which the invariant survives but for the repairers that
are on a stopped repair task; `IRepairTask::Cancel` cuts those links. Between the two and the release of the units the
task is dead and has assignees, so a frame for the whole of `DequeueTask` is put together at its end (`Frame.of_kill`).
-/

namespace Circuit.Spec.TaskRuns

open Framework Impl.UnitTasks Function State Option

variable {U ρ : Type} [DecidableEq U] {g : Game U ρ} {s s' : State U ρ} {t : ℕ} {u : U} {k : ℕ}

abbrev killed (s : State U ρ) (t : ℕ) : State U ρ := (s.unlist t).dead t

theorem isDead_killed (k : ℕ) : (killed s t).isDead k = if k = t then true else s.isDead k :=
  update_apply ..

theorem isListed_killed (k : ℕ) : (killed s t).isListed k = if k = t then false else s.isListed k :=
  update_apply ..

theorem live_of_killed (h : (killed s t).isDead k = false) : k ≠ t ∧ s.isDead k = false := by
  rw [isDead_killed] at h
  split_ifs at h with hk
  exact ⟨hk, h⟩

theorem eraseKey_eq_some {f : U → Option ℕ} {o : Option U} (h : eraseKey f o u = some k) :
    f u = some k ∧ o ≠ some u := by
  cases o with
  | none => exact ⟨h, some_ne_none u |>.symm⟩
  | some v =>
    rw [eraseKey, update_apply] at h
    split_ifs at h with huv
    exact ⟨h, fun hv => huv (some.inj hv).symm⟩

theorem listed_of_unlist {f : U → Option ℕ} {p : Prop} [Decidable p] {q : ℕ → Prop} {v : U} {k : ℕ}
    (h : ∀ k, f v = some k → s.isListed k = true ∧ q k ∧ s.target k = some v) (hq : q t → p)
    (hk : (if s.isListed t = true ∧ p then eraseKey f (s.target t) else f) v = some k) :
    (killed s t).isListed k = true ∧ q k ∧ s.target k = some v := by
  have hk' : f v = some k ∧ k ≠ t := by
    split_ifs at hk with hc
    · obtain ⟨hf, hne⟩ := eraseKey_eq_some hk
      exact ⟨hf, fun hkt => hne (hkt ▸ (h k hf).2.2)⟩
    · exact ⟨hk, fun hkt => hc (hkt ▸ ⟨(h k hk).1, hq (hkt ▸ (h k hk).2.1)⟩)⟩
  rw [isListed_killed, if_neg hk'.2]
  exact h k hk'.1

theorem Lists.kill (h : Lists s) (hs : Shape s) (hidle : s.isLateFallback = false → s.kind t ≠ .idle) :
    Lists (killed s t) := by
  have hlisted : ∀ k, (killed s t).isListed k = true → s.isListed k = true ∧ k ≠ t := by
    intro k hk
    rw [isListed_killed] at hk
    split_ifs at hk with hkt
    exact ⟨hk, hkt⟩
  constructor
  · intro k hk
    obtain ⟨hk', hkt⟩ := hlisted k hk
    obtain ⟨hlt, hd, hb⟩ := h.listed k hk'
    exact ⟨hlt, by rw [isDead_killed, if_neg hkt, hd], hb⟩
  · intro k hlt hb hd
    obtain ⟨hkt, hd'⟩ := live_of_killed hd
    rw [isListed_killed, if_neg hkt, h.buildDef k hlt hb hd']
  · exact h.target
  · exact fun v k => listed_of_unlist (h.repaired v) id
  · exact fun v k => listed_of_unlist (h.reclaimed v) id
  · intro v k hk
    obtain ⟨hl, ⟨hk₁, hk₂⟩, htg⟩ := listed_of_unlist (q := fun k => s.kind k ≠ .builder .repair ∧ s.kind k ≠ .builder .reclaim)
      (fun k hk => let ⟨hl, hk₁, hk₂, htg⟩ := h.unfinished v k hk; ⟨hl, ⟨hk₁, hk₂⟩, htg⟩) id hk
    exact ⟨hl, hk₁, hk₂, htg⟩
  · intro hl
    rw [isDead_killed, if_neg (hs.ne_idle (hidle hl) _).symm]
    exact h.idle hl
  · exact h.queued

theorem Wf.kill (h : Wf g s) (hidle : s.isLateFallback = false → s.kind t ≠ .idle) : Wf g (killed s t) where
  shape := { h.shape with }
  assigned := { h.assigned with }
  lists := h.lists.kill h.shape hidle
  books :=
    { balanced := fun k hd => h.books.balanced k (live_of_killed hd).2
      traveled := fun k bt hk hd => h.books.traveled k bt hk (live_of_killed hd).2 }

theorem Linked.kill (h : k ≠ t → Linked s k) (ht : s.kind t ≠ .builder .repair) : Linked (killed s t) k where
  query hk hd := (h (live_of_killed hd).1).query hk (live_of_killed hd).2
  repairer hk hd r hr := by
    obtain ⟨hkt, hd'⟩ := live_of_killed hd
    obtain ⟨v, hv, R, hrR, hRd, hRk, hRt⟩ := (h hkt).repairer hk hd' r hr
    refine ⟨v, hv, R, hrR, ?_, hRk, hRt⟩
    have hne : R ≠ t := fun hRt' => ht (hRt' ▸ hRk)
    rw [isDead_killed, if_neg hne, hRd]

/-! ## Cutting links -/

theorem State.clearRepairer_eq (s : State U ρ) (t : ℕ) : ∃ f, s.clearRepairer t = { s with repairer := f } ∧
    (∀ k, f k = s.repairer k ∨ f k = none) ∧
    ∀ k v r, s.target t = some v → s.task v = some k → s.kind k = .retreat → s.repairer k = some r → r ∈ s.units t →
      f k = none := by
  unfold clearRepairer
  split
  · rename_i hnone
    refine ⟨s.repairer, rfl, fun k => .inl rfl, fun k v r hv hk hkind => ?_⟩
    rw [hv, bind_some, retreatOf, hk, filter_some, if_pos (by simpa using hkind)] at hnone
    cases hnone
  · rename_i k' hsome
    split_ifs with hany
    · refine ⟨update s.repairer k' none, rfl, fun k => ?_, fun k v r hv hk hkind _ _ => ?_⟩
      · rw [update_apply]
        split_ifs
        · exact .inr rfl
        · exact .inl rfl
      · rw [hv, bind_some, retreatOf, hk, filter_some, if_pos (by simpa using hkind)] at hsome
        rw [some.inj hsome, update_self]
    · refine ⟨s.repairer, rfl, fun k => .inl rfl, fun k v r hv hk hkind hr hmem => ?_⟩
      rw [hv, bind_some, retreatOf, hk, filter_some, if_pos (by simpa using hkind)] at hsome
      rw [← some.inj hsome, hr] at hany
      simp [hmem] at hany

theorem Linked.clear (ha : Assigned s) (h : ∀ k, Linked s k) : Linked ((killed s t).clearRepairer t) k := by
  obtain ⟨f, hf, hsub, hcut⟩ := State.clearRepairer_eq (killed s t) t
  rw [hf]
  constructor
  · intro hk hd
    exact (h k).query hk (live_of_killed hd).2
  · intro hk hd r hr
    change f k = some r at hr
    obtain ⟨hkt, hd'⟩ := live_of_killed hd
    have hr' : s.repairer k = some r := by
      rcases hsub k with hk' | hk'
      · exact hk'.symm.trans hr
      · rw [hr] at hk'
        cases hk'
    obtain ⟨v, hv, R, hrR, hRd, hRk, hRt⟩ := (h k).repairer hk hd' r hr'
    refine ⟨v, hv, R, hrR, ?_, hRk, hRt⟩
    change (killed s t).isDead R = false
    rw [isDead_killed]
    split_ifs with hRt'
    · subst hRt'
      have hvk : s.task v = some k := ha.pointer k v (by rw [hv]; exact Finset.mem_singleton_self v)
      rw [hcut k v r hRt hvk hk hr' hrR] at hr
      cases hr
    · exact hRd

theorem wf_clearRepairer (h : Wf g s) : Wf g (s.clearRepairer t) := by
  obtain ⟨f, hf, -⟩ := State.clearRepairer_eq s t
  rw [hf]
  exact ⟨{ h.shape with }, { h.assigned with }, { h.lists with }, { h.books with }⟩

theorem frame_clearRepairer : Frame g s (s.clearRepairer t) := by
  obtain ⟨f, hf, -⟩ := State.clearRepairer_eq s t
  rw [hf]
  exact { Frame.refl g s with }

/-! ## Frames of `DequeueTask` -/

theorem Core.of_kill (h : Core g (killed s t) s') (ht : s'.units t = ∅) : Core g s s' where
  next := h.next
  tasks := h.tasks
  dead k hk hd := h.dead k hk (by rw [isDead_killed, hd, ite_self])
  workers := h.workers
  team := h.team
  lateFallback := h.lateFallback
  lateAbort := h.lateAbort
  settled k hk hd hne := by
    obtain ⟨hk', hd', hne'⟩ := h.settled k hk hd hne
    refine ⟨hk', ?_, hne'⟩
    rw [isDead_killed] at hd'
    split_ifs at hd' with hkt
    · exact absurd (hkt ▸ ht) hne
    · exact hd'
  pull := h.pull
  free := h.free

theorem Frame.of_kill (h : Frame g (killed s t) s') (ht : s'.units t = ∅) : Frame g s s' where
  toCore := h.toCore.of_kill ht
  power := h.power
  role := h.role

end Circuit.Spec.TaskRuns
