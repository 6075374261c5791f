import CircuitAI.Spec.Shutdown
import Mathlib.Data.List.Nodup

/-!
# Tasks that are neither lost nor run twice

`removeAllIf_perm`: the removal that fills a gap with the last item keeps exactly the other items. `Ledger` ties the
counter of instances to the schedulers that run, so that a queue is only cleared when there is none (`Ledger.idle`).
With both, every step keeps the balance of the tasks of a running scheduler (`Step.tally`).
-/

set_option linter.unusedSectionVars false

namespace Circuit.Impl.Scheduler

open Function List

/-! ## Removal from a queue -/

theorem removeLoop_perm {β : Type*} (condition : β → Bool) {fuel : ℕ} {kept rest : List β} (h : rest.length ≤ fuel) :
    (removeLoop condition fuel kept rest).Perm (kept ++ rest.filter fun x => !condition x) := by
  induction fuel generalizing kept rest with
  | zero =>
    obtain rfl : rest = [] := length_eq_zero_iff.1 (by omega)
    simp [removeLoop]
  | succ fuel ih =>
    cases rest with
    | nil => simp [removeLoop]
    | cons item rest =>
      rw [length_cons] at h
      rw [removeLoop]
      split
      · rename_i hc
        rw [filter_cons_of_neg (by simp [hc])]
        split
        · rename_i back hback
          -- the items after the iterator are the same, in another order
          have hperm : (back :: rest.dropLast).Perm rest := by
            obtain ⟨ys, rfl⟩ := getLast?_eq_some_iff.1 hback
            rw [dropLast_concat]
            exact (perm_append_singleton back ys).symm
          have hlen : (back :: rest.dropLast).length ≤ fuel := by
            rw [hperm.length_eq]
            omega
          exact (ih hlen).trans ((hperm.filter _).append_left kept)
        · rename_i hnone
          rw [getLast?_eq_none_iff.1 hnone]
          simp
      · rename_i hc
        rw [filter_cons_of_pos (by simp [hc])]
        refine (ih (by omega)).trans ?_
        simp

theorem removeAllIf_perm {β : Type*} (condition : β → Bool) (queue : List β) :
    (removeAllIf condition queue).Perm (queue.filter fun x => !condition x) := removeLoop_perm condition (Nat.le_refl _)

variable {σ T : Type*} [DecidableEq σ]

theorem count_removeAllIf [DecidableEq T] {S : σ} {i : Item σ T} (h : i.owner ≠ S) (queue : List (Item σ T)) :
    (removeAllIf (fun j => decide (j.owner = S)) queue).count i = queue.count i := by
  rw [(removeAllIf_perm _ queue).count_eq, count_filter]
  simp [h]

/-! ## The schedulers that run -/

def Main.releasing : Main σ T → Option σ
  | .idle | .push _ _ => none
  | .remove S _ | .shutdown S | .wake S _ _ | .join S _ | .clearQueue S _ | .wait S
  | .clearComplete S _ => some S

def Main.stopping : Main σ T → Bool
  | .wake _ _ _ | .join _ _ | .clearQueue _ _ => true
  | _ => false

structure Ledger (s : State σ T) : Prop where
  nodup : s.schedulers.Nodup
  known : ∀ S, s.isRunning S = true → S ∈ s.schedulers
  counter : s.counterInstance = s.schedulers.countP s.isRunning
  releasing : ∀ S, s.main.releasing = some S → S ∈ s.schedulers ∧ s.isRunning S = false
  stopping : s.main.stopping = true → s.counterInstance = 0

theorem Ledger.idle {s : State σ T} (h : Ledger s) (hstop : s.main.stopping = true) (S : σ) : s.isRunning S = false := by
  have hzero := h.counter.symm.trans (h.stopping hstop)
  by_contra hrun
  have hrun : s.isRunning S = true := by simpa using hrun
  exact absurd hrun (countP_eq_zero.1 hzero S (h.known S hrun))

variable {s t : State σ T} {n : ℕ} {e : Event σ T}

theorem Ledger.construct (h : Ledger s) (hm : s.main = .idle) {S : σ} (hS : S ∉ s.schedulers) :
    Ledger (s.construct S) where
  nodup := nodup_cons.2 ⟨hS, h.nodup⟩
  known R hR := by
    by_cases hRS : R = S
    · exact hRS ▸ mem_cons_self
    · exact mem_cons_of_mem S (h.known R (by simpa [State.construct, hRS] using hR))
  counter := by
    have hsame : s.schedulers.countP (update s.isRunning S true) = s.schedulers.countP s.isRunning := by
      refine countP_congr fun R hR => ?_
      have hne : R ≠ S := fun heq => hS (heq ▸ hR)
      simp [hne]
    show s.counterInstance + 1 = (S :: s.schedulers).countP (update s.isRunning S true)
    rw [countP_cons, hsame, h.counter]
    simp
  releasing R hR := by simp [State.construct, hm, Main.releasing] at hR
  stopping hstop := by simp [State.construct, hm, Main.stopping] at hstop

theorem Ledger.release (h : Ledger s) {S : σ} (hS : s.isRunning S = true) : Ledger { s with
      isRunning := update s.isRunning S false
      counterInstance := s.counterInstance - 1
      main := .remove S .work } where
  nodup := h.nodup
  known R hR := by
    by_cases hRS : R = S
    · exact hRS ▸ h.known S hS
    · exact h.known R (by simpa [hRS] using hR)
  counter := by
    have hmem := h.known S hS
    have hsame : (s.schedulers.erase S).countP (update s.isRunning S false) =
        (s.schedulers.erase S).countP s.isRunning := by
      refine countP_congr fun R hR => ?_
      have hne : R ≠ S := (h.nodup.mem_erase_iff.1 hR).1
      simp [hne]
    have hcount := h.counter
    rw [(perm_cons_erase hmem).countP_eq, countP_cons, if_pos hS] at hcount
    show s.counterInstance - 1 = s.schedulers.countP (update s.isRunning S false)
    rw [(perm_cons_erase hmem).countP_eq, countP_cons, hsame]
    simp
    omega
  releasing R hR := by
    obtain rfl : S = R := by simpa [Main.releasing] using hR
    exact ⟨h.known S hS, update_self ..⟩
  stopping hstop := by simp [Main.stopping] at hstop

theorem Ledger.move (h : Ledger s) (hl : t.schedulers = s.schedulers) (hr : t.isRunning = s.isRunning)
    (hc : t.counterInstance = s.counterInstance) (hrel : t.main.releasing = none ∨ t.main.releasing = s.main.releasing)
    (hstop : t.main.stopping = true → s.counterInstance = 0) : Ledger t where
  nodup := hl ▸ h.nodup
  known S hS := by
    rw [hr] at hS
    rw [hl]
    exact h.known S hS
  counter := by rw [hl, hr, hc, h.counter]
  releasing S hS := by
    rw [hl, hr]
    rcases hrel with hnone | hsame
    · simp [hnone] at hS
    · exact h.releasing S (hsame ▸ hS)
  stopping ht := by
    rw [hc]
    exact hstop ht

theorem MainStep.ledger (h : Ledger s) (hst : MainStep n s e t) : Ledger t := by
  have hdown (hstop : s.main.stopping = true) := h.stopping hstop
  cases hst with
  | construct hm hS => exact h.construct hm hS
  | release hm hS => exact h.release hS
  | runTask hm hi ht =>
    have hsame : (s.startThreads n).schedulers = s.schedulers ∧ (s.startThreads n).isRunning = s.isRunning ∧
        (s.startThreads n).counterInstance = s.counterInstance := by
      unfold State.startThreads
      split <;> exact ⟨rfl, rfl, rfl⟩
    exact h.move hsame.1 hsame.2.1 hsame.2.2 (.inl rfl) nofun
  | push hm | clearPathed hm => exact h.move rfl rfl rfl (.inl rfl) nofun
  | popAndProcess hm _ | popAndProcessAll hm =>
    exact h.move rfl rfl rfl (.inr rfl) (by simp [State.setComplete, State.setLane, hm, Main.stopping])
  | released hm _ _ => exact h
  | @remove S k hm => cases k <;> exact h.move rfl rfl rfl (.inr (by rw [hm]; rfl)) nofun
  | shutdown hm hc => exact h.move rfl rfl rfl (.inr (by rw [hm]; rfl)) fun _ => hc.1
  | noShutdown hm _ | wait hm _ | clearFinish hm => exact h.move rfl rfl rfl (.inr (by rw [hm]; rfl)) nofun
  | wake hm | woken hm | join hm _ => exact h.move rfl rfl rfl (.inr (by rw [hm]; rfl)) fun _ => hdown (by rw [hm]; rfl)
  | @clearQueue S k hm =>
    cases k <;> exact h.move rfl rfl rfl (.inr (by rw [hm]; rfl)) fun _ => hdown (by rw [hm]; rfl)

theorem Step.ledger (h : Ledger s) (hst : Step n s e t) : Ledger t := by
  cases hst with
  | main hst => exact hst.ledger h
  | thread _ _ => exact h.move rfl rfl rfl (.inr rfl) h.stopping

/-! ## Whose tasks there are -/

def Pc.item : Pc σ T → Option (Item σ T)
  | .popped i | .marked i | .running i | .finished i => some i
  | _ => none

structure Owned (s : State σ T) : Prop where
  queue : ∀ k, ∀ i ∈ (s.lane k).queue, i.owner ∈ s.schedulers
  thread : ∀ k, ∀ p ∈ (s.lane k).threads, ∀ i, p.item = some i → i.owner ∈ s.schedulers
  push : ∀ k i, s.main = .push k i → i.owner ∈ s.schedulers

theorem Owned.setLane (h : Owned s) (k : Kind) {lane : Lane σ T} {m : Main σ T}
    (hq : ∀ i ∈ lane.queue, i.owner ∈ s.schedulers)
    (ht : ∀ p ∈ lane.threads, ∀ i, p.item = some i → i.owner ∈ s.schedulers)
    (hm : ∀ k i, m = .push k i → i.owner ∈ s.schedulers) : Owned { s.setLane k lane with main := m } := by
  refine ⟨fun k' => ?_, fun k' => ?_, hm⟩ <;> by_cases hk : k' = k
  · subst hk
    simpa [State.setLane] using hq
  · simpa [State.setLane, hk] using h.queue k'
  · subst hk
    simpa [State.setLane] using ht
  · simpa [State.setLane, hk] using h.thread k'

theorem Thread.owned {k : Kind} {p p' : Pc σ T} {lane : Lane σ T} (h : Thread s k p e p' lane) :
    (∀ i ∈ lane.queue, i ∈ (s.lane k).queue) ∧ ∀ i, p'.item = some i → p.item = some i ∨ i ∈ (s.lane k).queue := by
  cases h with
  | loop =>
    refine ⟨fun _ hi => hi, fun i hi => ?_⟩
    split at hi <;> simp [Pc.item] at hi
  | pop hq =>
    refine ⟨fun i hi => hq ▸ mem_cons_of_mem _ hi, fun i hi => .inr ?_⟩
    simp only [Pc.item, Option.some.injEq] at hi
    simp [hq, hi]
  | @finish j =>
    refine ⟨fun _ hi => hi, fun i hi => .inl ?_⟩
    split at hi
    · exact hi
    · simp [Pc.item] at hi
  | mark _ | start _ => exact ⟨fun _ hi => hi, fun _ hi => .inl hi⟩
  | _ => exact ⟨fun _ hi => hi, nofun⟩

theorem MainStep.owned (hl : Ledger s) (h : Owned s) (hst : MainStep n s e t) : Owned t := by
  cases hst with
  | @construct S hm hS =>
    have hmem {i : Item σ T} (hi : i.owner ∈ s.schedulers) := mem_cons_of_mem S hi
    exact ⟨fun k i hi => hmem (h.queue k i hi), fun k p hp i hi => hmem (h.thread k p hp i hi),
      fun k i hm => hmem (h.push k i hm)⟩
  | @runTask k j hm hj ht =>
    unfold State.startThreads
    split
    · refine ⟨h.queue, h.thread, ?_⟩
      rintro _ _ ⟨⟩
      exact hj
    · refine ⟨h.queue, fun k' p hp i hi => ?_, ?_⟩
      · rcases mem_append.1 hp with hp | hp
        · exact h.thread k' p hp i hi
        · rw [eq_of_mem_replicate hp] at hi
          exact absurd hi (by simp [Pc.item])
      · rintro _ _ ⟨⟩
        exact hj
  | @push k j hm =>
    refine h.setLane k (fun i hi => ?_) (h.thread k) nofun
    rcases mem_append.1 hi with hi | hi
    · exact h.queue k i hi
    · rw [mem_singleton.1 hi]
      exact h.push k j hm
  | popAndProcess hm _ => exact h.setLane .work (m := s.main) (h.queue _) (h.thread _) h.push
  | popAndProcessAll hm => exact h.setLane .path (m := s.main) (h.queue _) (h.thread _) h.push
  | released hm _ _ => exact h
  | release hm _ | shutdown hm _ | noShutdown hm _ | woken hm | wait hm _ => exact ⟨h.queue, h.thread, nofun⟩
  | @remove S k hm =>
    refine h.setLane k (fun i hi => ?_) (h.thread k) (by cases k <;> nofun)
    exact h.queue k i (mem_filter.1 ((removeAllIf_perm _ _).mem_iff.1 hi)).1
  | @wake S k m hm =>
    refine h.setLane k (fun i hi => ?_) (h.thread k) nofun
    rcases mem_append.1 hi with hi | hi
    · exact h.queue k i hi
    · rw [mem_singleton.1 hi]
      exact (hl.releasing S (by rw [hm]; rfl)).1
  | @join S k hm hexit => exact h.setLane k (h.queue k) (by simp) nofun
  | @clearQueue S k hm => exact h.setLane k (by simp) (h.thread k) (by cases k <;> nofun)
  | clearFinish hm => exact h.setLane .work (h.queue _) (h.thread _) nofun
  | clearPathed hm => exact h.setLane .path (h.queue _) (h.thread _) nofun

theorem Step.owned (hl : Ledger s) (h : Owned s) (hst : Step n s e t) : Owned t := by
  cases hst with
  | main hst => exact hst.owned hl h
  | @thread k p p' l₁ l₂ _ lane hp hst =>
    obtain ⟨hq, hitem⟩ := hst.owned
    have hthread (q : Pc σ T) (hmem : q ∈ l₁ ++ p :: l₂) := h.thread k q (hp ▸ hmem)
    refine h.setLane k (m := s.main) (fun i hi => h.queue k i (hq i hi)) (fun q hmem i hi => ?_) h.push
    rw [mem_append, mem_cons] at hmem
    rcases hmem with hmem | rfl | hmem
    · exact hthread q (by simp [hmem]) i hi
    · rcases hitem i hi with hi | hi
      · exact hthread p (by simp) i hi
      · exact h.queue k i hi
    · exact hthread q (by simp [hmem]) i hi

def Event.item : Event σ T → Option (Item σ T)
  | .queue _ i | .start _ i | .append _ i | .expire _ i => some i
  | _ => none

theorem Step.event_owned (h : Owned s) (hst : Step n s e t) {i : Item σ T} (hi : e.item = some i) :
    i.owner ∈ s.schedulers := by
  cases hst with
  | main hst =>
    cases hst with
    | @push k j hm =>
      obtain rfl : j = i := by simpa [Event.item] using hi
      exact h.push k j hm
    | _ => simp [Event.item] at hi
  | @thread k p p' l₁ l₂ e lane hp hst =>
    have hthread := h.thread k p (by simp [hp]) i
    cases hst with
    | expire _ | start _ | complete => exact hthread hi
    | _ => simp [Event.item] at hi

theorem Step.running_of (hst : Step n s e t) {S : σ} (hS : t.isRunning S = true) :
    s.isRunning S = true ∨ S ∉ s.schedulers ∧ e = .tau := by
  cases hst with
  | thread _ _ => exact .inl hS
  | main hst =>
    cases hst with
    | @construct R hm hR =>
      by_cases hRS : S = R
      · exact .inr ⟨hRS ▸ hR, rfl⟩
      · exact .inl (by simpa [State.construct, hRS] using hS)
    | @release R hm hR =>
      by_cases hRS : S = R
      · exact .inl (hRS ▸ hR)
      · exact .inl (by simpa [hRS] using hS)
    | runTask _ _ _ =>
      refine .inl ?_
      unfold State.startThreads at hS
      split at hS <;> exact hS
    | _ => exact .inl hS

theorem Step.schedulers_subset (hst : Step n s e t) {S : σ} (hS : S ∈ s.schedulers) : S ∈ t.schedulers := by
  cases hst with
  | thread _ _ => exact hS
  | main hst =>
    cases hst with
    | construct _ _ => exact mem_cons_of_mem _ hS
    | runTask _ _ _ =>
      unfold State.startThreads
      split <;> exact hS
    | _ => exact hS

/-! ## The balance of a task -/

variable [DecidableEq T] {i : Item σ T} {k : Kind}

open Spec.Shutdown

def pending (s : State σ T) (k : Kind) (i : Item σ T) : ℕ :=
  (s.lane k).queue.count i + (s.lane k).threads.countP (holds i)

def taken (k : Kind) (i : Item σ T) (e : Event σ T) : ℕ := if e = .start k i ∨ e = .expire k i then 1 else 0

theorem pending_setLane (s : State σ T) (k k' : Kind) (lane : Lane σ T) (i : Item σ T) :
    pending (s.setLane k' lane) k i =
      if k = k' then lane.queue.count i + lane.threads.countP (holds i) else pending s k i := by
  unfold pending State.setLane
  by_cases hk : k = k'
  · subst hk
    simp
  · simp [hk]

theorem toNat_eq_ite (b : Bool) : b.toNat = if b = true then 1 else 0 := by cases b <;> rfl

theorem Thread.tally {k₀ : Kind} {p p' : Pc σ T} {lane : Lane σ T} (h : Thread s k₀ p e p' lane)
    (hrun : s.isRunning i.owner = true) (k : Kind) :
    (if k = k₀ then lane.queue.count i + (holds i p').toNat else 0) + taken k i e =
      (if k = k₀ then (s.lane k₀).queue.count i + (holds i p).toNat else 0) + if e = .queue k i then 1 else 0 := by
  unfold taken
  have hother {j : Item σ T} (hj : s.isRunning j.owner = false) : j ≠ i := by
    rintro rfl
    exact absurd (hj.symm.trans hrun) (by decide)
  by_cases hk : k = k₀
  · subst hk
    cases h with
    | loop => by_cases hw : s.workerRunning = true <;> simp [holds, hw]
    | pop hq => simp [holds, hq, count_cons, toNat_eq_ite]
    | expire hk | start _ => simp [holds, toNat_eq_ite]
    | unlocked hj | skip hj => simp [holds, hother hj]
    | mark _ | complete | unmark => simp [holds]
    | @finish j => by_cases hc : j.onComplete = true <;> simp [holds, hc]
  · cases h <;> simp [hk, Ne.symm hk]

theorem MainStep.tally (h : Ledger s) (hst : MainStep n s e t) (hrun : t.isRunning i.owner = true) (k : Kind) :
    pending t k i + taken k i e = pending s k i + if e = .queue k i then 1 else 0 := by
  have hreleased {S : σ} (hm : s.main.releasing = some S) (hr : s.isRunning i.owner = true) : i.owner ≠ S := by
    intro heq
    exact absurd ((heq ▸ hr).symm.trans (h.releasing S hm).2) (by decide)
  cases hst with
  | construct hm hS | release hm hS | shutdown hm hc | noShutdown hm _ | woken hm | wait hm _ => rfl
  | @runTask k' j hm hi ht =>
    have hsame : pending (s.startThreads n) k i = pending s k i := by
      unfold State.startThreads
      split
      · rfl
      · simp [pending, countP_replicate, holds]
    exact hsame
  | @push k' j hm =>
    show pending (s.pushQueue k' j) k i + _ = _
    rw [State.pushQueue, pending_setLane]
    unfold pending taken
    by_cases hk : k = k'
    · subst hk
      by_cases hj : j = i
      · subst hj
        simp
        omega
      · simp [hj]
    · simp [hk, Ne.symm hk]
  | @popAndProcess S j q hm _ | @popAndProcessAll S hm =>
    rw [State.setComplete, pending_setLane]
    split <;> simp [taken, pending, *]
  | released hm _ _ => simp [taken]
  | @remove S k' hm =>
    have hne : i.owner ≠ S := hreleased (by rw [hm]; rfl) hrun
    show pending (s.setLane k' _) k i + 0 = pending s k i + 0
    rw [pending_setLane]
    split
    · subst k'
      rw [count_removeAllIf hne]
      rfl
    · rfl
  | @wake S k' m hm =>
    have hne : i.owner ≠ S := hreleased (by rw [hm]; rfl) hrun
    have hempty : (⟨S, none, false⟩ : Item σ T) ≠ i := by
      rintro rfl
      exact hne rfl
    show pending (s.pushQueue k' _) k i + 0 = pending s k i + 0
    rw [State.pushQueue, pending_setLane]
    split
    · subst k'
      simp [pending, hempty]
    · rfl
  | @join S k' hm hexit =>
    show pending (s.setLane k' _) k i + 0 = pending s k i + 0
    rw [pending_setLane]
    split
    · subst k'
      have hnone : (s.lane k).threads.countP (holds i) = 0 := by
        refine countP_eq_zero.2 fun p hp => ?_
        rw [hexit p hp]
        simp [holds]
      simp [pending, hnone]
    · rfl
  | @clearQueue S k' hm =>
    have hdown := h.idle (by rw [hm]; rfl) i.owner
    exact absurd (hdown.symm.trans hrun) (by decide)
  | clearFinish hm =>
    show pending (s.setComplete .work _ _) k i + 0 = pending s k i + 0
    rw [State.setComplete, pending_setLane]
    split <;> simp [pending, *]
  | clearPathed hm =>
    show pending (s.setComplete .path _ _) k i + _ = pending s k i + _
    rw [State.setComplete, pending_setLane]
    split <;> simp [taken, pending, *]

theorem Step.tally (h : Ledger s) (hst : Step n s e t) (hrun : t.isRunning i.owner = true) (k : Kind) :
    pending t k i + taken k i e = pending s k i + if e = .queue k i then 1 else 0 := by
  cases hst with
  | main hst => exact hst.tally h hrun k
  | @thread k₀ p p' l₁ l₂ e lane hp hst =>
    have htally := hst.tally hrun k
    rw [pending_setLane]
    by_cases hk : k = k₀
    · subst hk
      simp only [if_true, countP_append, countP_cons, toNat_eq_ite] at htally ⊢
      unfold pending
      rw [hp, countP_append, countP_cons]
      omega
    · simp only [if_neg hk] at htally ⊢
      omega

theorem Owned.pending_eq_zero (h : Owned s) (hi : i.owner ∉ s.schedulers) (k : Kind) : pending s k i = 0 := by
  have hqueue : (s.lane k).queue.count i = 0 := count_eq_zero.2 fun hmem => hi (h.queue k i hmem)
  have hthreads : (s.lane k).threads.countP (holds i) = 0 := by
    refine countP_eq_zero.2 fun p hp hholds => hi ?_
    have hitem : p.item = some i := by
      cases p <;> simp_all [holds, Pc.item]
    exact h.thread k p hp i hitem
  rw [pending, hqueue, hthreads]

/-! ## Runs -/

variable {es : List (Event σ T)}

theorem Run.owned (h : Run n es s) : Ledger s ∧ Owned s ∧ ∀ e ∈ es, ∀ i, e.item = some i → i.owner ∈ s.schedulers := by
  induction h with
  | new => exact ⟨⟨nodup_nil, nofun, rfl, nofun, nofun⟩, ⟨nofun, nofun, nofun⟩, nofun⟩
  | step _ hst ih =>
    refine ⟨hst.ledger ih.1, hst.owned ih.1 ih.2.1, fun e he i hi => hst.schedulers_subset ?_⟩
    rcases mem_cons.1 he with rfl | he
    · exact hst.event_owned ih.2.1 hi
    · exact ih.2.2 e he i hi

theorem Run.balance (h : Run n es s) (hrun : s.isRunning i.owner = true) (k : Kind) :
    es.count (.queue k i) = pending s k i + es.count (.start k i) + es.count (.expire k i) := by
  induction h with
  | new => exact absurd hrun (by simp [State.new])
  | @step es e s t h hst ih =>
    obtain ⟨hledger, howned, hevents⟩ := Run.owned h
    have htally := hst.tally hledger hrun k
    simp only [count_cons, beq_iff_eq]
    have htaken : taken k i e = (if e = .start k i then 1 else 0) + if e = .expire k i then 1 else 0 := by
      unfold taken
      by_cases hs : e = .start k i
      · simp [hs]
      · simp [hs]
    rcases hst.running_of hrun with hrun | ⟨hfresh, -⟩
    · have ih := ih hrun
      omega
    · -- nothing is known of a scheduler before it is constructed
      have hnone (e : Event σ T) (he : e.item = some i) : es.count e = 0 :=
        count_eq_zero.2 fun hmem => hfresh (hevents e hmem i he)
      have hpending := howned.pending_eq_zero hfresh k
      rw [hnone (.queue k i) rfl, hnone (.start k i) rfl, hnone (.expire k i) rfl]
      omega

end Circuit.Impl.Scheduler
