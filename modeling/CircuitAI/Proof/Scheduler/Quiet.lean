import CircuitAI.Proof.Scheduler.Tally
import Mathlib.Algebra.Order.Ring.Int
import Mathlib.Algebra.Order.Ring.Nat

/-!
# Threads leave a released scheduler alone

`Marks`: `isWorkProcess` and `numPathProcess` of a scheduler count the threads between their two `NotifyOne`. So no
thread is in a task of a scheduler when its release has passed the barrier, and none starts one as it does not run any
more (`Quiet`). With the balance of `Step.tally` this is `release_returned`.
-/

set_option linter.unusedSectionVars false

namespace Circuit.Impl.Scheduler

open Spec.Shutdown List

variable {σ T : Type*} [DecidableEq σ] {s t : State σ T} {n : ℕ} {e : Event σ T} {S : σ} {k : Kind}

/-! ## The counters of the barrier -/

variable {p p' : Pc σ T} {lane : Lane σ T} {l₁ l₂ : List (Pc σ T)}

def marks (S : σ) : Pc σ T → Bool
  | .marked i | .running i | .finished i => i.owner = S
  | .leaving R => R = S
  | _ => false

theorem marks_of_busy (h : Busy S p) : marks S p = true := by
  cases p with
  | running i | finished i => exact decide_eq_true h
  | _ => exact h.elim

def Main.joining : Main σ T → Bool
  | .wake _ .work _ => true
  | .join _ .work => true
  | _ => false

structure Marks (s : State σ T) : Prop where
  stopped : s.workerRunning = false → s.main.joining = false → (s.lane .work).threads = []
  single : (s.lane .work).threads.length ≤ 1
  process : ∀ k S, (s.lane k).process S = (s.lane k).threads.countP (marks S)

theorem Thread.process (h : Thread s k p e p' lane)
    (hp : (s.lane k).threads = l₁ ++ p :: l₂) (hsingle : k = .work → l₁ = [] ∧ l₂ = [])
    (hs : ∀ S, (s.lane k).process S = (s.lane k).threads.countP (marks S)) (S : σ) :
    lane.process S = (l₁ ++ p' :: l₂).countP (marks S) := by
  have hS := hs S
  rw [hp, countP_append, countP_cons] at hS
  rw [countP_append, countP_cons]
  cases h with
  | loop => by_cases hw : s.workerRunning = true <;> simpa [marks, hw] using hS
  | pop _ | expire _ | unlocked _ | start _ | skip _ | complete => simpa [marks] using hS
  | @finish i => by_cases hc : i.onComplete = true <;> simpa [marks, hc] using hS
  | @mark i _ =>
    by_cases hi : i.owner = S
    · subst hi
      cases k with
      | work => simp [marks, hsingle rfl, Kind.mark]
      | path =>
        simp [marks, Kind.mark] at hS ⊢
        omega
    · simpa [marks, hi, Ne.symm hi] using hS
  | @unmark R =>
    by_cases hR : R = S
    · subst hR
      cases k with
      | work => simp [marks, hsingle rfl, Kind.unmark]
      | path =>
        simp [marks, Kind.unmark] at hS ⊢
        omega
    · simpa [marks, hR, Ne.symm hR] using hS

theorem Marks.thread (h : Marks s) (hp : (s.lane k).threads = l₁ ++ p :: l₂) (hst : Thread s k p e p' lane) :
    Marks (s.setLane k { lane with threads := l₁ ++ p' :: l₂ }) := by
  have hsingle : k = .work → l₁ = [] ∧ l₂ = [] := by
    rintro rfl
    have hlen := h.single
    rw [hp, length_append, length_cons] at hlen
    exact ⟨length_eq_zero_iff.1 (by omega), length_eq_zero_iff.1 (by omega)⟩
  have hprocess := hst.process hp hsingle (h.process k)
  refine ⟨fun hw hj => ?_, ?_, fun k' S => ?_⟩
  · have hnone := h.stopped hw hj
    cases k with
    | work => simp [hnone] at hp
    | path => simpa [State.setLane] using hnone
  · cases k with
    | work => simp [State.setLane, hsingle rfl]
    | path => simpa [State.setLane] using h.single
  · by_cases hk : k' = k
    · subst hk
      simpa [State.setLane] using hprocess S
    · simpa [State.setLane, hk] using h.process k' S

theorem Marks.move (h : Marks s)
    (hlane : ∀ k, (t.lane k).process = (s.lane k).process ∧ (t.lane k).threads = (s.lane k).threads)
    (hstop : t.workerRunning = false → t.main.joining = false →
      s.workerRunning = false ∧ s.main.joining = false ∨ (s.lane .work).threads = []) : Marks t where
  stopped hw hj := by
    rw [(hlane .work).2]
    exact (hstop hw hj).elim (fun ⟨hw, hj⟩ => h.stopped hw hj) id
  single := by
    rw [(hlane .work).2]
    exact h.single
  process k S := by
    rw [(hlane k).1, (hlane k).2]
    exact h.process k S

theorem setLane_same (s : State σ T) (k : Kind) (hp : lane.process = (s.lane k).process)
    (ht : lane.threads = (s.lane k).threads) (k' : Kind) : ((s.setLane k lane).lane k').process = (s.lane k').process ∧
      ((s.setLane k lane).lane k').threads = (s.lane k').threads := by
  by_cases hk : k' = k
  · subst hk
    simp [State.setLane, hp, ht]
  · simp [State.setLane, hk]

theorem Marks.startThreads (h : Marks s) (hm : s.main = .idle) (m : Main σ T) :
    Marks { s.startThreads n with main := m } := by
  unfold State.startThreads
  split
  · rename_i hw
    exact h.move (fun _ => ⟨rfl, rfl⟩) fun hw' => absurd (hw.symm.trans hw') (by decide)
  · rename_i hw
    have hnone : (s.lane .work).threads = [] := h.stopped (by simpa using hw) (by rw [hm]; rfl)
    refine ⟨nofun, by simp [hnone, Kind.threads], fun k S => ?_⟩
    have hloop : (replicate (k.threads n) (Pc.loop : Pc σ T)).countP (marks S) = 0 := by
      simp [countP_replicate, marks]
    simp [countP_append, hloop, h.process k S]

theorem Marks.join (h : Marks s) (hexit : ∀ p ∈ (s.lane k).threads, p = .exited) (m : Main σ T)
    (hm : m.joining = false → k = .path → s.main.joining = false) :
    Marks { s.setLane k { s.lane k with threads := [] } with main := m } := by
  have hzero (S : σ) : (s.lane k).threads.countP (marks S) = 0 := by
    refine countP_eq_zero.2 fun p hp => ?_
    rw [hexit p hp]
    simp [marks]
  refine ⟨fun hw hj => ?_, ?_, fun k' S => ?_⟩
  · cases k with
    | work => simp [State.setLane]
    | path => simpa [State.setLane] using h.stopped hw (hm hj rfl)
  · cases k with
    | work => simp [State.setLane]
    | path => simpa [State.setLane] using h.single
  · by_cases hk : k' = k
    · subst hk
      simp [State.setLane, h.process k' S, hzero S]
    · simpa [State.setLane, hk] using h.process k' S

theorem MainStep.marks_ok (h : Marks s) (hst : MainStep n s e t) : Marks t := by
  cases hst with
  | construct hm hS => exact h.move (fun _ => ⟨rfl, rfl⟩) fun hw hj => .inl ⟨hw, hj⟩
  | release hm hS | noShutdown hm _ | wait hm _ =>
    exact h.move (fun _ => ⟨rfl, rfl⟩) fun hw _ => .inl ⟨hw, by rw [hm]; rfl⟩
  | runTask hm _ _ => exact h.startThreads hm _
  | push hm | popAndProcess hm _ | popAndProcessAll hm | remove hm | @clearQueue S k hm
  | clearFinish hm | clearPathed hm => exact h.move (setLane_same s _ rfl rfl) fun hw _ => .inl ⟨hw, by rw [hm]; rfl⟩
  | released hm _ _ => exact h
  | shutdown hm hc => exact h.move (fun _ => ⟨rfl, rfl⟩) nofun
  | @wake S k m hm =>
    exact h.move (setLane_same s _ rfl rfl) fun hw hj => .inl ⟨hw, by cases k <;> simp_all [Main.joining]⟩
  | @woken S k hm =>
    exact h.move (fun _ => ⟨rfl, rfl⟩) fun hw hj => .inl ⟨hw, by cases k <;> simp_all [Main.joining]⟩
  | @join S k hm hexit => exact h.join hexit _ fun _ hk => by rw [hm, hk]; rfl

theorem Step.marks_ok (h : Marks s) (hst : Step n s e t) : Marks t := by
  cases hst with
  | main hst => exact hst.marks_ok h
  | thread hp hst => exact h.thread hp hst

/-! ## Schedulers that are or have been released -/

def Main.progress : Main σ T → σ → ℕ
  | .clearComplete R .work, S => if R = S then 1 else 3
  | .clearComplete R .path, S => if R = S then 2 else 3
  | m, S => if m.releasing = some S then 0 else 3

theorem Main.progress_le (m : Main σ T) (S : σ) : m.progress S ≤ 3 := by
  unfold Main.progress
  split
  all_goals split <;> omega

structure QuietFor (s : State σ T) (S : σ) : Prop where
  idle : 1 ≤ s.main.progress S → ∀ k, ∀ p ∈ (s.lane k).threads, ¬ Busy S p
  finish : 2 ≤ s.main.progress S → (s.lane .work).complete S = []
  pathed : 3 ≤ s.main.progress S → (s.lane .path).complete S = []

def Quiet (s : State σ T) : Prop := ∀ S ∈ s.schedulers, s.isRunning S = false → QuietFor s S

theorem Thread.quiet (h : Thread s k p e p' lane) (hrun : s.isRunning S = false) (hp : ¬ Busy S p) :
    ¬ Busy S p' ∧ lane.complete S = (s.lane k).complete S ∧
      ∀ k' i, i.owner = S → e ≠ .start k' i ∧ e ≠ .append k' i := by
  cases h with
  | loop => exact ⟨by split <;> exact id, rfl, by simp⟩
  | pop _ | expire _ | unlocked _ | mark _ | skip _ | unmark => exact ⟨id, rfl, by simp⟩
  | @start i hi =>
    have hne : i.owner ≠ S := by
      rintro rfl
      exact absurd (hi.symm.trans hrun) (by decide)
    refine ⟨hne, rfl, fun k' j hj => ⟨?_, nofun⟩⟩
    rintro ⟨⟩
    exact hne hj
  | @finish i =>
    refine ⟨?_, rfl, by simp⟩
    split
    · exact hp
    · exact id
  | @complete i =>
    have hne : S ≠ i.owner := fun heq => hp heq.symm
    refine ⟨id, Function.update_of_ne hne _ _, fun k' j hj => ⟨nofun, ?_⟩⟩
    rintro ⟨⟩
    exact hne hj.symm

theorem QuietFor.thread (h : QuietFor s S)
    (hrun : s.isRunning S = false) (hp : (s.lane k).threads = l₁ ++ p :: l₂) (hst : Thread s k p e p' lane) :
    QuietFor (s.setLane k { lane with threads := l₁ ++ p' :: l₂ }) S := by
  have hstay (hprog : 1 ≤ s.main.progress S) := hst.quiet hrun (h.idle hprog k p (by simp [hp]))
  have hcomplete (hprog : 1 ≤ s.main.progress S) (k' : Kind) :
      ((s.setLane k { lane with threads := l₁ ++ p' :: l₂ }).lane k').complete S = (s.lane k').complete S := by
    by_cases hk : k' = k
    · subst hk
      simpa [State.setLane] using (hstay hprog).2.1
    · simp [State.setLane, hk]
  refine ⟨fun hprog k' q hq => ?_, fun hprog => ?_, fun hprog => ?_⟩
  · have hprog : 1 ≤ s.main.progress S := hprog
    by_cases hk : k' = k
    · subst hk
      have hmem : q ∈ l₁ ++ p' :: l₂ := by simpa [State.setLane] using hq
      rw [mem_append, mem_cons] at hmem
      rcases hmem with hq | rfl | hq
      · exact h.idle hprog k' q (by simp [hp, hq])
      · exact (hstay hprog).1
      · exact h.idle hprog k' q (by simp [hp, hq])
    · exact h.idle hprog k' q (by simpa [State.setLane, hk] using hq)
  · have hprog : 2 ≤ s.main.progress S := hprog
    rw [hcomplete (by omega), h.finish hprog]
  · have hprog : 3 ≤ s.main.progress S := hprog
    rw [hcomplete (by omega), h.pathed hprog]

theorem QuietFor.move (h : QuietFor s S) (hprog : t.main.progress S ≤ s.main.progress S)
    (hthreads : ∀ k, ∀ p ∈ (t.lane k).threads, Busy S p → p ∈ (s.lane k).threads)
    (hcomplete : ∀ k, (s.lane k).complete S = [] → (t.lane k).complete S = []) : QuietFor t S where
  idle hp k p hmem hb := h.idle (by omega) k p (hthreads k p hmem hb) hb
  finish hp := hcomplete _ (h.finish (by omega))
  pathed hp := hcomplete _ (h.pathed (by omega))

theorem QuietFor.queue (h : QuietFor s S) (k : Kind) {q : List (Item σ T)} {m : Main σ T}
    (hprog : m.progress S ≤ s.main.progress S) :
    QuietFor { s.setLane k { s.lane k with queue := q } with main := m } S := by
  refine h.move hprog (fun k' p hp _ => ?_) fun k' hc => ?_ <;> by_cases hk : k' = k
  · subst hk
    simpa [State.setLane] using hp
  · simpa [State.setLane, hk] using hp
  · subst hk
    simpa [State.setLane] using hc
  · simpa [State.setLane, hk] using hc

theorem QuietFor.setComplete (h : QuietFor s S) (k : Kind) (R : σ) {l : List (Item σ T)} {m : Main σ T}
    (hprog : m.progress S ≤ s.main.progress S) (hl : (s.lane k).complete R = [] → l = []) :
    QuietFor { s.setComplete k R l with main := m } S := by
  refine h.move hprog (fun k' p hp _ => ?_) fun k' hc => ?_
  · by_cases hk : k' = k
    · subst hk
      simpa [State.setComplete, State.setLane] using hp
    · simpa [State.setComplete, State.setLane, hk] using hp
  · by_cases hk : k' = k
    · subst hk
      by_cases hR : R = S
      · subst hR
        simpa [State.setComplete, State.setLane] using hl hc
      · simpa [State.setComplete, State.setLane, Ne.symm hR] using hc
    · simpa [State.setComplete, State.setLane, hk] using hc

theorem Marks.idle (h : Marks s) (hzero : (s.lane .work).process S = 0 ∧ (s.lane .path).process S = 0) (k : Kind)
    (hp : p ∈ (s.lane k).threads) : ¬ Busy S p := by
  have hk : (s.lane k).process S = 0 := by
    cases k
    · exact hzero.1
    · exact hzero.2
  have hcount : (s.lane k).threads.countP (marks S) = 0 := by
    have hprocess := h.process k S
    omega
  intro hb
  exact absurd (marks_of_busy hb) (countP_eq_zero.1 hcount p hp)

theorem MainStep.quietFor (hm : Marks s) (h : QuietFor s S) (hS : s.isRunning S = false) (hst : MainStep n s e t) :
    QuietFor t S := by
  have hidle (hm : s.main = .idle) (m : Main σ T) : m.progress S ≤ s.main.progress S := by
    rw [hm]
    exact m.progress_le S
  cases hst with
  | construct hm _ => exact h.move (Nat.le_refl _) (fun _ _ hp _ => hp) fun _ hc => hc
  | release hm _ => exact h.move (hidle hm _) (fun _ _ hp _ => hp) fun _ hc => hc
  | @runTask k i hm _ _ =>
    have hthreads (k : Kind) (p : Pc σ T) (hp : p ∈ ((s.startThreads n).lane k).threads) (hb : Busy S p) :
        p ∈ (s.lane k).threads := by
      unfold State.startThreads at hp
      split at hp
      · exact hp
      · rcases mem_append.1 hp with hp | hp
        · exact hp
        · rw [eq_of_mem_replicate hp] at hb
          exact hb.elim
    have hcomplete (k : Kind) : ((s.startThreads n).lane k).complete = (s.lane k).complete := by
      unfold State.startThreads
      split <;> rfl
    exact h.move (hidle hm _) hthreads fun k hc => (congrFun (hcomplete k) S).trans hc
  | push hm => exact h.queue _ (by rw [hm]; exact Main.progress_le _ S)
  | @popAndProcess R i q hm hq =>
    exact h.setComplete .work R (m := s.main) (Nat.le_refl _) fun hnil => absurd (hq.symm.trans hnil) (by simp)
  | @popAndProcessAll R hm => exact h.setComplete .path R (m := s.main) (Nat.le_refl _) fun _ => rfl
  | released hm _ _ => exact h
  | @remove R k hm | @clearQueue R k hm => exact h.queue k (by rw [hm]; cases k <;> exact Nat.le_refl _)
  | shutdown hm _ | noShutdown hm _ | woken hm =>
    exact h.move (by rw [hm]; exact Nat.le_refl _) (fun _ _ hp _ => hp) fun _ hc => hc
  | wake hm => exact h.queue _ (by rw [hm]; exact Nat.le_refl _)
  | @join R k hm hexit =>
    refine h.move (by rw [hm]; exact Nat.le_refl _) (fun k' p hp _ => ?_) fun k' hc => ?_ <;> by_cases hk : k' = k
    · subst hk
      simp [State.setLane] at hp
    · simpa [State.setLane, hk] using hp
    · subst hk
      simpa [State.setLane] using hc
    · simpa [State.setLane, hk] using hc
  | @wait R hmain hzero =>
    by_cases hR : R = S
    · subst hR
      refine ⟨fun _ k p hp => hm.idle hzero k hp, fun hprog => ?_, fun hprog => ?_⟩
      · simp [Main.progress] at hprog
      · simp [Main.progress] at hprog
    · refine h.move ?_ (fun _ _ hp _ => hp) fun _ hc => hc
      rw [hmain]
      simp [Main.progress, Main.releasing, hR]
  | @clearFinish R hmain =>
    have hsame := h.setComplete .work R (m := s.main) (l := []) (Nat.le_refl _) fun _ => rfl
    by_cases hR : R = S
    · subst hR
      have hprog : 1 ≤ s.main.progress R := by
        rw [hmain]
        simp [Main.progress]
      refine ⟨fun _ => hsame.idle hprog, fun _ => ?_, fun hprog => ?_⟩
      · simp [State.setComplete, State.setLane]
      · simp [Main.progress] at hprog
    · refine h.setComplete .work R ?_ fun _ => rfl
      rw [hmain]
      simp [Main.progress, hR]
  | @clearPathed R hmain =>
    have hsame := h.setComplete .path R (m := s.main) (l := []) (Nat.le_refl _) fun _ => rfl
    by_cases hR : R = S
    · subst hR
      have hprog : 2 ≤ s.main.progress R := by
        rw [hmain]
        simp [Main.progress]
      refine ⟨fun _ => hsame.idle (by show 1 ≤ s.main.progress R; omega), fun _ => hsame.finish hprog, fun _ => ?_⟩
      simp [State.setComplete, State.setLane]
    · refine h.setComplete .path R ?_ fun _ => rfl
      rw [hmain]
      simp [Main.progress, Main.releasing, hR]

theorem MainStep.not_running (hst : MainStep n s e t) (hS : S ∈ t.schedulers) (hrun : t.isRunning S = false) :
    (S ∈ s.schedulers ∧ s.isRunning S = false) ∨ t.main.progress S = 0 := by
  have hstart : (s.startThreads n).schedulers = s.schedulers ∧ (s.startThreads n).isRunning = s.isRunning := by
    unfold State.startThreads
    split <;> exact ⟨rfl, rfl⟩
  cases hst with
  | @construct R _ _ =>
    have hne : S ≠ R := by
      rintro rfl
      simp [State.construct] at hrun
    simp only [State.construct, mem_cons, hne, false_or] at hS
    rw [State.construct] at hrun
    exact .inl ⟨hS, by simpa [hne] using hrun⟩
  | @release R _ _ =>
    by_cases hR : S = R
    · subst hR
      exact .inr (by simp [Main.progress, Main.releasing])
    · exact .inl ⟨hS, by simpa [hR] using hrun⟩
  | runTask _ _ _ => exact .inl ⟨hstart.1 ▸ hS, hstart.2 ▸ hrun⟩
  | _ => exact .inl ⟨hS, hrun⟩

theorem Step.quiet (hm : Marks s) (h : Quiet s) (hst : Step n s e t) : Quiet t := by
  cases hst with
  | thread hp hst => exact fun S hS hrun => (h S hS hrun).thread hrun hp hst
  | main hst =>
    intro S hS hrun
    rcases hst.not_running hS hrun with ⟨hS, hrun⟩ | hzero
    · exact hst.quietFor hm (h S hS hrun) hrun
    · exact ⟨fun _ => by omega, fun _ => by omega, fun _ => by omega⟩

/-! ## Releases that have returned -/

def Returned (s : State σ T) (S : σ) : Prop :=
  S ∈ s.schedulers ∧ s.isRunning S = false ∧ s.main.progress S = 3

theorem MainStep.returned_of_event (h : Ledger s) (hst : MainStep n s (.returned S) t) : Returned t S := by
  cases hst with
  | released hm hS hrun =>
    refine ⟨hS, hrun, ?_⟩
    rw [hm]
    rfl
  | clearPathed hm =>
    obtain ⟨hS, hrun⟩ := h.releasing S (by rw [hm]; rfl)
    exact ⟨hS, hrun, rfl⟩

theorem MainStep.returned (h : Returned s S) (hst : MainStep n s e t) : Returned t S := by
  obtain ⟨hS, hrun, hprog⟩ := h
  have hstart : (s.startThreads n).schedulers = s.schedulers ∧ (s.startThreads n).isRunning = s.isRunning := by
    unfold State.startThreads
    split <;> exact ⟨rfl, rfl⟩
  cases hst with
  | @construct R hm hR =>
    have hne : S ≠ R := fun heq => hR (heq ▸ hS)
    exact ⟨mem_cons_of_mem R hS, by simpa [State.construct, hne] using hrun, hprog⟩
  | @release R hm hR =>
    have hne : S ≠ R := by
      rintro rfl
      exact absurd (hR.symm.trans hrun) (by decide)
    exact ⟨hS, by simpa [hne] using hrun, by simp [Main.progress, Main.releasing, Ne.symm hne]⟩
  | runTask _ _ _ => exact ⟨hstart.1 ▸ hS, hstart.2 ▸ hrun, rfl⟩
  | push _ | clearPathed _ => exact ⟨hS, hrun, rfl⟩
  | popAndProcess _ _ | popAndProcessAll _ | released _ _ _ => exact ⟨hS, hrun, hprog⟩
  | @remove R k hm | @clearQueue R k hm =>
    rw [hm] at hprog
    cases k <;> exact ⟨hS, hrun, hprog⟩
  | wait hm _ =>
    rw [hm] at hprog
    simp [Main.progress, Main.releasing] at hprog
    exact ⟨hS, hrun, by simp [Main.progress, hprog]⟩
  | clearFinish hm =>
    rw [hm] at hprog
    simp [Main.progress] at hprog
    exact ⟨hS, hrun, by simp [Main.progress, hprog]⟩
  | shutdown hm _ | noShutdown hm _ | wake hm | woken hm | join hm _ =>
    exact ⟨hS, hrun, by rw [hm] at hprog; exact hprog⟩

theorem Step.returned (h : Returned s S) (hst : Step n s e t) : Returned t S := by
  cases hst with
  | main hst => exact hst.returned h
  | thread _ _ => exact h

theorem Step.not_start (hq : Quiet s) (h : Returned s S) (hst : Step n s e t) (k : Kind) (i : Item σ T)
    (hi : i.owner = S) : e ≠ .start k i ∧ e ≠ .append k i := by
  cases hst with
  | main hst => cases hst <;> exact ⟨nofun, nofun⟩
  | @thread k' p p' l₁ l₂ e lane hp hst =>
    have hidle := (hq S h.1 h.2.1).idle (by rw [h.2.2]; omega) k' p (by simp [hp])
    exact (hst.quiet h.2.1 hidle).2.2 k i hi

/-! ## Runs -/

variable {es es' : List (Event σ T)}

theorem Run.invariants (h : Run n es s) : Ledger s ∧ Marks s ∧ Quiet s := by
  induction h with
  | new =>
    refine ⟨⟨nodup_nil, nofun, rfl, nofun, nofun⟩, ⟨fun _ _ => rfl, by simp [State.new], fun _ _ => rfl⟩, nofun⟩
  | step _ hst ih => exact ⟨hst.ledger ih.1, hst.marks_ok ih.2.1, hst.quiet ih.2.1 ih.2.2⟩

theorem Run.returned_ok (h : Run n (es' ++ .returned S :: es) s) :
    Returned s S ∧ ∀ k i, i.owner = S → .start k i ∉ es' ∧ .append k i ∉ es' := by
  induction es' generalizing s with
  | nil =>
    cases h with
    | step h hst =>
      cases hst with
      | main hst => exact ⟨hst.returned_of_event (Run.invariants h).1, by simp⟩
      | thread _ hst => cases hst
  | cons e es' ih =>
    cases h with
    | step h hst =>
      obtain ⟨hret, hno⟩ := ih h
      refine ⟨hst.returned hret, fun k i hi => ?_⟩
      obtain ⟨hs, ha⟩ := hst.not_start (Run.invariants h).2.2 hret k i hi
      obtain ⟨hs', ha'⟩ := hno k i hi
      exact ⟨by simp [Ne.symm hs, hs'], by simp [Ne.symm ha, ha']⟩

theorem Run.not_expire_work (h : Run n es s) (i : Item σ T) : .expire .work i ∉ es := by
  induction h with
  | new => simp
  | step _ hst ih =>
    rw [mem_cons, not_or]
    refine ⟨?_, ih⟩
    cases hst with
    | main hst => cases hst <;> nofun
    | thread _ hst =>
      rintro rfl
      cases hst with
      | expire hk => exact absurd hk (by decide)

end Circuit.Impl.Scheduler

namespace Circuit.Spec.Shutdown

open Impl.Scheduler

variable {σ T : Type*} [DecidableEq σ] [DecidableEq T] {s : State σ T} {n : ℕ} {S : σ} {es es' : List (Event σ T)}

/-- Once `Release` of a scheduler has returned, no thread is in a task of it, none starts one or pushes a callback of
it, and both its queues of callbacks are empty. A task of a scheduler that still runs waits exactly as often as it has
been queued and has not been started, or found without its query by a path thread. -/
theorem release_returned (h : Run n (es' ++ .returned S :: es) s) : (∀ k, ∀ p ∈ (s.lane k).threads, ¬ Busy S p) ∧
    (∀ k i, i.owner = S → .start k i ∉ es' ∧ .append k i ∉ es') ∧ (∀ k, (s.lane k).complete S = []) ∧
    (∀ k i, s.isRunning i.owner = true → (es' ++ .returned S :: es).count (.queue k i) =
        (s.lane k).queue.count i + (s.lane k).threads.countP (holds i) +
          (es' ++ .returned S :: es).count (.start k i) + (es' ++ .returned S :: es).count (.expire k i)) ∧
    ∀ i, .expire .work i ∉ es' ++ .returned S :: es := by
  obtain ⟨hret, hno⟩ := Run.returned_ok h
  have hquiet := (Run.invariants h).2.2 S hret.1 hret.2.1
  have hprog := hret.2.2
  refine ⟨hquiet.idle (by omega), hno, fun k => ?_, fun k i hrun => Run.balance h hrun k, Run.not_expire_work h⟩
  cases k with
  | work => exact hquiet.finish (by omega)
  | path => exact hquiet.pathed (by omega)

theorem step_worker {e : Event σ T} {p p' : Pc σ T} {lane : Lane σ T} (hp : (s.lane .work).threads = [p])
    (h : Thread s .work p e p' lane) : Step n s e (s.setLane .work { lane with threads := [p'] }) :=
  have hsplit : (s.lane .work).threads = [] ++ p :: [] := hp
  .thread hsplit h

/-- A scheduler is released while the worker has a task of another one in its queue, which it then starts. -/
theorem release_returned_other : ∃ (es' es : List (Event Bool Unit)) (s : State Bool Unit),
      Run 1 (es' ++ .returned false :: es) s ∧ .start .work ⟨true, some (), true⟩ ∈ es' ∧
        ∀ k, ∀ p ∈ (s.lane k).threads, ¬ Busy false p := by
  have h := (Run.new : Run 1 [] (State.new : State Bool Unit))
    |>.step (.main (.construct (S := false) rfl (by decide)))
    |>.step (.main (.construct (S := true) rfl (by decide)))
    |>.step (.main (.runTask (k := .work) (i := ⟨true, some (), true⟩) rfl (by decide) rfl))
    |>.step (.main (.push rfl))
    |>.step (.main (.release (S := false) rfl (by decide)))
    |>.step (.main (.remove rfl))
    |>.step (.main (.remove rfl))
    |>.step (.main (.noShutdown rfl (by decide)))
    |>.step (.main (.wait rfl (by decide)))
    |>.step (.main (.clearFinish rfl))
    |>.step (.main (.clearPathed rfl))
    |>.step (step_worker rfl .loop)
    |>.step (step_worker rfl (.pop rfl))
    |>.step (step_worker rfl (.mark nofun))
    |>.step (step_worker rfl (.start rfl))
  have hsplit : Run 1 ([_, _, _, _] ++ .returned false :: _) _ := h
  exact ⟨_, _, _, hsplit, by simp, (release_returned hsplit).1⟩

end Circuit.Spec.Shutdown
