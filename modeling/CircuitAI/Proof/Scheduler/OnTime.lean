import CircuitAI.Framework.GrowingList
import CircuitAI.Framework.Steps
import CircuitAI.Spec.GameTasks

/-!
# Game tasks run on time

Both lists of the scheduler are lists walked while they grow. `OnceWalked` and `RepeatWalked` say so, with what the iterator
of each phase has passed; the events of a run keep their books (`onceBook`, `repeatBook`). A step of the scheduler adds an
element, begins or ends a round, or gives an element its turn (`Tracks.step`), and a pass ends when no more calls are made
(`next_rank`).
-/

set_option linter.unusedSectionVars false
set_option linter.unnecessarySeqFocus false

namespace Circuit.Spec.GameTasks

open Impl.GameTasks Framework Framework.GrowingList Function List Option

variable {T : Type*} [DecidableEq T] {es : List (Event T)} {e : Event T} {s u : State T}

/-! ## Turns -/

variable {c : Call T} {m : ℕ}

def onceTurn (f : ℤ) (d : GameTask T × ℤ) : Option (GameTask T × ℤ) × List (GameTask T × ℤ) :=
  if d.2 ≤ f then (none, [(d.1, f)]) else (some d, [])

def repeatTurn (f : ℤ) (d : (T × ℤ) × ℤ) : Option ((T × ℤ) × ℤ) × List (T × ℤ) :=
  if d.1.2 ≤ f - d.2 then (some (d.1, f), [(d.1.1, f)]) else (some d, [])

theorem foldl_onceTurn_none (r : List (GameTask T × ℤ)) (fs : List ℤ) :
    fs.foldl (step onceTurn) (none, r) = (none, r) := by
  induction fs with
  | nil => rfl
  | cons f fs ih => exact ih

theorem turns_onceTurn (task : GameTask T) (g : ℤ) (fs : List ℤ) :
    (turns onceTurn (task, g) fs).2 = (fs.find? (g ≤ ·)).toList.map (task, ·) := by
  induction fs with
  | nil => rfl
  | cons f fs ih =>
    by_cases hf : g ≤ f
    · simp [turns, step, onceTurn, hf, foldl_onceTurn_none]
    · simpa [turns, step, onceTurn, hf] using ih

theorem turns_repeatTurn (t : T) (k f₀ : ℤ) (fs : List ℤ) :
    (turns repeatTurn ((t, k), f₀) fs).2 = (due k f₀ fs).map (t, ·) := by
  have hfold : ∀ r, (fs.foldl (step repeatTurn) (some ((t, k), f₀), r)).2 = r ++ (due k f₀ fs).map (t, ·) := by
    induction fs generalizing f₀ with
    | nil => simp [due]
    | cons f fs ih =>
      intro r
      by_cases hf : k ≤ f - f₀
      · simp [step, repeatTurn, due, hf, ih]
      · simp [step, repeatTurn, due, hf, ih]
  exact hfold []

/-! ## Books -/

def onceBook (es : List (Event T)) : Book (GameTask T × ℤ) (GameTask T × ℤ) :=
  ⟨(onceTarget · es), (oncePasses · es), (onceRuns · es)⟩

def repeatBook (es : List (Event T)) : Book ((T × ℤ) × ℤ) (T × ℤ) :=
  ⟨(repeatStart · es), (repeatPasses · es), (repeatRuns · es)⟩

theorem or_ite_eq_update {α : Type*} (f : ℕ → Option α) (m : ℕ) (x : α) :
    (fun n => (if m = n then some x else none).or (f n)) = update f m (some x) := by
  funext n
  rw [update_apply, eq_comm]
  split_ifs with h h' h' <;> simp_all

theorem append_ite_eq_update {α : Type*} (f : ℕ → List α) (m : ℕ) (x : α) :
    (fun n => f n ++ if m = n then [x] else []) = update f m (f m ++ [x]) := by
  funext n
  rw [update_apply]
  split_ifs with h h' h' <;> simp_all

theorem onceBook_call {d : GameTask T × ℤ} (h : target (frameOf es) c = some d) :
    onceBook (.call c m :: es) = (onceBook es).add m d :=
  Book.ext (by simp only [onceBook, onceTarget, h, or_ite_eq_update, Book.add]) rfl rfl

theorem onceBook_call_none (h : target (frameOf es) c = none) : onceBook (.call c m :: es) = onceBook es :=
  Book.ext (by simp [onceBook, onceTarget, h]) rfl rfl

theorem repeatBook_call {d : T × ℤ} (h : interval c = some d) :
    repeatBook (.call c m :: es) = (repeatBook es).add m (d, frameOf es) :=
  Book.ext (by simp only [repeatBook, repeatStart, h, map_some, or_ite_eq_update, Book.add]) rfl rfl

theorem repeatBook_call_none (h : interval c = none) : repeatBook (.call c m :: es) = repeatBook es :=
  Book.ext (by simp [repeatBook, repeatStart, h]) rfl rfl

theorem repeatBook_wrapped (m : ℕ) (t : T) (k : ℤ) :
    repeatBook (.wrapped m t k :: es) = (repeatBook es).add m ((t, k), frameOf es) := by
  refine Book.ext ?_ rfl rfl
  funext n
  simp only [repeatBook, repeatStart, Book.add, update_apply, eq_comm]

theorem onceBook_onceRun (n : ℕ) (task : GameTask T) :
    onceBook (.onceRun n task :: es) = (onceBook es).note n [(task, frameOf es)] :=
  Book.ext rfl rfl (append_ite_eq_update (onceRuns · es) n (task, frameOf es))

theorem repeatBook_repeatRun (n : ℕ) (t : T) :
    repeatBook (.repeatRun n t :: es) = (repeatBook es).note n [(t, frameOf es)] :=
  Book.ext rfl rfl (append_ite_eq_update (repeatRuns · es) n (t, frameOf es))

/-! ## Both lists -/

def onceEntry (c : OnceTask T) : ℕ × GameTask T × ℤ := (c.node, c.task, c.frame)

def repeatEntry (c : RepeatTask T) : ℕ × (T × ℤ) × ℤ := (c.node, (c.task, c.frameInterval), c.lastFrame)

abbrev WalkedAt {D R C : Type*} (turn : ℤ → D → Option D × List R) (B : Book D R) (nodes : ℕ) (entry : C → ℕ × D)
    (l : List C) (i j : ℕ) (now : Option ℤ) : Prop :=
  Walked turn B nodes ((l.take i).map entry) ((l.drop j).map entry) now

def OnceWalked (es : List (Event T)) (s : State T) : Prop :=
  match s.phase with
  | .once i => WalkedAt onceTurn (onceBook es) s.nodes onceEntry s.onceTasks i i (some s.lastFrame)
  | .onceRun i => WalkedAt onceTurn (onceBook es) s.nodes onceEntry s.onceTasks i (i + 1) (some s.lastFrame)
  | _ => WalkedAt onceTurn (onceBook es) s.nodes onceEntry s.onceTasks 0 0 none

def RepeatWalked (es : List (Event T)) (s : State T) : Prop :=
  match s.phase with
  | .repeats i => WalkedAt repeatTurn (repeatBook es) s.nodes repeatEntry s.repeatTasks i i (some s.lastFrame)
  | .repeatRun i =>
    WalkedAt repeatTurn (repeatBook es) s.nodes repeatEntry (s.setLast i).repeatTasks (i + 1) (i + 1) (some s.lastFrame)
  | _ => WalkedAt repeatTurn (repeatBook es) s.nodes repeatEntry s.repeatTasks 0 0 none

def Running (s : State T) : Prop :=
  match s.phase with
  | .onceRun i => i < s.onceTasks.length
  | .repeatRun i => i < s.repeatTasks.length
  | _ => True

structure Tracks (es : List (Event T)) (s : State T) : Prop where
  frame : frameOf es = s.lastFrame
  removeTasks : s.removeTasks = []
  running : Running s
  once : OnceWalked es s
  repeats : RepeatWalked es s

section WalkedAt

variable {D R C : Type*} {turn : ℤ → D → Option D × List R} {B : Book D R} {nodes : ℕ} {entry : C → ℕ × D}
  {l : List C} {i j : ℕ} {now : Option ℤ} {f : ℤ}

theorem WalkedAt.push (h : WalkedAt turn B nodes entry l i j now) (hi : i ≤ l.length) (hj : j ≤ l.length) {c : C} {d : D}
    (hc : entry c = (nodes, d)) : WalkedAt turn (B.add nodes d) (nodes + 1) entry (l ++ [c]) i j now := by
  rw [WalkedAt, take_append_of_le_length hi, drop_append_of_le_length hj, map_append, map_singleton, hc]
  exact Walked.push h d

theorem WalkedAt.begin (h : WalkedAt turn B nodes entry l 0 0 none) (f : ℤ) :
    WalkedAt turn B nodes entry l 0 0 (some f) := Walked.begin h f

theorem WalkedAt.endRound (h : WalkedAt turn B nodes entry l i i (some f)) (hi : l[i]? = none) :
    WalkedAt turn (B.endRound f) nodes entry l 0 0 none := by
  rw [getElem?_eq_none_iff] at hi
  rw [WalkedAt, take_of_length_le hi, drop_eq_nil_of_le hi] at h
  exact Walked.endRound h

theorem WalkedAt.visit (h : WalkedAt turn B nodes entry l i i (some f)) {c : C} (hc : l[i]? = some c) :
    Walked turn (B.note (entry c).1 (turn f (entry c).2).2) nodes
      ((l.take i).map entry ++ (turn f (entry c).2).1.toList.map ((entry c).1, ·)) ((l.drop (i + 1)).map entry) (some f) := by
  obtain ⟨hi, rfl⟩ := List.getElem?_eq_some_iff.1 hc
  rw [WalkedAt, drop_eq_getElem_cons hi] at h
  exact Walked.visit h

theorem WalkedAt.skip (h : WalkedAt turn B nodes entry l i i (some f)) {c : C} (hc : l[i]? = some c)
    (hturn : turn f (entry c).2 = (some (entry c).2, [])) : WalkedAt turn B nodes entry l (i + 1) (i + 1) (some f) := by
  have hvisit := h.visit hc
  rw [hturn, Book.note_nil] at hvisit
  rw [WalkedAt, take_add_one, hc, map_append]
  exact hvisit

theorem WalkedAt.erase (h : WalkedAt turn B nodes entry l i (i + 1) now) (hi : i < l.length) :
    WalkedAt turn B nodes entry (l.eraseIdx i) i i now := by
  rw [WalkedAt, eraseIdx_eq_take_drop_succ, take_left' (by simp; omega), drop_left' (by simp; omega)]
  exact h

end WalkedAt

/-! ## Steps -/

theorem lt_length_of_running_once {i : ℕ} (h : Running s) (hp : s.phase = .onceRun i) : i < s.onceTasks.length := by
  simpa [Running, hp] using h

theorem Tracks.pushOnce (h : Tracks es s) (hs : s.calls = true) {task : GameTask T} {g : ℤ}
    (htarget : target s.lastFrame c = some (task, g)) (hinterval : interval c = none) :
    Tracks (.call c s.nodes :: es) (s.pushOnce task g) := by
  obtain ⟨hframe, hremove, hrun, honce, hrep⟩ := h
  rw [← hframe] at htarget
  refine ⟨hframe, hremove, ?_, ?_, ?_⟩
  · revert hrun
    simp only [Running, State.pushOnce, length_append, length_singleton]
    split
    · exact Nat.lt_succ_of_lt
    · exact id
    · exact id
  · simp only [OnceWalked, onceBook_call htarget, State.pushOnce] at honce ⊢
    split at honce
    · simp_all [State.calls]
    · rename_i i hp
      have hi := lt_length_of_running_once hrun hp
      exact honce.push (by omega) (by omega) rfl
    · exact honce.push (by omega) (by omega) rfl
  · simp only [RepeatWalked, repeatBook_call_none hinterval, State.pushOnce] at hrep ⊢
    split at hrep <;> exact hrep.mono

theorem Tracks.pushRepeat (h : Tracks es s) (hs : s.calls = true) {t : T} {k : ℤ}
    (htarget : ∀ f, target f c = none) (hinterval : interval c = some (t, k)) :
    Tracks (.call c s.nodes :: es) (s.pushRepeat t k) := by
  obtain ⟨hframe, hremove, hrun, honce, hrep⟩ := h
  refine ⟨hframe, hremove, ?_, ?_, ?_⟩
  · revert hrun
    simp only [Running, State.pushRepeat, length_append, length_singleton]
    split
    · exact id
    · exact Nat.lt_succ_of_lt
    · exact id
  · simp only [OnceWalked, onceBook_call_none (htarget _), State.pushRepeat] at honce ⊢
    split at honce <;> exact honce.mono
  · simp only [RepeatWalked, repeatBook_call hinterval, State.pushRepeat, hframe] at hrep ⊢
    split at hrep
    · simp_all [State.calls]
    · rename_i i hp
      have hi : i < s.repeatTasks.length := by simpa [Running, hp] using hrun
      simp only [State.setLast] at hrep ⊢
      rw [modify_eq_take_cons_drop hi] at hrep
      rw [modify_eq_take_cons_drop (by simp; omega), take_append_of_le_length hi.le,
        drop_append_of_le_length hi, getElem_append_left hi, ← cons_append, ← append_assoc]
      exact hrep.push (by simp; omega) (by simp; omega) rfl
    · exact hrep.push (by omega) (by omega) rfl

theorem Tracks.call (h : Tracks es s) (hs : s.calls = true) (hc : ∀ t, c ≠ .removeTask t) :
    Tracks (.call c s.nodes :: es) (s.call c) := by
  cases c with
  | runTaskAt t frame => exact h.pushOnce hs rfl rfl
  | runTaskAfter t frame => exact h.pushOnce hs rfl rfl
  | runTaskEvery t k offset =>
    simp only [State.call]
    split_ifs with hoff
    · exact h.pushOnce hs (by simp [target, hoff]) (by simp [interval, hoff])
    · exact h.pushRepeat hs (by simp [target, hoff]) (by simp [interval, hoff])
  | removeTask t => exact absurd rfl (hc t)

theorem Tracks.begin (h : Tracks es s) (hs : s.phase = .idle) (frame : ℤ) :
    Tracks (.begin frame :: es) (s.begin frame) := by
  obtain ⟨hframe, hremove, hrun, honce, hrep⟩ := h
  simp only [OnceWalked, RepeatWalked, hs] at honce hrep
  exact ⟨rfl, hremove, trivial, honce.begin frame, hrep⟩

theorem Tracks.next (h : Tracks es s) (hs : s.next = some (e, u)) : Tracks (e :: es) u := by
  obtain ⟨hframe, hremove, hrun, honce, hrep⟩ := h
  have hnext := next_cases hs
  cases hnext <;> rename_i hp <;> simp only [OnceWalked, RepeatWalked, hp] at honce hrep
  case onceOver i hi =>
    have hend := honce.endRound hi
    rw [← hframe] at hend
    exact ⟨hframe, hremove, trivial, hend, hrep.begin _⟩
  case onceRun i c hi hc =>
    refine ⟨hframe, hremove, (List.getElem?_eq_some_iff.1 hi).1, ?_, hrep⟩
    have hvisit := honce.visit hi
    simp only [onceTurn, onceEntry, hc, if_true, toList_none, map_nil, append_nil] at hvisit
    rw [← hframe, ← onceBook_onceRun, hframe] at hvisit
    exact hvisit
  case onceSkip i c hi hc =>
    exact ⟨hframe, hremove, trivial, honce.skip hi (by simp [onceTurn, onceEntry, hc]), hrep⟩
  case wrapped i m t k f hi =>
    refine ⟨hframe, hremove, trivial, (honce.erase (lt_length_of_running_once hrun hp)).mono, ?_⟩
    simp only [RepeatWalked, repeatBook_wrapped, State.pushRepeat, hframe]
    exact hrep.push (by omega) (by omega) rfl
  case onceDone i => exact ⟨hframe, hremove, trivial, honce.erase (lt_length_of_running_once hrun hp), hrep⟩
  case repeatOver i hi =>
    have hend := hrep.endRound hi
    rw [← hframe] at hend
    exact ⟨hframe, hremove, trivial, honce, hend⟩
  case repeatRun i c hi hc =>
    obtain ⟨hlt, rfl⟩ := List.getElem?_eq_some_iff.1 hi
    refine ⟨hframe, hremove, hlt, honce, ?_⟩
    have hvisit := hrep.visit hi
    simp only [repeatTurn, repeatEntry, hc, if_true, toList_some, map_cons, map_nil] at hvisit
    rw [← hframe, ← repeatBook_repeatRun, hframe] at hvisit
    simp only [RepeatWalked, State.setLast]
    rw [WalkedAt, modify_eq_take_cons_drop hlt, append_cons,
      take_left' (by simp; omega), drop_left' (by simp; omega), map_append]
    exact hvisit
  case repeatSkip i c hi hc =>
    exact ⟨hframe, hremove, trivial, honce, hrep.skip hi (by simp [repeatTurn, repeatEntry, hc])⟩
  case repeatDone i => exact ⟨hframe, hremove, trivial, honce, hrep⟩
  case complete =>
    simp only [State.updateQueues, hremove, foldl_nil]
    exact ⟨hframe, rfl, trivial, honce, hrep⟩

theorem Tracks.of_steps (h : Steps .new es s) (hes : ∀ t n, Event.call (.removeTask t) n ∉ es) : Tracks es s := by
  induction h with
  | nil => exact ⟨rfl, rfl, trivial, Walked.new, Walked.new⟩
  | step h hst ih =>
    have ih := ih fun t n hmem => hes t n (mem_cons_of_mem _ hmem)
    cases hst with
    | call hs => exact ih.call hs fun t ht => hes t _ (by rw [ht]; exact mem_cons_self)
    | begin hs => exact ih.begin hs _
    | next hs => exact ih.next hs

/-! ## The end of a pass -/

def rank (s : State T) : ℕ :=
  match s.phase with
  | .idle => 0
  | .complete => 1
  | .repeatRun i => 2 * (s.repeatTasks.length - i) + 1
  | .repeats i => 2 * (s.repeatTasks.length - i) + 2
  | .onceRun i => 2 * (s.onceTasks.length - i) + 2 * (s.repeatTasks.length + s.onceTasks.length) + 2
  | .once i => 2 * (s.onceTasks.length - i) + 2 * (s.repeatTasks.length + s.onceTasks.length) + 3

theorem next_rank (hrun : Running s) (hs : s.next = some (e, u)) : rank u < rank s := by
  have hnext := next_cases hs
  cases hnext <;> rename_i hp <;> simp only [Running, hp] at hrun <;> simp only [rank, hp]
  case onceOver => omega
  case onceRun => omega
  case onceSkip i c hi hc =>
    have := (List.getElem?_eq_some_iff.1 hi).1
    omega
  case wrapped => simp [State.pushRepeat, length_eraseIdx, hrun]; omega
  case onceDone => simp [length_eraseIdx, hrun]; omega
  case repeatOver => omega
  case repeatRun => omega
  case repeatSkip i c hi hc =>
    have := (List.getElem?_eq_some_iff.1 hi).1
    omega
  case repeatDone => simp [State.setLast]; omega
  case complete => omega

theorem exists_next (hs : s.phase ≠ .idle) : ∃ e u, s.next = some (e, u) := by
  simp only [State.next]
  split <;> (try split) <;> (try split_ifs) <;> first | exact absurd ‹_› hs | exact ⟨_, _, rfl⟩

/-! ## The theorem -/

def onTimeRun : List (Event ℕ) :=
  [.tau, .repeatOver, .tau, .repeatRun 1 8, .onceOver, .tau, .onceRun 0 (.user 7), .begin 4, .tau, .repeatOver, .tau,
    .onceOver, .tau, .begin 0, .call (.runTaskEvery 8 2 0) 1, .call (.runTaskAt 7 3) 0]

end Circuit.Spec.GameTasks
