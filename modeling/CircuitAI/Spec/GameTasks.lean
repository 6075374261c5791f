import CircuitAI.Impl.GameTasks
import Mathlib.Tactic.SplitIfs

/-!
# Runs of the game tasks

A run with its events, the last one first. A registration is the list element that it makes, and what it asks for is read
off the events: the target frame of a once task (`onceTarget`), the interval of a repeat task and the last frame when it
took effect (`repeatStart`). For such an element the events tell in which passes the loop over its list ended after the
registration (`oncePasses`, `repeatPasses`), and in which passes it was run (`onceRuns`, `repeatRuns`); these lists are in
the order of time.
-/

namespace Circuit.Spec.GameTasks

open Impl.GameTasks

variable {T : Type*} [DecidableEq T]

inductive Steps (s : State T) : List (Event T) → State T → Prop
  | nil : Steps s [] s
  | step {es : List (Event T)} {e : Event T} {t u : State T} (h : Steps s es t) (hst : Step t e u) : Steps s (e :: es) u

/-- The steps of `ProcessTasks`, by cases. -/
inductive Next (s : State T) : Event T → State T → Prop
  | onceOver {i : ℕ} (hi : s.onceTasks[i]? = none) (hp : s.phase = .once i) : Next s .onceOver { s with phase := .repeats 0 }
  | onceRun {i : ℕ} {c : OnceTask T} (hi : s.onceTasks[i]? = some c) (hc : c.frame ≤ s.lastFrame) (hp : s.phase = .once i) :
    Next s (.onceRun c.node c.task) { s with phase := .onceRun i }
  | onceSkip {i : ℕ} {c : OnceTask T} (hi : s.onceTasks[i]? = some c) (hc : ¬ c.frame ≤ s.lastFrame)
    (hp : s.phase = .once i) : Next s .tau { s with phase := .once (i + 1) }
  | wrapped {i m : ℕ} {t : T} {k f : ℤ} (hi : s.onceTasks[i]? = some ⟨m, .wrapper t k, f⟩) (hp : s.phase = .onceRun i) :
    Next s (.wrapped s.nodes t k) (State.pushRepeat { s with onceTasks := s.onceTasks.eraseIdx i, phase := .once i } t k)
  | onceDone {i : ℕ} (hp : s.phase = .onceRun i) :
    Next s .tau { s with onceTasks := s.onceTasks.eraseIdx i, phase := .once i }
  | repeatOver {i : ℕ} (hi : s.repeatTasks[i]? = none) (hp : s.phase = .repeats i) :
    Next s .repeatOver { s with phase := .complete }
  | repeatRun {i : ℕ} {c : RepeatTask T} (hi : s.repeatTasks[i]? = some c)
    (hc : c.frameInterval ≤ s.lastFrame - c.lastFrame) (hp : s.phase = .repeats i) :
    Next s (.repeatRun c.node c.task) { s with phase := .repeatRun i }
  | repeatSkip {i : ℕ} {c : RepeatTask T} (hi : s.repeatTasks[i]? = some c)
    (hc : ¬ c.frameInterval ≤ s.lastFrame - c.lastFrame) (hp : s.phase = .repeats i) :
    Next s .tau { s with phase := .repeats (i + 1) }
  | repeatDone {i : ℕ} (hp : s.phase = .repeatRun i) : Next s .tau { s.setLast i with phase := .repeats (i + 1) }
  | complete (hp : s.phase = .complete) : Next s .tau { s.updateQueues with isProcessing := false, phase := .idle }

theorem next_cases {s u : State T} {e : Event T} (h : s.next = some (e, u)) : Next s e u := by
  simp only [State.next] at h
  split at h
  case h_1 => simp at h
  case h_2 hp =>
    split at h
    · cases h; exact .onceOver ‹_› hp
    · split_ifs at h with hc <;> cases h
      · exact .onceRun ‹_› hc hp
      · exact .onceSkip ‹_› hc hp
  case h_3 hp =>
    split at h <;> cases h
    · exact .wrapped ‹_› hp
    · exact .onceDone hp
  case h_4 hp =>
    split at h
    · cases h; exact .repeatOver ‹_› hp
    · split_ifs at h with hc <;> cases h
      · exact .repeatRun ‹_› hc hp
      · exact .repeatSkip ‹_› hc hp
  case h_5 hp => cases h; exact .repeatDone hp
  case h_6 hp => cases h; exact .complete hp

/-! ## On time -/

/-- The frame of the last pass. -/
def frameOf : List (Event T) → ℤ
  | [] => -1
  | .begin frame :: _ => frame
  | _ :: es => frameOf es

def target (lastFrame : ℤ) : Call T → Option (GameTask T × ℤ)
  | .runTaskAt t frame => some (.user t, frame)
  | .runTaskAfter t frame => some (.user t, lastFrame + frame)
  | .runTaskEvery t frameInterval frameOffset =>
    if 0 < frameOffset then some (.wrapper t frameInterval, lastFrame + frameOffset) else none
  | .removeTask _ => none

def interval : Call T → Option (T × ℤ)
  | .runTaskEvery t frameInterval frameOffset => if 0 < frameOffset then none else some (t, frameInterval)
  | _ => none

def onceTarget (n : ℕ) : List (Event T) → Option (GameTask T × ℤ)
  | [] => none
  | .call c m :: es => (if m = n then target (frameOf es) c else none).or (onceTarget n es)
  | _ :: es => onceTarget n es

/-- The task, the interval and the last frame when the registration took effect. -/
def repeatStart (n : ℕ) : List (Event T) → Option ((T × ℤ) × ℤ)
  | [] => none
  | .call c m :: es => (if m = n then (interval c).map (·, frameOf es) else none).or (repeatStart n es)
  | .wrapped m t frameInterval :: es => if m = n then some ((t, frameInterval), frameOf es) else repeatStart n es
  | _ :: es => repeatStart n es

def oncePasses (n : ℕ) : List (Event T) → List ℤ
  | [] => []
  | .onceOver :: es => oncePasses n es ++ if (onceTarget n es).isSome then [frameOf es] else []
  | _ :: es => oncePasses n es

def repeatPasses (n : ℕ) : List (Event T) → List ℤ
  | [] => []
  | .repeatOver :: es => repeatPasses n es ++ if (repeatStart n es).isSome then [frameOf es] else []
  | _ :: es => repeatPasses n es

def onceRuns (n : ℕ) : List (Event T) → List (GameTask T × ℤ)
  | [] => []
  | .onceRun m task :: es => onceRuns n es ++ if m = n then [(task, frameOf es)] else []
  | _ :: es => onceRuns n es

def repeatRuns (n : ℕ) : List (Event T) → List (T × ℤ)
  | [] => []
  | .repeatRun m t :: es => repeatRuns n es ++ if m = n then [(t, frameOf es)] else []
  | _ :: es => repeatRuns n es

/-- The passes in which a repeat task is due: at least the interval after the last one, or after `last`. -/
def due (frameInterval last : ℤ) : List ℤ → List ℤ
  | [] => []
  | frame :: frames =>
    if frameInterval ≤ frame - last then frame :: due frameInterval frame frames else due frameInterval last frames

/-- The loop over `onceTasks` is under way. -/
def InOnce (s : State T) : Prop := ∃ i, s.phase = .once i ∨ s.phase = .onceRun i

/-- The loop over `repeatTasks` is under way. -/
def InRepeat (s : State T) : Prop := ∃ i, s.phase = .repeats i ∨ s.phase = .repeatRun i

/-! ## Removal -/

def Registers (t : T) : Event T → Prop
  | .call (.runTaskAt t' _) _ => t' = t
  | .call (.runTaskAfter t' _) _ => t' = t
  | .call (.runTaskEvery t' _ _) _ => t' = t
  | _ => False

def Runs (t : T) : Event T → Prop
  | .onceRun _ task => task = .user t
  | .repeatRun _ t' => t' = t
  | _ => False

def Waits (t : T) (s : State T) : Prop := ∃ c ∈ s.onceTasks, ∃ frameInterval, c.task = .wrapper t frameInterval

end Circuit.Spec.GameTasks
