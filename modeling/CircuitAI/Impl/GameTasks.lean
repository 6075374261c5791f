import Mathlib.Data.Int.Notation
import Mathlib.Data.Nat.Notation

/-!
# Game tasks of the scheduler (`util/Scheduler.cpp`)

The lists `onceTasks` and `repeatTasks` of a `CScheduler`, the calls that change them and `ProcessTasks`, which goes
through both. The tasks it runs may make any calls, so that the lists change under its iterators: a pass is a sequence of
steps (`State.next`), and while a task runs (`State.calls`) calls come between them.

The task that `RunTaskEvery` makes for an offset is one of its own (`GameTask.wrapper`). An iterator is the number of
elements before it; `node` is the address of a list element. The parameter `frame` of `ProcessTasks` is `lastFrame`.
-/

namespace Circuit.Impl.GameTasks

inductive GameTask (T : Type*)
  | user (t : T)
  /-- The lambda of `RunTaskEvery`. -/
  | wrapper (t : T) (frameInterval : ℤ)
  deriving DecidableEq

def GameTask.isUser {T : Type*} : GameTask T → Bool
  | .user _ => true
  | .wrapper _ _ => false

structure OnceTask (T : Type*) where
  node : ℕ
  task : GameTask T
  frame : ℤ
  deriving DecidableEq

structure RepeatTask (T : Type*) where
  node : ℕ
  task : T
  frameInterval : ℤ
  lastFrame : ℤ
  deriving DecidableEq

inductive Phase
  /-- Not in `ProcessTasks`. -/
  | idle
  /-- Before the test of the loop over `onceTasks`. -/
  | once (i : ℕ)
  | onceRun (i : ℕ)
  /-- Before the test of the loop over `repeatTasks`. -/
  | repeats (i : ℕ)
  | repeatRun (i : ℕ)
  /-- In the callbacks of parallel tasks. -/
  | complete
  deriving DecidableEq

structure State (T : Type*) where
  lastFrame : ℤ
  isProcessing : Bool
  onceTasks : List (OnceTask T)
  repeatTasks : List (RepeatTask T)
  removeTasks : List T
  /-- How many list elements have been made. -/
  nodes : ℕ
  phase : Phase

inductive Call (T : Type*)
  | runTaskAt (t : T) (frame : ℤ)
  | runTaskAfter (t : T) (frame : ℤ)
  | runTaskEvery (t : T) (frameInterval frameOffset : ℤ)
  | removeTask (t : T)
  deriving DecidableEq

inductive Event (T : Type*)
  /-- A call; a registration makes the element `node`. -/
  | call (c : Call T) (node : ℕ)
  /-- `ProcessTasks` is called. -/
  | begin (frame : ℤ)
  | onceRun (node : ℕ) (task : GameTask T)
  /-- A wrapper returns; it has made the element `node` of `repeatTasks`. -/
  | wrapped (node : ℕ) (t : T) (frameInterval : ℤ)
  | onceOver
  | repeatRun (node : ℕ) (t : T)
  | repeatOver
  | tau
  deriving DecidableEq

variable {T : Type*} [DecidableEq T]

namespace State

/-- `CScheduler()`. -/
def new : State T := ⟨-1, false, [], [], [], 0, .idle⟩

def pushOnce (s : State T) (task : GameTask T) (frame : ℤ) : State T :=
  { s with onceTasks := s.onceTasks ++ [⟨s.nodes, task, frame⟩], nodes := s.nodes + 1 }

def pushRepeat (s : State T) (t : T) (frameInterval : ℤ) : State T :=
  { s with repeatTasks := s.repeatTasks ++ [⟨s.nodes, t, frameInterval, s.lastFrame⟩], nodes := s.nodes + 1 }

def remove (s : State T) (t : T) : State T :=
  { s with
    onceTasks := s.onceTasks.filter (·.task ≠ .user t)
    repeatTasks := s.repeatTasks.filter (·.task ≠ t) }

def call (s : State T) : Call T → State T
  | .runTaskAt t frame => s.pushOnce (.user t) frame
  | .runTaskAfter t frame => s.pushOnce (.user t) (s.lastFrame + frame)
  | .runTaskEvery t frameInterval frameOffset =>
    if 0 < frameOffset then s.pushOnce (.wrapper t frameInterval) (s.lastFrame + frameOffset)
    else s.pushRepeat t frameInterval
  | .removeTask t => if s.isProcessing then { s with removeTasks := s.removeTasks ++ [t] } else s.remove t

/-- Calls are made outside `ProcessTasks`, by the task that runs, or by a callback. -/
def calls (s : State T) : Bool :=
  match s.phase with
  | .idle => true
  | .onceRun i => s.onceTasks[i]?.any (·.task.isUser)
  | .repeatRun _ => true
  | .complete => true
  | _ => false

/-- The start of `ProcessTasks`. -/
def begin (s : State T) (frame : ℤ) : State T :=
  { s with isProcessing := true, lastFrame := frame, phase := .once 0 }

def updateQueues (s : State T) : State T := { s.removeTasks.foldl State.remove s with removeTasks := [] }

/-- `container.lastFrame = frame`. -/
def setLast (s : State T) (i : ℕ) : State T :=
  { s with repeatTasks := s.repeatTasks.modify i fun c => { c with lastFrame := s.lastFrame } }

/-- The next step of `ProcessTasks`; a task that runs returns. -/
def next (s : State T) : Option (Event T × State T) :=
  match s.phase with
  | .idle => none
  | .once i =>
    match s.onceTasks[i]? with
    | none => some (.onceOver, { s with phase := .repeats 0 })
    | some c =>
      if c.frame ≤ s.lastFrame then some (.onceRun c.node c.task, { s with phase := .onceRun i })
      else some (.tau, { s with phase := .once (i + 1) })
  | .onceRun i =>
    let t := { s with onceTasks := s.onceTasks.eraseIdx i, phase := .once i }
    match s.onceTasks[i]? with
    | some ⟨_, .wrapper task frameInterval, _⟩ =>
      some (.wrapped s.nodes task frameInterval, t.pushRepeat task frameInterval)
    | _ => some (.tau, t)
  | .repeats i =>
    match s.repeatTasks[i]? with
    | none => some (.repeatOver, { s with phase := .complete })
    | some c =>
      if c.frameInterval ≤ s.lastFrame - c.lastFrame then
        some (.repeatRun c.node c.task, { s with phase := .repeatRun i })
      else some (.tau, { s with phase := .repeats (i + 1) })
  | .repeatRun i => some (.tau, { s.setLast i with phase := .repeats (i + 1) })
  | .complete => some (.tau, { s.updateQueues with isProcessing := false, phase := .idle })

end State

inductive Step (s : State T) : Event T → State T → Prop
  | call {c : Call T} (h : s.calls = true) : Step s (.call c s.nodes) (s.call c)
  | begin {frame : ℤ} (h : s.phase = .idle) : Step s (.begin frame) (s.begin frame)
  | next {e : Event T} {t : State T} (h : s.next = some (e, t)) : Step s e t

end Circuit.Impl.GameTasks
