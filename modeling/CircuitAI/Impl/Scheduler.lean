import Mathlib.Logic.Function.Basic
import Mathlib.Data.Int.Notation
import Mathlib.Data.Nat.Notation

/-!
# Schedulers and their threads

`CScheduler`: the main thread hands tasks to a worker thread and to the path threads through two shared queues, and the
threads hand the callbacks back through two queues of the scheduler. `Thread` is the program of `WorkerThread` and
`PatherThread` (one program with the `Kind` as parameter), `Step` an interleaving of these threads with the main thread.
An operation on a queue, a barrier or an atomic flag is one step, and so are the start and the end of a task. A step that
a reader of a run may ask about has an `Event`.
-/

namespace Circuit.Impl.Scheduler

open Function

/-! ## Queues -/

/-- The loop of `CMultiQueue::RemoveAllIf`: `kept` is what lies before the iterator. -/
def removeLoop {β : Type*} (condition : β → Bool) : ℕ → List β → List β → List β
  | 0, kept, rest => kept ++ rest
  | _ + 1, kept, [] => kept
  | fuel + 1, kept, item :: rest =>
    if condition item then
      -- the last item takes the place of the removed one
      match rest.getLast? with
      | some back => removeLoop condition fuel kept (back :: rest.dropLast)
      | none => kept
    else removeLoop condition fuel (kept ++ [item]) rest

def removeAllIf {β : Type*} (condition : β → Bool) (queue : List β) : List β :=
  removeLoop condition queue.length [] queue

/-! ## State -/

inductive Kind
  | work
  | path
  deriving DecidableEq, Repr

/-- A `WorkTask` or `PathTask` of the scheduler `owner`; the one that wakes a thread up has no task. -/
structure Item (σ T : Type*) where
  owner : σ
  task : Option T
  onComplete : Bool
  deriving DecidableEq, Repr

/-- Where a thread is in its loop. -/
inductive Pc (σ T : Type*)
  | loop
  | pop
  | popped (i : Item σ T)
  | marked (i : Item σ T)
  | running (i : Item σ T)
  | finished (i : Item σ T)
  | leaving (owner : σ)
  | exited
  deriving DecidableEq, Repr

/-- Where the main thread is; `m` tells how many threads are still to be woken. -/
inductive Main (σ T : Type*)
  | idle
  | push (k : Kind) (i : Item σ T)
  | remove (S : σ) (k : Kind)
  | shutdown (S : σ)
  | wake (S : σ) (k : Kind) (m : ℕ)
  | join (S : σ) (k : Kind)
  | clearQueue (S : σ) (k : Kind)
  | wait (S : σ)
  | clearComplete (S : σ) (k : Kind)
  deriving DecidableEq, Repr

/-- `workTasks` comes before `pathTasks`. -/
def Main.afterRemove {σ T : Type*} (S : σ) : Kind → Main σ T
  | .work => .remove S .path
  | .path => .shutdown S

/-- The worker is stopped before the `m` path threads. -/
def Main.afterClear {σ T : Type*} (S : σ) (m : ℕ) : Kind → Main σ T
  | .work => .wake S .path m
  | .path => .wait S

structure Lane (σ T : Type*) where
  queue : List (Item σ T)
  threads : List (Pc σ T)
  process : σ → ℤ
  complete : σ → List (Item σ T)

structure State (σ T : Type*) where
  lane : Kind → Lane σ T
  workerRunning : Bool
  counterInstance : ℕ
  schedulers : List σ
  isRunning : σ → Bool
  main : Main σ T

inductive Event (σ T : Type*)
  | tau
  | queue (k : Kind) (i : Item σ T)
  | start (k : Kind) (i : Item σ T)
  | append (k : Kind) (i : Item σ T)
  | expire (k : Kind) (i : Item σ T)
  | returned (S : σ)
  deriving DecidableEq, Repr

variable {σ T : Type*} [DecidableEq σ]

/-- What the first `NotifyOne` does to `isWorkProcess` or `numPathProcess`. -/
def Kind.mark : Kind → ℤ → ℤ
  | .work, _ => 1
  | .path, m => m + 1

/-- What the second `NotifyOne` does to `isWorkProcess` or `numPathProcess`. -/
def Kind.unmark : Kind → ℤ → ℤ
  | .work, _ => 0
  | .path, m => m - 1

/-- How many threads `StartThreads` starts. -/
def Kind.threads (maxPathThreads : ℕ) : Kind → ℕ
  | .work => 1
  | .path => maxPathThreads

namespace State

/-- Before any scheduler is constructed. -/
def new : State σ T where
  lane _ := ⟨[], [], fun _ => 0, fun _ => []⟩
  workerRunning := false
  counterInstance := 0
  schedulers := []
  isRunning _ := false
  main := .idle

def setLane (s : State σ T) (k : Kind) (lane : Lane σ T) : State σ T :=
  { s with lane := update s.lane k lane }

def pushQueue (s : State σ T) (k : Kind) (i : Item σ T) : State σ T :=
  s.setLane k { s.lane k with queue := (s.lane k).queue ++ [i] }

def setComplete (s : State σ T) (k : Kind) (S : σ) (l : List (Item σ T)) : State σ T :=
  s.setLane k { s.lane k with complete := update (s.lane k).complete S l }

def construct (s : State σ T) (S : σ) : State σ T :=
  { s with
    counterInstance := s.counterInstance + 1
    schedulers := S :: s.schedulers
    isRunning := update s.isRunning S true }

def startThreads (maxPathThreads : ℕ) (s : State σ T) : State σ T :=
  if s.workerRunning then s
  else
    { s with
      workerRunning := true
      lane := fun k =>
        { s.lane k with threads := (s.lane k).threads ++ List.replicate (k.threads maxPathThreads) .loop } }

end State

/-! ## Programs -/

/-- One step of a thread: the event, the next place in the loop and the lane afterwards. -/
inductive Thread (s : State σ T) (k : Kind) : Pc σ T → Event σ T → Pc σ T → Lane σ T → Prop
  | loop : Thread s k .loop .tau (if s.workerRunning then .pop else .exited) (s.lane k)
  | pop {i : Item σ T} {q : List (Item σ T)} (h : (s.lane k).queue = i :: q) :
    Thread s k .pop .tau (.popped i) { s.lane k with queue := q }
  -- the locks of the weak pointers fail if the query is gone, or the scheduler after its release
  | expire {i : Item σ T} (hk : k = .path) : Thread s k (.popped i) (.expire k i) .loop (s.lane k)
  | unlocked {i : Item σ T} (h : s.isRunning i.owner = false) : Thread s k (.popped i) .tau .loop (s.lane k)
  | mark {i : Item σ T} (hk : k = .path → i.task.isSome) :
    Thread s k (.popped i) .tau (.marked i)
      { s.lane k with
        process := update (s.lane k).process i.owner (k.mark ((s.lane k).process i.owner)) }
  | start {i : Item σ T} (h : s.isRunning i.owner = true) :
    Thread s k (.marked i) (.start k i) (.running i) (s.lane k)
  | skip {i : Item σ T} (h : s.isRunning i.owner = false) :
    Thread s k (.marked i) .tau (.leaving i.owner) (s.lane k)
  | finish {i : Item σ T} :
    Thread s k (.running i) .tau (if i.onComplete then .finished i else .leaving i.owner) (s.lane k)
  | complete {i : Item σ T} :
    Thread s k (.finished i) (.append k i) (.leaving i.owner)
      { s.lane k with
        complete := update (s.lane k).complete i.owner ((s.lane k).complete i.owner ++ [i]) }
  | unmark {S : σ} :
    Thread s k (.leaving S) .tau .loop
      { s.lane k with process := update (s.lane k).process S (k.unmark ((s.lane k).process S)) }

inductive MainStep (maxPathThreads : ℕ) (s : State σ T) : Event σ T → State σ T → Prop
  | construct {S : σ} (hm : s.main = .idle) (hS : S ∉ s.schedulers) : MainStep maxPathThreads s .tau (s.construct S)
  -- `RunParallelTask` and `RunPathTask`
  | runTask {k : Kind} {i : Item σ T} (hm : s.main = .idle) (hi : i.owner ∈ s.schedulers) (ht : i.task.isSome) :
    MainStep maxPathThreads s .tau { s.startThreads maxPathThreads with main := .push k i }
  | push {k : Kind} {i : Item σ T} (hm : s.main = .push k i) :
    MainStep maxPathThreads s (.queue k i) { s.pushQueue k i with main := .idle }
  -- the end of `ProcessTasks`
  | popAndProcess {S : σ} {i : Item σ T} {q : List (Item σ T)} (hm : s.main = .idle)
    (h : (s.lane .work).complete S = i :: q) : MainStep maxPathThreads s .tau (s.setComplete .work S q)
  | popAndProcessAll {S : σ} (hm : s.main = .idle) : MainStep maxPathThreads s .tau (s.setComplete .path S [])
  -- `Release`
  | released {S : σ} (hm : s.main = .idle) (hS : S ∈ s.schedulers) (h : s.isRunning S = false) :
    MainStep maxPathThreads s (.returned S) s
  | release {S : σ} (hm : s.main = .idle) (h : s.isRunning S = true) :
    MainStep maxPathThreads s .tau
      { s with
        isRunning := update s.isRunning S false
        counterInstance := s.counterInstance - 1
        main := .remove S .work }
  | remove {S : σ} {k : Kind} (hm : s.main = .remove S k) :
    MainStep maxPathThreads s .tau
      { s.setLane k { s.lane k with queue := removeAllIf (·.owner = S) (s.lane k).queue } with
        main := .afterRemove S k }
  | shutdown {S : σ} (hm : s.main = .shutdown S) (h : s.counterInstance = 0 ∧ s.workerRunning = true) :
    MainStep maxPathThreads s .tau { s with workerRunning := false, main := .wake S .work 1 }
  | noShutdown {S : σ} (hm : s.main = .shutdown S) (h : ¬ (s.counterInstance = 0 ∧ s.workerRunning = true)) :
    MainStep maxPathThreads s .tau { s with main := .wait S }
  | wake {S : σ} {k : Kind} {m : ℕ} (hm : s.main = .wake S k (m + 1)) :
    MainStep maxPathThreads s .tau { s.pushQueue k ⟨S, none, false⟩ with main := .wake S k m }
  | woken {S : σ} {k : Kind} (hm : s.main = .wake S k 0) :
    MainStep maxPathThreads s .tau { s with main := .join S k }
  | join {S : σ} {k : Kind} (hm : s.main = .join S k) (h : ∀ p ∈ (s.lane k).threads, p = .exited) :
    MainStep maxPathThreads s .tau
      { s.setLane k { s.lane k with threads := [] } with main := .clearQueue S k }
  | clearQueue {S : σ} {k : Kind} (hm : s.main = .clearQueue S k) :
    MainStep maxPathThreads s .tau
      { s.setLane k { s.lane k with queue := [] } with
        main := .afterClear S (s.lane .path).threads.length k }
  | wait {S : σ} (hm : s.main = .wait S) (h : (s.lane .work).process S = 0 ∧ (s.lane .path).process S = 0) :
    MainStep maxPathThreads s .tau { s with main := .clearComplete S .work }
  | clearFinish {S : σ} (hm : s.main = .clearComplete S .work) :
    MainStep maxPathThreads s .tau { s.setComplete .work S [] with main := .clearComplete S .path }
  | clearPathed {S : σ} (hm : s.main = .clearComplete S .path) :
    MainStep maxPathThreads s (.returned S) { s.setComplete .path S [] with main := .idle }

inductive Step (maxPathThreads : ℕ) (s : State σ T) : Event σ T → State σ T → Prop
  | main {e : Event σ T} {t : State σ T} (h : MainStep maxPathThreads s e t) : Step maxPathThreads s e t
  | thread {k : Kind} {p p' : Pc σ T} {l₁ l₂ : List (Pc σ T)} {e : Event σ T} {lane : Lane σ T}
    (hp : (s.lane k).threads = l₁ ++ p :: l₂) (h : Thread s k p e p' lane) :
    Step maxPathThreads s e (s.setLane k { lane with threads := l₁ ++ p' :: l₂ })

end Circuit.Impl.Scheduler
