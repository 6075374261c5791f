import CircuitAI.Impl.ThreatMap

/-!
# Path queries beside the rounds of the threat map

The main thread creates queries, hands them to the path threads and enqueues and applies updates of the threat map; the
worker writes; the path threads read. A query may be dropped before a thread runs it (its `weak_ptr` is gone, or its
scheduler is stopped). A running query may read any index of its array.
-/

namespace Circuit.Spec.ThreatSnapshots

open Framework Impl.ThreatMap

variable {K : Type*} [Field K] [LinearOrder K] [FloorRing K]

inductive Event (K : Type*)
  | tau
  /-- A query is created; the array it got has these values. -/
  | create (q : Query) (array : ℤ → K)
  | start (slot : Slot)
  /-- The worker writes a cell of this buffer. -/
  | write (slot : Slot)
  | read (q : Query) (index : ℤ) (v : K)
  /-- The query reads `threatFun(index)`. -/
  | cost (q : Query) (index : ℤ) (v : K)

inductive Step (env : Env K) (maxPathThreads : ℕ) (s : State K) : Event K → State K → Prop
  | enqueueUpdate {sector : ℤ → Sector K} {hostileDatas peaceDatas : List (EnemyData K)} (h : s.worker = .idle)
    (hu : s.isUpdating = false) : Step env maxPathThreads s .tau (s.enqueueUpdate sector hostileDatas peaceDatas)
  | startUpdate {sector : ℤ → Sector K} {hostileDatas peaceDatas : List (EnemyData K)}
    (h : s.worker = .queued sector hostileDatas peaceDatas) :
    Step env maxPathThreads s (.start s.threatData.next)
      (s.startUpdate (env.update sector hostileDatas peaceDatas))
  | write {w : Write K} {rest : List (Write K)} (h : s.worker = .writing (w :: rest)) :
    Step env maxPathThreads s (.write s.drawArrays) (s.write w rest)
  | finishUpdate (h : s.worker = .writing []) : Step env maxPathThreads s .tau { s with worker := .finished }
  | apply (h : s.worker = .finished) : Step env maxPathThreads s .tau s.apply
  | createQuery {u : PathUnit K} :
    Step env maxPathThreads s (.create (s.query u) (s.threatAt (s.query u))) (s.createQuery u)
  | runQuery {q : Query} (h : q ∈ s.created) :
    Step env maxPathThreads s .tau { s with created := s.created.erase q, pathTasks := s.pathTasks ++ [q] }
  | dropCreated {q : Query} (h : q ∈ s.created) :
    Step env maxPathThreads s .tau { s with created := s.created.erase q }
  | pop {q : Query} {rest : List Query} (h : s.pathTasks = q :: rest) (hm : s.running.length < maxPathThreads) :
    Step env maxPathThreads s .tau { s with pathTasks := rest, running := q :: s.running }
  | dropPopped {q : Query} {rest : List Query} (h : s.pathTasks = q :: rest) :
    Step env maxPathThreads s .tau { s with pathTasks := rest }
  | read {q : Query} {index : ℤ} (h : q ∈ s.running) :
    Step env maxPathThreads s (.read q index (s.threatAt q index)) s
  | cost {q : Query} {index : ℤ} (h : q ∈ s.running) :
    Step env maxPathThreads s (.cost q index (s.threatFun q index)) s
  | finishQuery {q : Query} (h : q ∈ s.running) :
    Step env maxPathThreads s .tau { s with running := s.running.erase q }

/-- The events, the last one first, and the state of the runs whose steps meet the condition. -/
inductive Run (env : Env K) (maxPathThreads : ℕ) (ok : State K → Event K → Prop) : List (Event K) → State K → Prop
  | new : Run env maxPathThreads ok [] .new
  | step {s t : State K} {es : List (Event K)} {e : Event K} (h : Run env maxPathThreads ok es s) (hok : ok s e)
    (hst : Step env maxPathThreads s e t) : Run env maxPathThreads ok (e :: es) t

/-- The queries from their creation to the end of their execution. -/
def live (s : State K) : List Query := s.created ++ s.pathTasks ++ s.running

/-- The values that the array of a query had when the query was created. -/
def snapshot (id : ℕ) : List (Event K) → Option (ℤ → K)
  | [] => none
  | .create q array :: es => if q.id = id then some array else snapshot id es
  | _ :: es => snapshot id es

/-- The worker begins to write a buffer only when every query that got an array of it has ended. -/
def Drained (s : State K) (e : Event K) : Prop := ∀ slot, e = .start slot → ∀ q ∈ live s, q.slot ≠ slot

/-- What a query reads is in its snapshot, and what the worker writes is no buffer of a query that has not ended. -/
structure Isolated (s : State K) (es : List (Event K)) (e : Event K) : Prop where
  read : ∀ q index v, e = .read q index v → ∃ array, snapshot q.id es = some array ∧ v = array index
  cost : ∀ q index v, e = .cost q index v → ∃ array, snapshot q.id es = some array ∧ v = q.factor * array index
  write : ∀ slot, e = .write slot → ∀ q ∈ live s, q.slot ≠ slot

end Circuit.Spec.ThreatSnapshots
