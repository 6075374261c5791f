import CircuitAI.Impl.InfluenceMap

/-!
# Rounds of the influence map

An update is enqueued when the last one is applied; the worker draws the enemies, write by write, while the main thread
may read; then the main thread applies the update. A run begins with the constructor, for any content of the memory that
it leaves as it is.
-/

namespace Circuit.Spec.InfluenceRounds

open Framework Impl.InfluenceMap

variable {K : Type*} [Field K] [LinearOrder K] [FloorRing K]

inductive Event (K : Type*)
  | tau
  /-- `Update` begins, with these enemies. -/
  | update (hostileDatas : List (EnemyData K))
  | apply (units : List (AllyUnit K))

inductive Step (env : Env K) (s : State K) : Event K → State K → Prop
  | enqueueUpdate {hostileDatas : List (EnemyData K)} (h : s.worker = .idle) (hu : s.isUpdating = false) :
    Step env s .tau (s.enqueueUpdate hostileDatas)
  | startUpdate {hostileDatas : List (EnemyData K)} (h : s.worker = .queued hostileDatas) :
    Step env s (.update hostileDatas) (s.startUpdate (env.update hostileDatas))
  | write {w : Write K} {rest : List (Write K)} (h : s.worker = .writing (w :: rest)) :
    Step env s .tau (s.write w rest)
  | finishUpdate (h : s.worker = .writing []) : Step env s .tau { s with worker := .finished }
  | apply {units : List (AllyUnit K)} (h : s.worker = .finished) : Step env s (.apply units) (s.apply env units)

/-- The events, the last one first, and the state of the runs from the constructor. -/
inductive Run (env : Env K) (memory : Option Slot) : List (Event K) → State K → Prop
  | new : Run env memory [] (.new memory)
  | step {s t : State K} {es : List (Event K)} {e : Event K} (h : Run env memory es s) (hst : Step env s e t) :
    Run env memory (e :: es) t

def lastUpdate : List (Event K) → Option (List (EnemyData K))
  | [] => none
  | .update hostileDatas :: _ => some hostileDatas
  | _ :: es => lastUpdate es

/-- The layers that `Update` computes, and `Apply` completes, from the base value in every cell. -/
def computed (env : Env K) (hostileDatas : List (EnemyData K)) (units : List (AllyUnit K)) : InfluenceData K :=
  (env.update hostileDatas ++ env.applyAllies units).foldl Write.run fun _ _ => inflBase

/-- The buffer that `Update` prepares, and the one it is writing, are not the one that the getters read. -/
structure Apart (s : State K) : Prop where
  next : s.getNextInflData ≠ s.arrays
  writing : ∀ rest, s.worker = .writing rest → s.drawArrays ≠ s.arrays

end Circuit.Spec.InfluenceRounds
