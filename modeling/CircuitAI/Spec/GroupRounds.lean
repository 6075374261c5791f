import CircuitAI.Impl.EnemyGroups

/-!
# Rounds of the enemy groups

The enemies are collected and an update is enqueued only when the last one is applied; the worker prepares the next
buffer and runs k-means in it; the main thread applies it. The events say which buffer a step writes, from which groups
a round starts and which groups it publishes.
-/

namespace Circuit.Spec.GroupRounds

open Framework Impl.EnemyGroups
open Impl.TerrainManager (AIFloat3)

variable {ρ : Type*} [DecidableEq ρ]

inductive Event (ρ : Type*)
  | enqueue
  /-- `Prepare` writes the buffer `slot`; the round starts from `groups`. -/
  | prepare (slot : Slot) (groups : List (EnemyGroup ρ))
  /-- `KMeansIteration` writes the buffer `slot`. -/
  | update (slot : Slot)
  | apply (groups : List (EnemyGroup ρ))

/-- The buffer that the worker writes in a step. -/
def Event.written : Event ρ → Option Slot
  | .prepare slot _ => some slot
  | .update slot => some slot
  | _ => none

inductive Step (mod : InitThrMod) (s : State ρ) : Event ρ → State ρ → Prop
  | enqueue {hostileDatas peaceDatas : List (EnemyData ρ)} (h : s.worker = .idle) (hu : s.isUpdating = false) :
    Step mod s .enqueue (s.enqueueUpdate hostileDatas peaceDatas)
  | prepare (h : s.worker = .queued) :
    Step mod s (.prepare s.groupData.next (s.prepare.groupData.get s.groupData.next).enemyGroups) s.prepare
  | update (h : s.worker = .prepared) : Step mod s (.update s.groupData.next) (s.update mod)
  | apply (h : s.worker = .finished) : Step mod s (.apply s.apply.getEnemyGroups) s.apply

/-- The events of a run, the last one first, and the state it leads to. -/
inductive Run (mod : InitThrMod) (enemyPos : AIFloat3) : List (Event ρ) → State ρ → Prop
  | new : Run mod enemyPos [] (.new enemyPos)
  | step {s t : State ρ} {es : List (Event ρ)} {e : Event ρ} (h : Run mod enemyPos es s) (hst : Step mod s e t) :
    Run mod enemyPos (e :: es) t

/-- The groups that were published last; at first, those of the constructor. -/
def published (enemyPos : AIFloat3) : List (Event ρ) → List (EnemyGroup ρ)
  | [] => [.new enemyPos]
  | .apply groups :: _ => groups
  | _ :: es => published enemyPos es

/-- The step writes a buffer other than the one that `GetEnemyGroups` returns, and a round starts from the groups that
were published last. -/
def Buffered (enemyPos : AIFloat3) (es : List (Event ρ)) (e : Event ρ) : Prop :=
  e.written ≠ some State.groupSlot ∧ ∀ slot groups, e = .prepare slot groups → groups = published enemyPos es

end Circuit.Spec.GroupRounds
