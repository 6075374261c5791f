import CircuitAI.Impl.BuilderTask

/-!
# Reservations of a builder task

`unmatched` reads the calls of a task as a stack: a call of `DelBlocker` takes away the blocker that was added last and
is still there, and has to name it. `Paired` is what the blocking map relies on.
-/

namespace Circuit.Spec.Reservations

open Impl.BuilderTask
open Impl.TerrainManager (AIFloat3 noPos isValid)

variable {δ : Type*} [DecidableEq δ]

/-- The blockers that are added and not deleted, the last one first; none if a call deletes another one. -/
def unmatched : List (Call δ) → Option (List (Blocker δ))
  | [] => some []
  | .addBlocker b :: calls => (unmatched calls).map (b :: ·)
  | .delBlocker b :: calls =>
    match unmatched calls with
    | some (b' :: bs) => if b = b' then some bs else none
    | _ => none

/-- Blockers are added at valid positions, and each one that is deleted is the last one that is there. -/
structure Paired (t : IBuilderTask δ) : Prop where
  valid : ∀ b, Call.addBlocker b ∈ t.calls → isValid b.pos = true
  matched : ∃ bs, unmatched t.calls = some bs

inductive Op (δ : Type*)
  | execute (o : Outcome)
  | onUnitIdle (o : Outcome)
  | setTarget (unit : Option (Target δ))
  | setBuildPos (pos : AIFloat3)
  | stop (done : Bool)
  | cancel

def Op.run (t : IBuilderTask δ) : Op δ → IBuilderTask δ
  | .execute o => t.execute o
  | .onUnitIdle o => t.onUnitIdle o
  | .setTarget unit => t.setTarget unit
  | .setBuildPos pos => t.setBuildPos pos
  | .stop done => t.stop done
  | .cancel => t.cancel

/-- The tasks after operations that meet the condition. -/
inductive Run (kind : Kind) (buildDef : δ) (ok : IBuilderTask δ → Op δ → Prop) : IBuilderTask δ → Prop
  | new : Run kind buildDef ok (.new kind buildDef)
  | step {t : IBuilderTask δ} {op : Op δ} (h : Run kind buildDef ok t) (hok : ok t op) : Run kind buildDef ok (op.run t)

/-- There is a site for a factory that looks this way, with room in front of it. -/
def passes (o : Outcome) (facing : ℤ) : Bool :=
  isValid (o.findBuildSite facing) && o.isPossibleToBuildAt (posOffset (o.findBuildSite facing) facing) facing

/-- The third facing that a factory task tries. -/
def side (o : Outcome) : ℤ := (opposite o.facing + 1).tmod 4

/-- The facing with which a search ends: for a factory it is the first of four that passes, or the last one if none
does. -/
def facingFor (o : Outcome) : Kind → ℤ
  | .builder => o.facing
  | .factory => ([o.facing, opposite o.facing, side o, opposite (side o)].find? (passes o)).getD (opposite (side o))

/-- If the site that is reserved has to be searched for again, then with the same facing. -/
def KeepsFacing (t : IBuilderTask δ) (o : Outcome) : Prop :=
  t.target = none → isValid t.buildPos = true → o.isPossibleToBuildAt t.buildPos t.facing = false → o.sameAlly = false →
    facingFor o t.kind = t.facing

/-- A reserved site is not searched for again with another facing, and the unit of a task without a target is not idle
more than `TASK_RETRIES` times. -/
def Steady (t : IBuilderTask δ) : Op δ → Prop
  | .execute o => KeepsFacing t o
  | .onUnitIdle o =>
    (t.buildFails + 1 ≤ 2 → KeepsFacing { t with buildFails := t.buildFails + 1 } o) ∧
      (t.target = none → t.buildFails + 1 ≤ IBuilderTask.taskRetries)
  | _ => True

end Circuit.Spec.Reservations
