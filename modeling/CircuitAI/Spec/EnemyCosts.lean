import CircuitAI.Spec.EnemyRuns
import Mathlib.Algebra.BigOperators.Group.Finset.Basic

/-!
# What the sums over the enemies are meant to be

`CEnemyManager` keeps one cost and one threat for each role and three sums over all roles (`Total`). Each is meant to
be the sum of what its enemies weigh, over the enemies that entered the line of sight and were not destroyed since
(`seen`).
-/

namespace Circuit.Spec.EnemyRuns

open Impl.Enemies

variable {α ρ : Type*} [DecidableEq α]

/-- The sums that are kept. -/
inductive Total (ρ : Type*)
  | roleCost (r : ρ)
  | roleThreat (r : ρ)
  | mobileCost
  | mobileThreat
  | staticThreat

/-- A sum as `CEnemyManager` has it. -/
def total (s : State α ρ) : Total ρ → ℚ
  | .roleCost r => s.roleCost r
  | .roleThreat r => s.roleThreat r
  | .mobileCost => s.enemyMobileCost
  | .mobileThreat => s.mobileThreat
  | .staticThreat => s.staticThreat

/-- What of an enemy bears on the sums. -/
structure Entry (ρ : Type*) where
  cdef : Option (CircuitDef ρ)
  cost : ℚ
  knownFrame : ℤ

def Entry.setKnown (x : Entry ρ) (frame : ℤ) : Entry ρ :=
  { x with knownFrame := if x.knownFrame ≠ -1 then x.knownFrame else frame }

def entry (e : EnemyUnit ρ) : Entry ρ := ⟨e.cdef, e.cost, e.knownFrame⟩

/-- What an enemy adds to a sum. -/
def weight (mod : ThrMod) (k : Total ρ) (x : Entry ρ) : ℚ :=
  match x.cdef with
  | none => 0
  | some d =>
    match k with
    | .roleCost r => if d.isEnemyRoleAny r then x.cost else 0
    | .roleThreat r => if d.isEnemyRoleAny r then d.threat else 0
    | .mobileCost => if d.isMobile then x.cost else 0
    | .mobileThreat => if d.isMobile then d.threat * mod.inMobile else 0
    | .staticThreat => if d.isMobile then 0 else d.threat * mod.inStatic

/-- The enemies that entered the line of sight of the owner and whose record was not removed since. -/
def seen (circuit : α) : List (Event α) → Finset ℕ
  | [] => ∅
  | .enterLOS p :: es => insert p (seen circuit es)
  | .destroyed ai p :: es => if ai = circuit then (seen circuit es).erase p else seen circuit es
  | .handled ai p :: es => if ai = circuit then (seen circuit es).erase p else seen circuit es
  | _ :: es => seen circuit es

end Circuit.Spec.EnemyRuns
