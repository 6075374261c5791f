import CircuitAI.Impl.SquadTask
import Mathlib.Algebra.BigOperators.Group.Finset.Basic

/-!
# Runs of the squads

Squads are made, units that are in no squad are assigned, members are removed, squads of one class are merged, and a
squad may be aborted for other reasons. The areas of the units may be any in every step.
-/

namespace Circuit.Spec.SquadRuns

open Impl.SquadTask

variable {U : Type*} [LinearOrder U] (g : UnitData U)

inductive Event (U : Type*)
  | enqueue (fightType : FightType) (minPower maxPower : ℚ)
  | assign (k : ℕ) (unit : U) (area : Areas U)
  | remove (k : ℕ) (unit : U) (area : Areas U)
  | merge (k k' : ℕ) (area : Areas U)
  | abort (k : ℕ)

inductive Step (s : State U) : Event U → State U → Prop
  | enqueue {fightType : FightType} {minPower maxPower : ℚ} :
    Step s (.enqueue fightType minPower maxPower) (s.enqueue (.new fightType minPower maxPower))
  | assign {k : ℕ} {unit : U} {area : Areas U} (hk : k < s.nextTask) (hlive : (s.tasks k).isDead = false)
    (hu : ∀ j < s.nextTask, unit ∉ (s.tasks j).units) :
    Step s (.assign k unit area) (s.set k ((s.tasks k).assignTo g area unit))
  | remove {k : ℕ} {unit : U} {area : Areas U} (hk : k < s.nextTask) (hlive : (s.tasks k).isDead = false)
    (hu : unit ∈ (s.tasks k).units) :
    Step s (.remove k unit area) (s.set k ((s.tasks k).removeAssignee g area unit))
  | merge {k k' : ℕ} {area : Areas U} {t : ISquadTask U} (hk : k < s.nextTask) (hk' : k' < s.nextTask) (hne : k ≠ k')
    (hlive : (s.tasks k).isDead = false) (hlive' : (s.tasks k').isDead = false)
    (htype : (s.tasks k').fightType = (s.tasks k).fightType)
    (ht : (s.tasks k).merge g area (s.tasks k') = some t) : Step s (.merge k k' area) (s.merged k k' t)
  | abort {k : ℕ} (hk : k < s.nextTask) : Step s (.abort k) (s.set k (s.tasks k).abort)

/-- The states of the runs whose steps meet the condition. -/
inductive Run (ok : State U → Event U → Prop) : State U → Prop
  | init : Run ok .init
  | step {s s' : State U} {e : Event U} (h : Run ok s) (hok : ok s e) (hst : Step g s e s') : Run ok s'

structure Extremes (units : Finset U) (t : ISquadTask U) : Prop where
  lowestRange : IsLeast ((fun u => (g.cdef u).maxRange) '' (units : Set U)) t.lowestRange
  lowestSpeed : IsLeast ((fun u => (g.cdef u).speed) '' (units : Set U)) t.lowestSpeed
  highestSpeed : IsGreatest ((fun u => (g.cdef u).speed) '' (units : Set U)) t.highestSpeed

/-- The books of a squad are right. -/
structure Consistent (t : ISquadTask U) : Prop where
  leader : ∃ u ∈ t.units, t.leader = some u
  attackPower : t.attackPower = ∑ u ∈ t.units, (g.cdef u).power
  shields : t.shields = t.units.filter fun u => g.hasShield u = true
  extremes : Extremes g t.units t

/-- A squad of `CDefendTask` that takes over units has a leader, and the ranges and speeds of the new units are not
beyond those it knows. -/
def Known (s : State U) : Event U → Prop
  | .merge k k' _ => (s.tasks k).fightType = .defend → ∀ u ∈ (s.tasks k').units, (s.tasks k).leader ≠ none ∧
      (s.tasks k).lowestRange ≤ (g.cdef u).maxRange ∧
      (s.tasks k).lowestSpeed ≤ (g.cdef u).speed ∧ (g.cdef u).speed ≤ (s.tasks k).highestSpeed
  | _ => True

end Circuit.Spec.SquadRuns
