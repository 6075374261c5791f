import Mathlib.Algebra.Order.Ring.Rat
import Mathlib.Data.Finset.Sort

/-!
# Squads

The books of `ISquadTask`, of `IFighterTask` below it and of the five classes above it: the units of a squad, their power,
shields, extreme ranges and speeds, and the leader. `AssignTo` updates them for one unit, `RemoveAssignee` starts again
and goes through all units that are left (`findLeader`), `Merge` takes over the units of another squad. Units are ordered
as the pointers in a `std::set` are. The area of a unit changes as it moves, so it is given to every call. Left out are
actions and paths of units, and where squads go.
-/

namespace Circuit.Impl.SquadTask

/-- `std::numeric_limits<float>::max()`. -/
def floatMax : ℚ := (2 - 1 / 2 ^ 23) * 2 ^ 127

/-- What is read of a `CCircuitDef`; ranges and speeds are floats, and speeds are not negative. -/
structure CircuitDef where
  power : ℚ
  maxRange : ℚ
  speed : ℚ
  losRadius : ℚ
  jumpRange : ℚ
  isRoleSupport : Bool
  maxRange_le : maxRange ≤ floatMax
  speed_le : speed ≤ floatMax
  speed_nonneg : 0 ≤ speed

/-- What does not change of the units. -/
structure UnitData (U : Type*) where
  cdef : U → CircuitDef
  hasShield : U → Bool

/-- The part of the map that the area of a unit covers (`percentOfMap`), if the unit has an area. -/
abbrev Areas (U : Type*) := U → Option ℚ

inductive FightType
  | attack
  | raid
  | antiAir
  | antiHeavy
  | defend
  deriving DecidableEq

structure ISquadTask (U : Type*) where
  fightType : FightType
  /-- Of a `CAttackTask`. -/
  minPower : ℚ
  /-- Of a `CDefendTask`. -/
  maxPower : ℚ
  units : Finset U
  attackPower : ℚ
  shields : Finset U
  lowestRange : ℚ
  highestRange : ℚ
  lowestSpeed : ℚ
  highestSpeed : ℚ
  leader : Option U
  isDead : Bool

namespace ISquadTask

variable {U : Type*} [LinearOrder U] (g : UnitData U) (area : Areas U)

def new (fightType : FightType) (minPower maxPower : ℚ) : ISquadTask U where
  fightType := fightType
  minPower := minPower
  maxPower := maxPower
  units := ∅
  attackPower := 0
  shields := ∅
  lowestRange := floatMax
  highestRange := 0
  lowestSpeed := floatMax
  highestSpeed := 0
  leader := none
  isDead := false

/-! ## `IFighterTask` -/

def fighterAssignTo (t : ISquadTask U) (unit : U) : ISquadTask U :=
  { t with
    units := insert unit t.units
    attackPower := t.attackPower + (g.cdef unit).power
    shields := if g.hasShield unit then insert unit t.shields else t.shields }

def fighterRemoveAssignee (t : ISquadTask U) (unit : U) : ISquadTask U :=
  { t with
    units := t.units.erase unit
    attackPower := t.attackPower - (g.cdef unit).power
    shields := if g.hasShield unit then t.shields.erase unit else t.shields }

/-! ## `ISquadTask` -/

/-- The ranges and speeds with those of one more unit. -/
def observe (t : ISquadTask U) (unit : U) : ISquadTask U :=
  { t with
    lowestRange := min t.lowestRange (g.cdef unit).maxRange
    highestRange := max t.highestRange (g.cdef unit).maxRange
    lowestSpeed := min t.lowestSpeed (g.cdef unit).speed
    highestSpeed := max t.highestSpeed (g.cdef unit).speed }

def isSmallerArea (unit leader : U) : Bool :=
  match area unit, area leader with
  | some p, some q => p < q
  | _, _ => false

def squadAssignTo (t : ISquadTask U) (unit : U) : ISquadTask U :=
  let t := t.fighterAssignTo g unit
  match t.leader with
  | none =>
    { t with
      lowestRange := (g.cdef unit).maxRange
      highestRange := (g.cdef unit).maxRange
      lowestSpeed := (g.cdef unit).speed
      highestSpeed := (g.cdef unit).speed
      leader := some unit }
  | some leader =>
    let t := t.observe g unit
    if (g.cdef unit).isRoleSupport then t
    else if (area leader).isNone || (g.cdef leader).isRoleSupport || isSmallerArea area unit leader then
      { t with leader := some unit }
    else t

/-- Whether the second loop of `FindLeader` changes the leader. -/
def isBetterLeader (leader ass : U) : Bool :=
  !((g.cdef ass).isRoleSupport || (area ass).isNone) &&
    ((area leader).isNone || (g.cdef leader).isRoleSupport || isSmallerArea area ass leader)

/-- The second loop of `FindLeader`. -/
def findBetter : List U → U → ISquadTask U → ISquadTask U
  | [], leader, t => { t with leader := some leader }
  | ass :: l, leader, t => findBetter l (if isBetterLeader g area leader ass then ass else leader) (t.observe g ass)

/-- The first loop, until a unit is found that can lead. -/
def findFirst : List U → ISquadTask U → ISquadTask U
  | [], t => t
  | ass :: l, t =>
    if (g.cdef ass).isRoleSupport then findFirst l (t.observe g ass)
    else findBetter g area l ass (t.observe g ass)

def findLeader (t : ISquadTask U) (units : List U) : ISquadTask U :=
  match t.leader with
  | none => findFirst g area units t
  | some leader => findBetter g area units leader t

def squadRemoveAssignee (t : ISquadTask U) (unit : U) : ISquadTask U :=
  let t :=
    { t.fighterRemoveAssignee g unit with
      leader := none, lowestRange := floatMax, lowestSpeed := floatMax, highestRange := 0, highestSpeed := 0 }
  if t.units = ∅ then t else t.findLeader g area (t.units.sort (· ≤ ·))

/-- What every `Merge` does. -/
def takeOver (t task : ISquadTask U) : ISquadTask U :=
  { t with
    units := t.units ∪ task.units
    attackPower := t.attackPower + task.attackPower
    shields := t.shields ∪ task.shields }

/-- `ISquadTask::Merge`, which reads the leader. -/
def squadMerge (t task : ISquadTask U) : Option (ISquadTask U) :=
  if t.leader = none then none else some ((t.takeOver task).findLeader g area (task.units.sort (· ≤ ·)))

/-! ## The classes of squads -/

/-- `CDefendTask::Merge`. -/
def defendMerge (t task : ISquadTask U) : ISquadTask U :=
  { t.takeOver task with maxPower := max t.maxPower task.maxPower }

def widen (t : ISquadTask U) (ranges : List ℚ) : ISquadTask U :=
  { t with highestRange := ranges.foldl max t.highestRange }

/-- The ranges that `AssignTo` of the class adds. -/
def sightRanges (cdef : CircuitDef) : FightType → List ℚ
  | .attack | .defend => [cdef.losRadius]
  | .raid | .antiHeavy => [cdef.losRadius, cdef.jumpRange]
  | .antiAir => []

/-- The ranges of the leader that `RemoveAssignee` of the class adds. -/
def leaderRanges (cdef : CircuitDef) : FightType → List ℚ
  | .attack => [cdef.losRadius]
  | .raid | .antiHeavy => [cdef.losRadius, cdef.jumpRange]
  | .antiAir | .defend => []

def assignTo (t : ISquadTask U) (unit : U) : ISquadTask U :=
  (t.squadAssignTo g area unit).widen (sightRanges (g.cdef unit) t.fightType)

/-- `AbortTask`: the units go to the idle task. -/
def abort (t : ISquadTask U) : ISquadTask U := { t with isDead := true, units := ∅ }

def removeAssignee (t : ISquadTask U) (unit : U) : ISquadTask U :=
  let t := t.squadRemoveAssignee g area unit
  match t.leader with
  | none => t.abort
  | some leader =>
    if t.fightType = .attack ∧ t.attackPower < t.minPower then t.abort
    else t.widen (leaderRanges (g.cdef leader) t.fightType)

def merge (t task : ISquadTask U) : Option (ISquadTask U) :=
  if t.fightType = .defend then some (t.defendMerge task) else t.squadMerge g area task

end ISquadTask

/-! ## The squads of a manager -/

structure State (U : Type*) where
  tasks : ℕ → ISquadTask U
  nextTask : ℕ

namespace State

variable {U : Type*} [LinearOrder U]

def init : State U := ⟨fun _ => .new .attack 0 0, 0⟩

def set (s : State U) (k : ℕ) (t : ISquadTask U) : State U := { s with tasks := Function.update s.tasks k t }

def enqueue (s : State U) (t : ISquadTask U) : State U := { s.set s.nextTask t with nextTask := s.nextTask + 1 }

/-- The squad `k'` is merged into `k`; its units are cleared, and it is aborted. -/
def merged (s : State U) (k k' : ℕ) (t : ISquadTask U) : State U :=
  (s.set k t).set k' { s.tasks k' with units := ∅ }.abort

end State

end Circuit.Impl.SquadTask
