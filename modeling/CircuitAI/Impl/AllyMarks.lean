import CircuitAI.Impl.TerrainManager

/-!
# Marking allied buildings

`MarkAllyBuildings` and `ResignAllyBuilding` of `terrain/TerrainManager.cpp`. The buildings of the allies are kept in
`markedAllies`, sorted by their ids, and marked on the blocking map. Once in a frame the list is brought up to date with
the map of friendly units, in one loop over both.

`markAllyBuildings` returns the calls of `MarkBlocker` that it makes, in order, beside the state they leave.
-/

namespace Circuit.Impl.AllyMarks

open BlockingMap TerrainManager

/-- A `CAllyUnit`, and what it answers in the current frame. -/
structure AllyUnit where
  id : ℤ
  cdef : CCircuitDef
  pos : AIFloat3
  facing : ℤ
  team : ℤ
  deriving DecidableEq

structure Marked where
  unitId : ℤ
  building : SStructure
  deriving DecidableEq

structure Call where
  marked : Marked
  block : Bool
  deriving DecidableEq

/-- What is read of the definitions and of the AI. -/
structure Env where
  blockInfos : BlockInfos
  isMobile : CCircuitDef → Bool
  isMex : CCircuitDef → Bool
  teamId : ℤ

/-- `CAllyTeam::AllyUnits`: a map, and so sorted by the ids. -/
structure AllyUnits where
  units : List AllyUnit
  sorted : units.Pairwise fun u u' => u.id < u'.id

structure State where
  markFrame : ℤ
  markedAllies : List Marked
  blockingMap : SBlockingMap

/-- After the constructor. -/
def State.new (blockingMap : SBlockingMap) : State := ⟨-30, [], blockingMap⟩

/-- What the loop has written so far. -/
structure Output where
  markedAllies : List Marked
  calls : List Call

section

variable (env : Env)

/-- The units that the loop passes over: mobile ones and those of the own team. -/
def Env.skips (unit : AllyUnit) : Bool := env.isMobile unit.cdef || unit.team == env.teamId

/-- The entry for a unit. -/
def AllyUnit.structure (unit : AllyUnit) : Marked := ⟨unit.id, ⟨unit.cdef, unit.pos, unit.facing⟩⟩

def addStructure (out : Output) (unit : AllyUnit) : Output :=
  { markedAllies := out.markedAllies ++ [unit.structure]
    calls := if !env.isMex unit.cdef then out.calls ++ [⟨unit.structure, true⟩] else out.calls }

def delStructure (out : Output) (building : Marked) : Output :=
  { out with calls := if !env.isMex building.building.cdef then out.calls ++ [⟨building, false⟩] else out.calls }

/-- The loop over the friendly units and the entries of the previous list. -/
def mergeLoop : List AllyUnit → List Marked → Output → Output
  -- everything else in `first2..last2` is dead units
  | [], prevUnits, out => prevUnits.foldl (delStructure env) out
  | unit :: friendlies, prevUnits, out =>
    if env.skips unit then mergeLoop friendlies prevUnits out
    else
      match prevUnits with
      | [] =>
        -- everything else in `first1..last1` is new units
        friendlies.foldl (fun out unit => if env.skips unit then out else addStructure env out unit)
          (addStructure env out unit)
      | old :: prevUnits =>
        if unit.id < old.unitId then mergeLoop friendlies (old :: prevUnits) (addStructure env out unit)
        else if old.unitId < unit.id then mergeLoop (unit :: friendlies) prevUnits (delStructure env out old)
        else mergeLoop friendlies prevUnits { out with markedAllies := out.markedAllies ++ [old] }
termination_by friendlies prevUnits => friendlies.length + prevUnits.length

/-- The calls take effect on the blocking map. -/
def markBlockers (m : SBlockingMap) (calls : List Call) : SBlockingMap :=
  calls.foldl (fun m c => markBlocker env.blockInfos m c.marked.building c.block) m

/-- `MarkAllyBuildings`, when the last frame and the friendly units are as given. -/
def State.markAllyBuildings (s : State) (lastFrame : ℤ) (friendlies : AllyUnits) : State × List Call :=
  if s.markFrame ≥ lastFrame then (s, [])
  else
    let out := mergeLoop env friendlies.units s.markedAllies ⟨[], []⟩
    (⟨lastFrame, out.markedAllies, markBlockers env s.blockingMap out.calls⟩, out.calls)

def State.resignAllyBuilding (s : State) (unitId : ℤ) : Bool × State :=
  (s.markedAllies.any (·.unitId == unitId),
    { s with markedAllies := s.markedAllies.eraseP (·.unitId == unitId) })

end

end Circuit.Impl.AllyMarks
