import CircuitAI.Framework.SwapRemove
import CircuitAI.Impl.TerrainManager
import Mathlib.Data.Finset.Basic

/-!
# Factories and nanos

The handlers of `CFactoryManager` for factories and for the units that assist them (nanos), `EnableFactory`,
`DisableFactory` and the part of `CreateFactoryTask` that enables and disables air factories. Havens, the base position
and the queue of builder factories, which these functions also look after, are left out. Factories and nanos are
buildings, so that a unit has one position.
-/

namespace Circuit.Impl.FactoryManager

open Function

open TerrainManager (AIFloat3)

/-- What is fixed for a game. -/
structure Game (U : Type*) where
  isFactory : U → Bool
  /-- Whether a unit has the handlers of a nano. -/
  isAssist : U → Bool
  disjoint : ∀ u, isFactory u = true → isAssist u = false
  /-- Whether the definition of a unit is `assistDef`. -/
  isAssistDef : U → Bool
  mobileId : U → ℤ
  buildSpeed : U → ℚ
  buildDistance : U → ℚ
  pos : U → AIFloat3

/-- The types of task that the handlers distinguish: the idle task stands for all but the nil task. -/
inductive TaskType
  | nil
  | idle
  deriving DecidableEq

structure SFactory (U : Type*) where
  unit : U
  nanos : List U
  deriving DecidableEq

structure State (U : Type*) where
  teamUnits : Finset U
  /-- `none` is the null pointer. -/
  task : U → Option TaskType
  factories : List (SFactory U)
  assists : U → Finset U
  factoryPower : ℚ
  validAir : Finset U

/-- What the engine answers in `EnableFactory`. -/
structure Query (U : Type*) where
  getFriendlyUnitsIn : List U
  isBeingBuilt : U → Bool

variable {U : Type*} [DecidableEq U]

namespace State

def init : State U := ⟨∅, fun _ => none, [], fun _ => ∅, 0, ∅⟩

/-! ## Enabling and disabling -/

/-- Whether `EnableFactory` takes a unit of the answer for a nano: `GetTeamUnit` finds the registered ones. -/
def isNano (g : Game U) (s : State U) (q : Query U) (nano : U) : Bool :=
  g.isAssistDef nano && !q.isBeingBuilt nano && decide (nano ∈ s.teamUnits)

/-- One round of the loop of `EnableFactory`, with the nanos found so far. -/
def enlist (g : Game U) (q : Query U) (unit : U) (acc : List U × State U) (nano : U) : List U × State U :=
  let (nanos, s) := acc
  if s.isNano g q nano then
    let facs := s.assists nano
    (nanos.insert nano,
      { s with
        factoryPower := if facs = ∅ then s.factoryPower + g.buildSpeed nano else s.factoryPower
        assists := update s.assists nano (insert unit facs) })
  else (nanos, s)

def enableFactory (g : Game U) (s : State U) (unit : U) (q : Query U) : State U :=
  let s := { s with factoryPower := s.factoryPower + g.buildSpeed unit }
  let (nanos, s) := q.getFriendlyUnitsIn.foldl (enlist g q unit) ([], s)
  { s with
    factories := s.factories ++ [⟨unit, nanos⟩]
    validAir := if g.mobileId unit < 0 then insert unit s.validAir else s.validAir }

/-- One round of the loop over the nanos of a factory that is disabled. -/
def dismiss (g : Game U) (unit : U) (s : State U) (ass : U) : State U :=
  let facs := (s.assists ass).erase unit
  { s with
    assists := update s.assists ass facs
    factoryPower := if facs = ∅ then s.factoryPower - g.buildSpeed ass else s.factoryPower }

/-- The loop over the factories, which stops at that of the unit. -/
def dropFactory (g : Game U) (s : State U) (unit : U) : State U :=
  match s.factories.findIdx? (·.unit = unit) with
  | none => s
  | some i =>
    let fac := s.factories.getD i ⟨unit, []⟩
    let s := fac.nanos.foldl (dismiss g unit) s
    { s with factories := Framework.swapRemove s.factories i fac }

def disableFactory (g : Game U) (s : State U) (unit : U) : State U :=
  if s.task unit = some .nil then s
  else
    let s := { s with factoryPower := s.factoryPower - g.buildSpeed unit }
    let s := s.dropFactory g unit
    { s with validAir := if g.mobileId unit < 0 then s.validAir.erase unit else s.validAir }

/-- What `CreateFactoryTask` does before it looks for a task. -/
def createFactoryTask (g : Game U) (s : State U) (unit : U) (isNotReady isAirValid : Bool) (q : Query U) : State U :=
  if isNotReady then s
  else if g.mobileId unit < 0 then
    if isAirValid then if unit ∈ s.validAir then s else s.enableFactory g unit q
    else if unit ∈ s.validAir then s.disableFactory g unit else s
  else s

/-! ## Handlers -/

/-- The same for factories and nanos. -/
def createdHandler (s : State U) (unit : U) : State U :=
  if s.task unit = none then { s with task := update s.task unit (some .nil) } else s

def factoryFinishedHandler (g : Game U) (s : State U) (unit : U) (q : Query U) : State U :=
  { s with task := update s.task unit (some .idle) }.enableFactory g unit q

def factoryDestroyedHandler (g : Game U) (s : State U) (unit : U) : State U := s.disableFactory g unit

/-- Whether a nano is near enough to assist a factory. -/
def inRange (g : Game U) (nano fac : U) : Bool :=
  decide ((g.pos nano).sqDistance2D (g.pos fac) < g.buildDistance nano ^ 2)

def assistFinishedHandler (g : Game U) (s : State U) (unit : U) : State U :=
  let facs := s.assists unit ∪ ((s.factories.filter (inRange g unit ·.unit)).map (·.unit)).toFinset
  { s with
    task := update s.task unit (some .idle)
    factories := s.factories.map fun fac =>
      if inRange g unit fac.unit then { fac with nanos := fac.nanos.insert unit } else fac
    assists := update s.assists unit facs
    factoryPower := if facs = ∅ then s.factoryPower else s.factoryPower + g.buildSpeed unit }

def assistDestroyedHandler (g : Game U) (s : State U) (unit : U) : State U :=
  if s.task unit = some .nil then s
  else
    { s with
      factories := s.factories.map fun fac => { fac with nanos := fac.nanos.erase unit }
      factoryPower := if s.assists unit = ∅ then s.factoryPower else s.factoryPower - g.buildSpeed unit
      assists := update s.assists unit ∅ }

/-! ## `CCircuitAI` -/

def getOrRegTeamUnit (s : State U) (u : U) : State U :=
  if u ∈ s.teamUnits then s
  else { s with teamUnits := insert u s.teamUnits, task := update s.task u none }

def unregisterTeamUnit (s : State U) (u : U) : State U := { s with teamUnits := s.teamUnits.erase u }

end State

/-! ## Events -/

inductive Event (U : Type*)
  | unitCreated (u : U)
  | unitFinished (u : U) (q : Query U)
  | unitDestroyed (u : U)
  | createFactoryTask (u : U) (isNotReady isAirValid : Bool) (q : Query U)

/-- An event of the engine, or a task that is made for a factory. Without a task a destroyed handler would follow a
null pointer. -/
def Event.handle (g : Game U) (s : State U) : Event U → Option (State U)
  | .unitCreated u =>
    let s := s.getOrRegTeamUnit u
    some (if g.isFactory u || g.isAssist u then s.createdHandler u else s)
  | .unitFinished u q =>
    let s := s.getOrRegTeamUnit u
    some (if g.isFactory u then s.factoryFinishedHandler g u q
      else if g.isAssist u then s.assistFinishedHandler g u else s)
  | .unitDestroyed u =>
    if u ∈ s.teamUnits then
      if g.isFactory u || g.isAssist u then
        if s.task u = none then none
        else
          let s := if g.isFactory u then s.factoryDestroyedHandler g u else s.assistDestroyedHandler g u
          some (s.unregisterTeamUnit u)
      else some (s.unregisterTeamUnit u)
    else some s
  | .createFactoryTask u isNotReady isAirValid q => some (s.createFactoryTask g u isNotReady isAirValid q)

end Circuit.Impl.FactoryManager
