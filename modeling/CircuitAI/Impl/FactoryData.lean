import CircuitAI.Impl.TerrainData

/-!
# The choice of a factory (`unit/FactoryData.cpp`)

`GetFactoryToBuild` goes through the factories of the configuration, keeps those whose building and whose units can be used
on the map, and takes the best of them. The types of the units are looked up in the published area data; a factory whose
type is usable is weighed by the type's largest area, and a null pointer there ends the program (`none`).
-/

namespace Circuit.Impl.FactoryData

open TerrainData (SAreaData)

structure SFactory where
  id : ℕ
  startImp : ℚ
  switchImp : ℚ
  count : ℤ
  mapSpeedPerc : ℚ

/-- What is read of a `CCircuitDef` and of the place asked for. -/
structure DefView where
  isAvailable : Bool
  immobileId : ℕ
  mobileId : Option ℕ
  canBeBuiltAt : Bool
  isBuilderAvailable : Bool

structure Request where
  cdef : ℕ → DefView
  isPosValid : Bool
  isWaterSector : Bool
  isStart : Bool
  isReset : Bool
  isAirValid : Bool
  offset : ℕ → ℚ

structure CFactoryData where
  choiceNum : ℕ
  noAirNum : ℕ
  airMapPerc : ℚ
  allFactories : List SFactory

def importance (r : Request) (sfac : SFactory) : ℚ :=
  if r.isStart then sfac.startImp * (if (r.cdef sfac.id).isBuilderAvailable then 1 else 1 / 10) else sfac.switchImp

/-- The share of the map that a factory's units can use; a negative type is that of aircraft. -/
def mapPercent (fd : CFactoryData) (areaData : SAreaData) : Option ℕ → Option ℚ
  | none => some fd.airMapPerc
  | some id => do
    let mt ← areaData.mobileType[id]?
    let k ← mt.areaLargest
    let area ← mt.area[k]?
    return area.percentOfMap

/-- The type of the factory's units can be used. -/
def isMobileValid (r : Request) (areaData : SAreaData) : Option ℕ → Option Bool
  | none => some r.isAirValid
  | some id => areaData.mobileType[id]?.map (·.typeUsable)

/-- One turn of the loop over the factories; what is kept has its weight in `percents`. -/
def consider (fd : CFactoryData) (areaData : SAreaData) (r : Request) (availFacs : List (SFactory × ℚ))
    (sfac : SFactory) : Option (List (SFactory × ℚ)) :=
  let cdef := r.cdef sfac.id
  if !cdef.isAvailable then some availFacs
  else
    areaData.immobileType[cdef.immobileId]?.bind fun it =>
      if !it.typeUsable || (r.isPosValid && !cdef.canBeBuiltAt) then some availFacs
      else if importance r sfac ≤ 0 then some availFacs
      else
        (isMobileValid r areaData cdef.mobileId).bind fun isValid =>
          if !isValid then some availFacs
          else
            (mapPercent fd areaData cdef.mobileId).map fun percent =>
              availFacs ++ [(sfac, r.offset sfac.id + importance r sfac * (percent + sfac.mapSpeedPerc))]

/-- `cmp` -/
def isBefore (a b : SFactory × ℚ) : Bool :=
  a.1.count < b.1.count || (a.1.count == b.1.count && a.2 > b.2)

/-- The factory taken from the sorted list; aircraft give way to the first factory for other units. -/
def choose (r : Request) (isNoAir : Bool) : List (SFactory × ℚ) → Option SFactory
  | [] => none
  | front :: rest =>
    if isNoAir && (r.cdef front.1.id).mobileId.isNone then
      some (((front :: rest).find? fun fac => (r.cdef fac.1.id).mobileId.isSome).getD front).1
    else some front.1

/-- The factory to build, if any, and the data left. Sorting leaves factories of one rank in their order. -/
def getFactoryToBuild (areaData : SAreaData) (r : Request) (fd : CFactoryData) : Option (Option ℕ × CFactoryData) :=
  (fd.allFactories.foldlM (consider fd areaData r) []).map fun availFacs =>
    if availFacs.isEmpty then (none, fd)
    else
      let availFacs := availFacs.mergeSort fun a b => !isBefore b a
      let choiceNum := if r.isReset then 0 else fd.choiceNum
      let isNoAir := choiceNum < fd.noAirNum || (r.isPosValid && r.isWaterSector)
      ((choose r isNoAir availFacs).map (·.id), { fd with choiceNum := (choiceNum + 1) % 2 ^ 32 })

end Circuit.Impl.FactoryData
