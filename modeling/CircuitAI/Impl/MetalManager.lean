import Mathlib.Data.List.Basic
import Mathlib.Data.Int.Notation

/-!
# Spots and clusters of the metal manager

`SetOpenSpot` and `MarkAllyMexes` of `resource/MetalManager.cpp`. A spot is open until a mex is planned on it, and each
cluster of spots counts those that are not open. It counts the finished mexes of the ally team as well: these are kept in
`markedMexes`, sorted by their ids, and once in a frame the list is brought up to date with the mexes there are, in one loop
over both. A mex far from all spots is not recorded.

The counters are unsigned in the source and integers here.
-/

namespace Circuit.Impl.MetalManager

structure SMetalInfo where
  isOpen : Bool
  clusterId : ℕ
  deriving DecidableEq

structure SClusterInfo where
  queuedCount : ℤ
  finishedCount : ℤ
  deriving DecidableEq

structure SMex where
  unitId : ℤ
  index : ℕ
  deriving DecidableEq

/-- A mex of the ally team, with the answer of `FindNearestSpot` for its position; none stands for -1. -/
structure AllyMex where
  id : ℤ
  spot : Option ℕ
  deriving DecidableEq

/-- The mexes that are handed to `MarkAllyMexes`. They are taken from a map, and so sorted by the ids. -/
structure AllyMexes where
  mexes : List AllyMex
  sorted : mexes.Pairwise fun u u' => u.id < u'.id

structure State where
  metalInfos : List SMetalInfo
  clusterInfos : List SClusterInfo
  markFrame : ℤ
  markedMexes : List SMex

/-- After `Init`, with the clusters of the spots. -/
def State.new (clusterIds : List ℕ) (clusters : ℕ) : State where
  metalInfos := clusterIds.map fun c => ⟨true, c⟩
  clusterInfos := List.replicate clusters ⟨0, 0⟩
  markFrame := -1
  markedMexes := []

def clusterOf (metalInfos : List SMetalInfo) (index : ℕ) : ℕ := (metalInfos.getD index ⟨true, 0⟩).clusterId

/-! ## Open spots -/

def State.setOpenSpot (s : State) (index : ℕ) (value : Bool) : State :=
  match s.metalInfos[index]? with
  | some info =>
    if info.isOpen != value then
      { s with
        metalInfos := s.metalInfos.set index { info with isOpen := value }
        clusterInfos := s.clusterInfos.modify info.clusterId fun c =>
          { c with queuedCount := c.queuedCount + if value then -1 else 1 } }
    else s
  | none => s

/-- `SetOpenSpot` at a position, with the answer of `FindNearestSpot`. -/
def State.setOpenSpotAt (s : State) (nearest : Option ℕ) (value : Bool) : State :=
  match nearest with
  | some index => s.setOpenSpot index value
  | none => s

/-! ## Finished mexes -/

/-- What the loop has written so far. -/
structure Output where
  markedMexes : List SMex
  clusterInfos : List SClusterInfo

section

variable (metalInfos : List SMetalInfo)

/-- A change of `finishedCount` of the cluster of a spot. -/
def addFinished (index : ℕ) (n : ℤ) (clusterInfos : List SClusterInfo) : List SClusterInfo :=
  clusterInfos.modify (clusterOf metalInfos index) fun c => { c with finishedCount := c.finishedCount + n }

def addMex (out : Output) (unit : AllyMex) : Output :=
  match unit.spot with
  | some index => ⟨out.markedMexes ++ [⟨unit.id, index⟩], addFinished metalInfos index 1 out.clusterInfos⟩
  | none => out

def delMex (out : Output) (mex : SMex) : Output :=
  { out with clusterInfos := addFinished metalInfos mex.index (-1) out.clusterInfos }

/-- The loop over the mexes and the entries of the previous list. -/
def mergeLoop : List AllyMex → List SMex → Output → Output
  -- everything else in `first2..last2` is dead units
  | [], prevUnits, out => prevUnits.foldl (delMex metalInfos) out
  -- everything else in `first1..last1` is new units
  | unit :: mexes, [], out => mexes.foldl (addMex metalInfos) (addMex metalInfos out unit)
  | unit :: mexes, old :: prevUnits, out =>
    if unit.id < old.unitId then mergeLoop mexes (old :: prevUnits) (addMex metalInfos out unit)
    else if old.unitId < unit.id then mergeLoop (unit :: mexes) prevUnits (delMex metalInfos out old)
    else mergeLoop mexes prevUnits { out with markedMexes := out.markedMexes ++ [old] }
termination_by mexes prevUnits => mexes.length + prevUnits.length

end

/-- `MarkAllyMexes`, when the last frame is as given. -/
def State.markAllyMexes (s : State) (lastFrame : ℤ) (mexes : AllyMexes) : State :=
  if s.markFrame ≥ lastFrame then s
  else
    let out := mergeLoop s.metalInfos mexes.mexes s.markedMexes ⟨[], s.clusterInfos⟩
    { s with markFrame := lastFrame, markedMexes := out.markedMexes, clusterInfos := out.clusterInfos }

end Circuit.Impl.MetalManager
