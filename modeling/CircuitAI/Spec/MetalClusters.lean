import CircuitAI.Impl.MetalManager

/-!
# Counters of the metal clusters

Whatever calls of `MarkAllyMexes` and `SetOpenSpot` came before (`Run`), each cluster should count its closed spots and the
recorded mexes on its spots (`Counted`), and a call should record the mexes there are (`Updated`).
-/

namespace Circuit.Spec.MetalClusters

open Impl.MetalManager

/-- The states that calls of `MarkAllyMexes` and `SetOpenSpot` lead to, for spots with the given clusters. -/
inductive Run (clusterIds : List ℕ) (clusters : ℕ) : State → Prop
  | start : Run clusterIds clusters (.new clusterIds clusters)
  | mark {s : State} (lastFrame : ℤ) (mexes : AllyMexes) :
    Run clusterIds clusters s → Run clusterIds clusters (s.markAllyMexes lastFrame mexes)
  | setOpen {s : State} (index : ℕ) (value : Bool) :
    Run clusterIds clusters s → Run clusterIds clusters (s.setOpenSpot index value)
  | setOpenAt {s : State} (nearest : Option ℕ) (value : Bool) :
    Run clusterIds clusters s → Run clusterIds clusters (s.setOpenSpotAt nearest value)

def onCluster (metalInfos : List SMetalInfo) (c : ℕ) (mex : SMex) : Bool := clusterOf metalInfos mex.index = c

def isClosed (c : ℕ) (info : SMetalInfo) : Bool := info.clusterId = c && !info.isOpen

/-- What holds in every state. -/
structure Counted (s : State) : Prop where
  /-- The recorded mexes are in increasing order of ids. -/
  sorted : s.markedMexes.Pairwise fun mex mex' => mex.unitId < mex'.unitId
  finishedCount : ∀ (c : ℕ) (info : SClusterInfo), s.clusterInfos[c]? = some info →
    info.finishedCount = s.markedMexes.countP (onCluster s.metalInfos c)
  queuedCount : ∀ (c : ℕ) (info : SClusterInfo), s.clusterInfos[c]? = some info → info.queuedCount = s.metalInfos.countP (isClosed c)

/-- What is recorded of a listed mex: what was before, or else its nearest spot if it has one. -/
def recorded (s : State) (unit : AllyMex) : Option SMex :=
  match s.markedMexes.find? (·.unitId == unit.id) with
  | some old => some old
  | none => unit.spot.map fun index => ⟨unit.id, index⟩

def SameSpots (s : State) (mexes : AllyMexes) : Prop :=
  ∀ unit ∈ mexes.mexes, ∀ old ∈ s.markedMexes, old.unitId = unit.id → unit.spot = some old.index

/-- What a call of `MarkAllyMexes` does in a frame in which there was none yet. -/
structure Updated (s : State) (lastFrame : ℤ) (mexes : AllyMexes) : Prop where
  listed : (s.markAllyMexes lastFrame mexes).markedMexes = mexes.mexes.filterMap (recorded s)
  /-- So these are the listed mexes that have a nearest spot. -/
  nearest : SameSpots s mexes → (s.markAllyMexes lastFrame mexes).markedMexes =
    mexes.mexes.filterMap fun unit => unit.spot.map fun index => ⟨unit.id, index⟩

end Circuit.Spec.MetalClusters
