import CircuitAI.Impl.Workers

/-!
# The workers that are there

The finished live workers (`finishedWorkers`), those of one area and definition (`members`) and the definitions that
have one (`staffed`) say what the counters of `Impl.Workers` stand for. A run is a sequence of events in which a unit is
finished once, and each event meets a condition on the state before it.
-/

namespace Circuit.Spec.WorkerCensus

open Impl.Workers

variable {U D A P : Type*} [DecidableEq U] [DecidableEq D] [DecidableEq A]

def finishedWorkers (g : Game U D) (s : State U D A) : Finset U :=
  {u ∈ s.teamUnits.toFinset | g.isWorker u ∧ s.task u = .assigned}

def members (g : Game U D) (s : State U D A) (a : Option A) (d : D) : Finset U :=
  {u ∈ finishedWorkers g s | s.area u = a ∧ g.circuitDef u = d}

def staffed (g : Game U D) (s : State U D A) : Finset D := (finishedWorkers g s).image g.circuitDef

def builders (g : Game U D) (s : State U D A) (d : D) : Finset D := {w ∈ staffed g s | g.canBuild w d}

/-- A finished live worker other than `u` has its definition. -/
def HasPeer (g : Game U D) (s : State U D A) (u : U) : Prop :=
  ∃ v ∈ finishedWorkers g s, v ≠ u ∧ g.circuitDef v = g.circuitDef u

/-- Another unit of the definition of `u` is registered only if another one is finished. -/
def PeersFinished (g : Game U D) (s : State U D A) (u : U) : Prop :=
  (∃ v ∈ s.teamUnits, v ≠ u ∧ g.circuitDef v = g.circuitDef u) → HasPeer g s u

/-- A worker finishes, or is destroyed after that, while another unit of its definition is registered only if another
one is finished. -/
def Paired (g : Game U D) (s : State U D A) : Event U A → Prop
  | .unitFinished u _ isBeingBuilt => g.isWorker u = true → isBeingBuilt = false → PeersFinished g s u
  | .unitDestroyed u => u ∈ finishedWorkers g s → PeersFinished g s u
  | _ => True

def Settled (g : Game U D) (s : State U D A) : Event U A → Prop
  | .updateAreaUsers _ => ∀ u ∈ s.teamUnits, g.isWorker u = true → u ∈ finishedWorkers g s
  | _ => True

def FinishesOnce (g : Game U D) (s : State U D A) : Event U A → Prop
  | .unitFinished u _ isBeingBuilt => isBeingBuilt = false → u ∉ finishedWorkers g s
  | _ => True

/-- The states after events that meet the condition. -/
inductive Run (g : Game U D) (ok : State U D A → Event U A → Prop) : State U D A → Prop
  | init : Run g ok .init
  | step {s t : State U D A} (e : Event U A) (hs : Run g ok s) (honce : FinishesOnce g s e) (hok : ok s e)
      (h : e.handle g s = some t) : Run g ok t

/-- All units are flying workers of definition 0, which builds definition 1. -/
def oneWorkerDef : Game ℕ ℕ where
  circuitDef _ := 0
  isWorkerDef d := d = 0
  buildOptions d := if d = 0 then {1} else ∅
  buildDistance _ := 0

end Circuit.Spec.WorkerCensus
