import CircuitAI.Impl.FactoryManager
import Mathlib.Algebra.BigOperators.Group.Finset.Defs
import Mathlib.Algebra.Ring.Rat

/-!
# Factory power

`power` is what `factoryPower` stands for: the build speeds of the enabled factories and of the nanos that assist one of
them. A run is a sequence of events that keep to the protocol of the engine (`Proper`), each of which meets a condition
on the state before it.
-/

namespace Circuit.Spec.FactoryPower

open Impl.FactoryManager

variable {U : Type*} [DecidableEq U]

/-- The finished handler of a live unit has run. -/
def Finished (s : State U) (u : U) : Prop := u ∈ s.teamUnits ∧ s.task u = some .idle

instance (s : State U) (u : U) : Decidable (Finished s u) := inferInstanceAs (Decidable (_ ∧ _))

def Enabled (s : State U) (u : U) : Prop := ∃ f ∈ s.factories, f.unit = u

instance (s : State U) (u : U) : Decidable (Enabled s u) := inferInstanceAs (Decidable (∃ f ∈ s.factories, f.unit = u))

/-- The finished live nanos that assist an enabled factory. -/
def assisting (g : Game U) (s : State U) : Finset U :=
  {n ∈ s.teamUnits | g.isAssist n ∧ Finished s n ∧ ∃ f ∈ s.factories, f.unit ∈ s.assists n}

def power (g : Game U) (s : State U) : ℚ :=
  (s.factories.map (g.buildSpeed ·.unit)).sum + ∑ n ∈ assisting g s, g.buildSpeed n

/-- What the engine reports as a complete unit of `assistDef` is a nano whose finished handler has run. -/
def Query.Consistent (g : Game U) (s : State U) (q : Query U) : Prop :=
  ∀ n ∈ q.getFriendlyUnitsIn, s.isNano g q n = true → g.isAssist n = true ∧ Finished s n

/-- Units finish once, tasks are made for finished factories, and range queries are consistent. -/
def Proper (g : Game U) (s : State U) : Event U → Prop
  | .unitFinished u q => ¬ Finished s u ∧ (g.isFactory u = true → Query.Consistent g (s.getOrRegTeamUnit u) q)
  | .createFactoryTask u _ _ q => g.isFactory u = true ∧ Finished s u ∧ Query.Consistent g s q
  | _ => True

def EnabledAtEnd (g : Game U) (s : State U) : Event U → Prop
  | .unitDestroyed u => g.isFactory u = true → Finished s u → Enabled s u
  | _ => True

/-- The states after events that meet the condition. -/
inductive Run (g : Game U) (ok : State U → Event U → Prop) : State U → Prop
  | init : Run g ok .init
  | step {s t : State U} (e : Event U) (hs : Run g ok s) (hproper : Proper g s e) (hok : ok s e)
      (h : e.handle g s = some t) : Run g ok t

end Circuit.Spec.FactoryPower
