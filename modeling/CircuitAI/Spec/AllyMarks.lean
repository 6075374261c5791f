import CircuitAI.Impl.AllyMarks
import Mathlib.Data.Multiset.Filter

/-!
# Marks of allied buildings

The marks that are on the map are those that were made and not taken back (`settle`). They should be the marks of the
buildings that `markedAllies` lists, apart from mexes, which are marked at the start of the game, and the marks of the
buildings that came to the own team, which keep theirs (`Run`). An id stands for one building as long as it is listed
(`SameBuildings`).
-/

namespace Circuit.Spec.AllyMarks

open Impl.BlockingMap Impl.AllyMarks

/-- The marks left on the map by calls of `MarkBlocker`; none if a mark is taken back that is not there. -/
def settle (live : Multiset Marked) : List Call → Option (Multiset Marked)
  | [] => some live
  | c :: calls =>
    if c.block then settle (c.marked ::ₘ live) calls
    else if c.marked ∈ live then settle (live.erase c.marked) calls
    else none

section

variable (env : Env)

/-- The allied buildings among the friendly units, as entries of the list. -/
def buildings (friendlies : AllyUnits) : List Marked :=
  (friendlies.units.filter fun unit => !env.skips unit).map AllyUnit.structure

/-- The entries that have a mark of their own. -/
def marksOf (markedAllies : List Marked) : Multiset Marked :=
  ↑(markedAllies.filter fun b => !env.isMex b.building.cdef)

/-- An id that is listed was not used again for another building. -/
def SameBuildings (s : State) (friendlies : AllyUnits) : Prop :=
  ∀ b ∈ buildings env friendlies, ∀ old ∈ s.markedAllies, old.unitId = b.unitId → old = b

/-- The states that calls of `MarkAllyBuildings` and `ResignAllyBuilding` lead to, with all calls of `MarkBlocker` and the
marks of the resigned buildings. -/
inductive Run (m : SBlockingMap) : State → List Call → Multiset Marked → Prop
  | start : Run m (.new m) [] 0
  | mark {s : State} {calls : List Call} {resigned : Multiset Marked} (lastFrame : ℤ) (friendlies : AllyUnits)
    (h : SameBuildings env s friendlies) :
    Run m s calls resigned →
    Run m (s.markAllyBuildings env lastFrame friendlies).1
      (calls ++ (s.markAllyBuildings env lastFrame friendlies).2) resigned
  | resign {s : State} {calls : List Call} {resigned : Multiset Marked} (unitId : ℤ) :
    Run m s calls resigned →
    Run m (s.resignAllyBuilding unitId).2 calls
      (resigned + marksOf env (s.markedAllies.find? (·.unitId == unitId)).toList)

structure MarkedOnce (m : SBlockingMap) (s : State) (calls : List Call) (resigned : Multiset Marked) : Prop where
  /-- The list is in increasing order of ids. -/
  sorted : s.markedAllies.Pairwise fun b b' => b.unitId < b'.unitId
  /-- Every mark that was taken back had been made with the same definition, position and facing, and what is left is one
  mark for each entry that is no mex, apart from the resigned buildings. -/
  marks : settle 0 calls = some (resigned + marksOf env s.markedAllies)
  blockingMap : s.blockingMap = markBlockers env m calls

/-- What a call of `MarkAllyBuildings` does in a frame in which there was none yet. -/
structure Updated (s : State) (lastFrame : ℤ) (friendlies : AllyUnits) : Prop where
  listed : (s.markAllyBuildings env lastFrame friendlies).1.markedAllies = buildings env friendlies
  /-- A building that stays on the list is neither marked nor unmarked. -/
  stays : ∀ c ∈ (s.markAllyBuildings env lastFrame friendlies).2, ∀ b ∈ s.markedAllies,
    b ∈ buildings env friendlies → c.marked.unitId ≠ b.unitId

end

end Circuit.Spec.AllyMarks
