import CircuitAI.Impl.RetreatTask
import CircuitAI.Spec.GridPath

/-!
# Lookups in a cost map

What a lookup is for: the lowest cost of the cells listed that are on the map and can be reached, -1 if there is none
(`Lowest`). The cost maps of a query are those that `Prepare` and any number of runs of `MakeCostMap` leave (`Made`); a
second run of a query finds the costs of the first one, since `resize` only fills what it adds.
-/

namespace Circuit.Spec.CostLookups

open Circuit.Impl.MicroPather (CMicroPather Reachable)
open Circuit.Impl.RetreatTask (PathFinder)
open Circuit.Spec.GridPath (ThreatTerrain)

inductive Made (P : PathFinder) : (ℤ → ℚ) → Prop
  | prepared : Made P fun _ => -1
  | run {m m' : ℤ → ℚ} {p p' : CMicroPather} {fuel startNode : ℕ} (T : ThreatTerrain P.pathMapXSize P.pathMapYSize) :
      Made P m → Reachable P.pathMapXSize P.pathMapYSize p →
      startNode < (P.pathMapXSize + 2) * (P.pathMapYSize + 2) → p.makeCostMap T.data fuel startNode m = some (m', p') →
      Made P m'

inductive Lowest (P : PathFinder) (m : ℤ → ℚ) (cells : List (ℤ × ℤ)) : ℚ → Prop
  | none : (∀ c ∈ cells, P.isInPathMap c = true → m (P.pathXY2PathIndex c) < 0) → Lowest P m cells (-1)
  | least {c : ℤ × ℤ} : c ∈ cells → P.isInPathMap c = true → 0 ≤ m (P.pathXY2PathIndex c) →
      (∀ d ∈ cells, P.isInPathMap d = true → 0 ≤ m (P.pathXY2PathIndex d) →
        m (P.pathXY2PathIndex c) ≤ m (P.pathXY2PathIndex d)) → Lowest P m cells (m (P.pathXY2PathIndex c))

end Circuit.Spec.CostLookups
