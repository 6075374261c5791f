import CircuitAI.Impl.RetreatTask
import CircuitAI.Spec.GridPath

/-!
# What a repairer costs

The cost to get close to a position, in paths of the move map, and when a switch of the repairer is to the advantage of
the unit.
-/

namespace Circuit.Spec.Repairers

open Impl.RetreatTask Spec.GridPath

/-- The cell of the move map at a point of the path map. -/
def moveNode (sizeX : ℕ) (c : ℤ × ℤ) : ℕ := ((c.2 + 1) * (sizeX + 2) + (c.1 + 1)).toNat

/-- The costs of cheapest paths from `s` to those of the points listed that are on the map; costs of `limit` or more do
not count. -/
def reachCosts (F : Field) (limit : ℚ) (s : ℕ) (P : PathFinder) (cells : List (ℤ × ℤ)) : Set (WithTop ℚ) :=
  {b | ∃ c ∈ cells, P.isInPathMap c = true ∧ ∃ a : ℚ, F.Cheapest s (moveNode P.pathMapXSize c) a ∧ a < limit ∧ b = a}

/-- The lowest cost from `s` to the ring around a position; there is none (`⊤`) if no point of the ring can be reached. -/
def RingCost (F : Field) (limit : ℚ) (s : ℕ) (P : PathFinder) (pos : Pos) (radius : ℤ) (c : WithTop ℚ) : Prop :=
  IsGLB (reachCosts F limit s P (PathFinder.ring (P.pos2PathXY pos) radius)) c

/-- What is paid for a repairer that comes along. -/
def halved (isMobile : Bool) : WithTop ℚ → WithTop ℚ
  | none => ⊤
  | some a => if isMobile then ((a / 2 : ℚ) : WithTop ℚ) else (a : WithTop ℚ)

/-- The candidate becomes the repairer only if it can be reached for less than the destination, and it does so if the
destination cannot be reached and the candidate can. -/
def Advantageous (prev new : WithTop ℚ) (isSwitched : Prop) : Prop :=
  (isSwitched → new < prev) ∧ (prev = ⊤ → new ≠ ⊤ → isSwitched)

/-- When the cost around the unit itself (`own`) happens to decide as the cost of the candidate would. With a destination
that can be reached, either the unit's own cost is no lower, or the candidate's cost is. With one that cannot, the
candidate cannot be reached either, unless the unit's own ring cannot, the unit is not mobile and the present repairer is:
the two cases are then told apart by the halving of -1 alone. -/
def Decides (prev own new : WithTop ℚ) (isMobilePrev isMobileOwn : Bool) : Prop :=
  (prev ≠ ⊤ → (own ≠ ⊤ ∧ prev ≤ own) ∨ new < prev) ∧
    (prev = ⊤ → (new ≠ ⊤ ↔ own = ⊤ ∧ isMobileOwn = false ∧ isMobilePrev = true))

end Circuit.Spec.Repairers
