import CircuitAI.Framework.Ring
import CircuitAI.Impl.EndNodes

/-!
# Rings of end cells

What the offsets of `FindBestPath` are for: a ring around a target (`Closes`) that no walk of a king from outside the
range can get past, so that a search meets an end node of the target before it gets any closer (`Guards`).
-/

namespace Circuit.Spec.EndRings

open Circuit.Framework (King InDisc)
open Circuit.Impl.EndNodes
open Circuit.Impl.RetreatTask (PathFinder Pos)
open Circuit.Impl.MicroPather (PathNode)

/-- The entries lie in the disc, look the same from all four sides, and are met by every walk of a king from outside the
disc to its centre. -/
structure Closes (radius : ℕ) (entries : List (ℤ × ℤ)) : Prop where
  inDisc : ∀ c ∈ entries, InDisc radius c
  neg_fst : ∀ c ∈ entries, (-c.1, c.2) ∈ entries
  neg_snd : ∀ c ∈ entries, (c.1, -c.2) ∈ entries
  met : ∀ path : List (ℤ × ℤ), path.IsChain King → (∃ c ∈ path.head?, ¬ InDisc radius c) → (0, 0) ∈ path.getLast? →
    ∃ c ∈ path, c ∈ entries

def RingInside (P : PathFinder) (entries : List (ℤ × ℤ)) (target : ℤ × ℤ) : Prop :=
  ∀ o ∈ entries, (1 ≤ target.1 + o.1 ∧ target.1 + o.1 ≤ P.pathMapXSize) ∧
    1 ≤ target.2 + o.2 ∧ target.2 + o.2 ≤ P.pathMapYSize

/-- A walk of a king from outside the range to a target meets a cell of the target's ring, and such a cell is an end node
if it passes the hit test. -/
def Guards (P : PathFinder) (hitTest : ℤ × ℤ → ℤ × ℤ → Bool) (radius : ℕ) (entries : List (ℤ × ℤ)) (endNodes : List ℕ)
    (target : ℤ × ℤ) : Prop :=
  ∀ path : List (ℤ × ℤ), path.IsChain King → (∃ c ∈ path.head?, ¬ InDisc radius (c - target)) →
    target ∈ path.getLast? → ∃ c ∈ path, c - target ∈ entries ∧
      (hitTest (c.1 - 1, c.2 - 1) (target.1 - 1, target.2 - 1) = true → P.moveXY2MoveNode c ∈ endNodes)

end Circuit.Spec.EndRings
