import CircuitAI.Impl.EncloseCircle
import Mathlib.Analysis.Real.Sqrt

/-!
# The smallest circle around some points

What `MakeCircle` is for, with real numbers: a circle that contains all the points, and no smaller one does
(`IsSmallest`). While it is made, a circle of the code is smallest for the points so far among those that pass through
the boundary points known (`Good`).
-/

namespace Circuit.Spec.SmallestCircle

open Circuit.Framework
open Impl.EncloseCircle
open Impl.MetalData (AIFloat3)

def Covers (points : List (AIFloat3 ℝ)) (x z r : ℝ) : Prop :=
  ∀ p ∈ points, Real.sqrt ((x - p.x) ^ 2 + (z - p.z) ^ 2) ≤ r

structure IsSmallest (points : List (AIFloat3 ℝ)) (e : CEncloseCircle ℝ) : Prop where
  covers : Covers points e.center.x e.center.z e.radius
  least : ∀ x z r, Covers points x z r → e.radius ≤ r

variable {K : Type*} [Field K] [LinearOrder K] [IsStrictOrderedRing K]

structure IsSqrt (sqrt : K → K) : Prop where
  nonneg : ∀ x, 0 ≤ x → 0 ≤ sqrt x
  mul_self : ∀ x, 0 ≤ x → sqrt x * sqrt x = x

structure Good (pts : List (SPoint K)) (B : Set (SPoint K)) (s : SCircle K) : Prop where
  nonneg : 0 ≤ s.r
  smallest : Plane.Smallest {x | x ∈ pts} B s.c (s.r * s.r)

end Circuit.Spec.SmallestCircle
