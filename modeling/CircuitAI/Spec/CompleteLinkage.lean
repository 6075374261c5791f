import CircuitAI.Framework.TriangularTable
import CircuitAI.Impl.HierarchCluster

/-!
# Complete-linkage clusters

What the clusters are for: a partition of the points such that the points of one cluster are close to each other, and no
two clusters could be one (`Clustering`). While clusters are merged, the distance between two of them is the greatest
distance between their points (`Linkage`).
-/

namespace Circuit.Spec.CompleteLinkage

open Circuit.Framework.TriangularTable (entry)
open Circuit.Impl.HierarchCluster

variable {K : Type*} [LinearOrder K]

def distance (m : CRagMatrix K) (a b : ℕ) : K := entry m.data a b

/-- The clusters are a partition of the points below `n`, and none is empty. -/
structure Partition (n : ℕ) (clusters : Clusters) : Prop where
  perm : clusters.flatten.Perm (List.range n)
  nonempty : ∀ c ∈ clusters, c ≠ []

def Close (d : ℕ → ℕ → K) (maxDistance : K) (clusters : Clusters) : Prop :=
  ∀ c ∈ clusters, ∀ a ∈ c, ∀ b ∈ c, a ≠ b → d a b ≤ maxDistance

structure Clustering (d : ℕ → ℕ → K) (maxDistance : K) (n : ℕ) (clusters : Clusters) : Prop where
  partition : Partition n clusters
  close : Close d maxDistance clusters
  apart : clusters.Pairwise fun c c' => ∃ a ∈ c, ∃ b ∈ c', maxDistance < d a b

/-- The greatest distance of a point of the one cluster and a point of the other. -/
def IsLinkage (d : ℕ → ℕ → K) (c c' : List ℕ) (x : K) : Prop := IsGreatest {y | ∃ a ∈ c, ∃ b ∈ c', d a b = y} x

def Linkage (d : ℕ → ℕ → K) (clusters : Clusters) (m : CRagMatrix K) : Prop :=
  ∀ i j, i < clusters.length → j < clusters.length → i ≠ j →
    IsLinkage d (clusters.getD i []) (clusters.getD j []) (distance m i j)

end Circuit.Spec.CompleteLinkage
