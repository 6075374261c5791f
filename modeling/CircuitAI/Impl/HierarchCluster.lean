import Mathlib.Order.Lattice

/-!
# Clusters (`util/math/HierarchCluster.cpp`, `util/math/RagMatrix.cpp`)

`Clusterize` starts with one cluster for each point and merges the two clusters that are closest until no two of them are
close enough. The distances between the clusters are kept in a triangular matrix, which is rewritten in place: the row of
the first cluster gets the greater distances of both, and the last row takes the place of the second one.

Distances are of any linear order. The matrix is a function of the place in `data`.
-/

namespace Circuit.Impl.HierarchCluster

open List

variable {K : Type*} [LinearOrder K]

structure CRagMatrix (K : Type*) where
  nrows : ℕ
  data : ℕ → K

namespace CRagMatrix

/-- `idx` of `operator()`. -/
def idx (row column : ℕ) : ℕ := row * (row - 1) / 2 + column

def get (m : CRagMatrix K) (row column : ℕ) : K := m.data (idx row column)

def set (m : CRagMatrix K) (row column : ℕ) (d : K) : CRagMatrix K :=
  { m with data := Function.update m.data (idx row column) d }

/-- The return value of `FindClosestPair`, and the pair `ir`, `jr`. -/
structure Pair (K : Type*) where
  distance : K
  ir : ℕ
  jr : ℕ

def findClosestPair (m : CRagMatrix K) (n : ℕ) : Pair K :=
  (range' 1 (n - 1)).foldl (fun p i =>
    (range i).foldl (fun p j =>
      let temp := m.get i j
      if temp < p.distance then ⟨temp, i, j⟩ else p) p) ⟨m.get 1 0, 1, 0⟩

/-- `for (int j = first; j < last; j++)`. -/
def forLoop (first last : ℕ) (body : ℕ → CRagMatrix K → CRagMatrix K) (m : CRagMatrix K) : CRagMatrix K :=
  (range' first (last - first)).foldl (fun m j => body j m) m

/-- `Fix the distances`, for the cluster `is` merged into `js`. -/
def fixDistances (n is js : ℕ) (m : CRagMatrix K) : CRagMatrix K :=
  let m := m.forLoop 0 js fun j m => m.set js j (max (m.get is j) (m.get js j))
  let m := m.forLoop (js + 1) is fun j m => m.set j js (max (m.get is j) (m.get j js))
  let m := m.forLoop (is + 1) n fun j m => m.set j js (max (m.get j is) (m.get j js))
  let m := m.forLoop 0 is fun j m => m.set is j (m.get (n - 1) j)
  m.forLoop (is + 1) (n - 1) fun j m => m.set j is (m.get (n - 1) j)

end CRagMatrix

abbrev Clusters := List (List ℕ)

def mergeClusters (n is js : ℕ) (iclusters : Clusters) : Clusters :=
  let iclusters := iclusters.set js (iclusters.getD js [] ++ iclusters.getD is [])
  let iclusters := iclusters.set is (iclusters.getD (n - 1) [])
  iclusters.dropLast

/-- `for (int n = nrows; n > 1; n--)`. -/
def mergeLoop (maxDistance : K) : ℕ → CRagMatrix K → Clusters → Clusters
  | n + 2, distmatrix, iclusters =>
    let p := distmatrix.findClosestPair (n + 2)
    if p.distance > maxDistance then iclusters
    else
      mergeLoop maxDistance (n + 1) (distmatrix.fixDistances (n + 2) p.ir p.jr) (mergeClusters (n + 2) p.ir p.jr iclusters)
  | _, _, iclusters => iclusters

def clusterize (distmatrix : CRagMatrix K) (maxDistance : K) : Clusters :=
  mergeLoop maxDistance distmatrix.nrows distmatrix ((range distmatrix.nrows).map fun i => [i])

end Circuit.Impl.HierarchCluster
