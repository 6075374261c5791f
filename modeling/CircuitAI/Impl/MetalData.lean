import Mathlib.Algebra.Order.Field.Basic
import Mathlib.Data.List.FinRange
import Mathlib.Data.List.ProdSigma

/-!
# The graph of the metal clusters

`CMetalData::BuildClusterGraph`: the clusters are triangulated, and the edges of the triangulation are added to the
graph but for those that are nearly as long as a way round (`badEdge`). The triangulation is made by a library that may
throw, in which case the clusters are joined one after the other (`makeConvexHull`).

Numbers are of any ordered field, and `sqrt` is a parameter. So are the answer of the library and the order in which
`MakeConvexHull` has sorted the clusters.
-/

namespace Circuit.Impl.MetalData

open List

structure AIFloat3 (K : Type*) where
  x : K
  y : K
  z : K

/-- What is read of an `SCluster`; `numSpots` is the size of `idxSpots`. -/
structure SCluster (K : Type*) where
  position : AIFloat3 K
  income : K
  numSpots : ℕ

structure ClusterEdge (K : Type*) (n : ℕ) where
  u : Fin n
  v : Fin n
  cost : K

/-- An undirected edge `(i, j)` with `i ≤ j`. -/
abbrev DEdge (n : ℕ) := Fin n × Fin n

abbrev Triangle (n : ℕ) := Fin n × Fin n × Fin n

/-- The map `edges` of `TriangulateGraph`: for each edge the third corners of its triangles, none if the edge is not
in the map. -/
abbrev EdgeMap (n : ℕ) := DEdge n → List (Fin n)

variable {K : Type*} [Field K] [LinearOrder K] {n : ℕ}

def AIFloat3.distance (sqrt : K → K) (p q : AIFloat3 K) : K :=
  sqrt ((p.x - q.x) ^ 2 + (p.y - q.y) ^ 2 + (p.z - q.z) ^ 2)

/-! ## Triangulation -/

def dEdge (a b : Fin n) : DEdge n := if b < a then (b, a) else (a, b)

def EdgeMap.adjacent (edges : EdgeMap n) (a b c : Fin n) : EdgeMap n :=
  Function.update edges (dEdge a b) ((edges (dEdge a b)).insert c)

def EdgeMap.addTriangle (edges : EdgeMap n) (t : Triangle n) : EdgeMap n :=
  ((edges.adjacent t.1 t.2.1 t.2.2).adjacent t.2.1 t.2.2 t.1).adjacent t.2.2 t.1 t.2.1

def EdgeMap.ofTriangles (triangles : List (Triangle n)) : EdgeMap n :=
  triangles.foldl EdgeMap.addTriangle fun _ => []

def EdgeMap.keys (edges : EdgeMap n) : List (DEdge n) :=
  (product (finRange n) (finRange n)).filter fun e => edges e ≠ []

/-- The constant of `badEdge`. -/
def badFactor (K : Type*) [Field K] : K := 9 / 10

def badEdge (distance : Fin n → Fin n → K) (e : DEdge n) (vs : List (Fin n)) : Bool :=
  vs.any fun c => (distance e.2 c + distance e.1 c) * badFactor K < distance e.1 e.2

/-- The edges that `MakeConvexHull` adds: from the last point to the first one, and on to the last but one. -/
def makeConvexHull (points : List (Fin n)) : List (DEdge n) :=
  match points.getLast? with
  | none => []
  | some last => (last :: points.dropLast).zip points.dropLast

/-- The edges that `TriangulateGraph` adds. `none` stands for an exception of the library. -/
def triangulateGraph (delaunator : Option (List (Triangle n))) (points : List (Fin n))
    (distance : Fin n → Fin n → K) : List (DEdge n) :=
  match delaunator with
  | some triangles =>
    let edges := EdgeMap.ofTriangles triangles
    edges.keys.filter fun e => !badEdge distance e (edges e)
  | none => makeConvexHull points

/-! ## The graph -/

/-- The edge that `addEdge` adds. -/
def clusterEdge (sqrt : K → K) (clusters : Fin n → SCluster K) (e : DEdge n) : ClusterEdge K n :=
  let clA := clusters e.1
  let clB := clusters e.2
  ⟨e.1, e.2, clA.position.distance sqrt clB.position / (clA.income + clB.income) * (clA.numSpots + clB.numSpots : ℕ)⟩

def buildClusterGraph (sqrt : K → K) (clusters : Fin n → SCluster K)
    (delaunator : (Fin n → K × K) → Option (List (Triangle n))) (points : (Fin n → K × K) → List (Fin n)) :
    List (ClusterEdge K n) :=
  if h : n < 2 then []
  else if n < 3 then [clusterEdge sqrt clusters (⟨0, by omega⟩, ⟨1, by omega⟩)]
  else
    let coords := fun i => ((clusters i).position.x, (clusters i).position.z)
    let distance := fun a b => (clusters a).position.distance sqrt (clusters b).position
    (triangulateGraph (delaunator coords) (points coords) distance).map (clusterEdge sqrt clusters)

end Circuit.Impl.MetalData
