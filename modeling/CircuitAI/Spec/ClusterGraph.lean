import CircuitAI.Impl.MetalData
import Mathlib.Algebra.Field.ZMod
import Mathlib.Data.Sym.Sym2

/-!
# Connection of the clusters

A triangulation joins the corners of its triangles. Its edge is bad if it is longer than nine tenths of the way over the
third corner of one of its triangles; `Replaceable` says in which case the rest can do without the bad edges. `Planar` is
what a triangulation of a part of the plane without holes has.
-/

namespace Circuit.Spec.ClusterGraph

open Relation Impl.MetalData

variable {K : Type*} [Field K] [LinearOrder K] {n : ℕ}

/-- The corners of a triangle, in any order. -/
def IsTriangle (triangles : List (Triangle n)) (a b c : Fin n) : Prop :=
  ∃ t ∈ triangles, t ∈ [(a, b, c), (b, c, a), (c, a, b), (b, a, c), (a, c, b), (c, b, a)]

/-- An edge of the triangulation. -/
def Side (triangles : List (Triangle n)) (a b : Fin n) : Prop := ∃ c, IsTriangle triangles a b c

/-- The way from `a` over `c` to `b` is hardly longer than the way from `a` to `b`. -/
def Flat (distance : Fin n → Fin n → K) (a b c : Fin n) : Prop :=
  (distance b c + distance a c) * badFactor K < distance a b

/-- An edge that is dropped. -/
def Bad (distance : Fin n → Fin n → K) (triangles : List (Triangle n)) (a b : Fin n) : Prop :=
  ∃ c, IsTriangle triangles a b c ∧ Flat distance a b c

/-- There is a way over the third corner of a triangle of which the sides are not bad, or spared themselves. -/
inductive Spared (distance : Fin n → Fin n → K) (triangles : List (Triangle n)) : Fin n → Fin n → Prop
  | around {a b : Fin n} (c : Fin n) (h : IsTriangle triangles a b c)
    (hac : Bad distance triangles a c → Spared distance triangles a c)
    (hcb : Bad distance triangles c b → Spared distance triangles c b) : Spared distance triangles a b

def Replaceable (distance : Fin n → Fin n → K) (triangles : List (Triangle n)) : Prop :=
  ∀ a b, Bad distance triangles a b → Spared distance triangles a b

/-- An edge is a side of at most two triangles, and there is no hole: edges of which each triangle has none or two are
those between two parts of the nodes. -/
structure Planar (triangles : List (Triangle n)) : Prop where
  proper : ∀ a b c, IsTriangle triangles a b c → a ≠ b
  twice : ∀ a b c c' c'', IsTriangle triangles a b c → IsTriangle triangles a b c' → IsTriangle triangles a b c'' →
    c = c' ∨ c = c'' ∨ c' = c''
  gapless : ∀ cross : Sym2 (Fin n) → ZMod 2,
    (∀ a b c, IsTriangle triangles a b c → cross s(a, b) + cross s(b, c) + cross s(c, a) = 0) →
      ∃ part : Fin n → ZMod 2, ∀ a b, Side triangles a b → cross s(a, b) = part a + part b

/-- Each node is reached from each other one. -/
def Connects (edge : Fin n → Fin n → Prop) : Prop := ∀ a b, EqvGen edge a b

def Joined (graph : List (ClusterEdge K n)) (a b : Fin n) : Prop := ∃ e ∈ graph, e.u = a ∧ e.v = b

def clusterDistance (sqrt : K → K) (clusters : Fin n → SCluster K) (a b : Fin n) : K :=
  (clusters a).position.distance sqrt (clusters b).position

def clusterCoords (clusters : Fin n → SCluster K) (i : Fin n) : K × K :=
  ((clusters i).position.x, (clusters i).position.z)

end Circuit.Spec.ClusterGraph
