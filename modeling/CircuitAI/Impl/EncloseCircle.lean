import CircuitAI.Framework.EnclosingCircle
import CircuitAI.Impl.MetalData

/-!
# The enclosing circle (`util/math/EncloseCircle.cpp`)

`MakeCircle` goes through the points in random order and keeps a circle that contains the points so far. When a point is
outside, the circle is made anew (`makeCircleOnePoint`), in the same way but with a point known to be on the boundary;
that one falls back on `makeCircleTwoPoints`. Numbers are of any ordered field; `sqrt`, `EPSILON` and the answer of
`std::random_shuffle` are parameters. A range of iterators from the begin of the vector is the list of the points in it.
-/

namespace Circuit.Impl.EncloseCircle

open Framework
open MetalData (AIFloat3)

abbrev SPoint (K : Type*) := Plane.Point K

structure SCircle (K : Type*) where
  c : SPoint K
  r : K

variable {K : Type*} [Field K] [LinearOrder K]

local instance atLeastTwo_two : Nat.AtLeastTwo 2 := ⟨le_rfl⟩

def distance (sqrt : K → K) (p q : SPoint K) : K := sqrt (p - q).norm

namespace SCircle

def zero : SCircle K := ⟨⟨0, 0⟩, 0⟩

variable (sqrt : K → K) (epsilon : K)

def contains (s : SCircle K) (p : SPoint K) : Bool := distance sqrt s.c p ≤ s.r + epsilon

/-- `contains` of a range. -/
def containsAll (s : SCircle K) (pts : List (SPoint K)) : Bool := pts.all (s.contains sqrt epsilon)

end SCircle

variable (sqrt : K → K) (epsilon : K)

def makeDiameter (a b : SPoint K) : SCircle K := ⟨⟨(a.x + b.x) / 2, (a.y + b.y) / 2⟩, distance sqrt a b / 2⟩

/-- `none` if the three points are on a line. -/
def makeCircumcircle (a b c : SPoint K) : Option (SCircle K) :=
  let d := (a.x * (b.y - c.y) + b.x * (c.y - a.y) + c.x * (a.y - b.y)) * 2
  if d = 0 then none
  else
    let x := (a.norm * (b.y - c.y) + b.norm * (c.y - a.y) + c.norm * (a.y - b.y)) / d
    let y := (a.norm * (c.x - b.x) + b.norm * (a.x - c.x) + c.norm * (b.x - a.x)) / d
    some ⟨⟨x, y⟩, distance sqrt ⟨x, y⟩ a⟩

/-- The circles `left` and `right`, none before `hasLeft` and `hasRight`. -/
structure Sides (K : Type*) where
  left : Option (SCircle K)
  right : Option (SCircle K)

/-- The body of the loop of `MakeCircleTwoPoints`. -/
def formCircumcircle (p q : SPoint K) (s : Sides K) (r : SPoint K) : Sides K :=
  let pq := q - p
  let cross := pq.cross (r - p)
  match makeCircumcircle sqrt p q r with
  | none => s
  | some c =>
    if 0 < cross ∧ s.left.all fun left => pq.cross (left.c - p) < pq.cross (c.c - p) then { s with left := some c }
    else if cross < 0 ∧ s.right.all fun right => pq.cross (c.c - p) < pq.cross (right.c - p) then
      { s with right := some c }
    else s

/-- The circle that `MakeCircleTwoPoints` returns after the loop. -/
def Sides.choose : Sides K → SCircle K
  | ⟨left, none⟩ => left.getD SCircle.zero
  | ⟨none, some right⟩ => right
  | ⟨some left, some right⟩ => if left.r ≤ right.r then left else right

def makeCircleTwoPoints (pts : List (SPoint K)) (p q : SPoint K) : SCircle K :=
  let temp := makeDiameter sqrt p q
  if temp.containsAll sqrt epsilon pts then temp
  else (pts.foldl (formCircumcircle sqrt p q) ⟨none, none⟩).choose

/-- The loop of `MakeCircleOnePoint`, with the points before the iterator and those from it on. -/
def onePointLoop (p : SPoint K) : List (SPoint K) → SCircle K → List (SPoint K) → SCircle K
  | _, c, [] => c
  | before, c, q :: pts =>
    let c :=
      if c.contains sqrt epsilon q then c
      else if c.r = 0 then makeDiameter sqrt p q
      else makeCircleTwoPoints sqrt epsilon (before ++ [q]) p q
    onePointLoop p (before ++ [q]) c pts

def makeCircleOnePoint (pts : List (SPoint K)) (p : SPoint K) : SCircle K := onePointLoop sqrt epsilon p [] ⟨p, 0⟩ pts

def circleLoop : List (SPoint K) → SCircle K → List (SPoint K) → SCircle K
  | _, circle, [] => circle
  | before, circle, p :: pts =>
    let circle :=
      if circle.contains sqrt epsilon p then circle else makeCircleOnePoint sqrt epsilon (before ++ [p]) p
    circleLoop (before ++ [p]) circle pts

structure CEncloseCircle (K : Type*) where
  center : AIFloat3 K
  radius : K

/-- The point of a position. -/
def point (pos : AIFloat3 K) : SPoint K := ⟨pos.x, pos.z⟩

def circleOf (shuffle : List (SPoint K) → List (SPoint K)) : List (SPoint K) → SCircle K
  | [] => SCircle.zero
  | [p] => ⟨p, 0⟩
  | [p, q] => makeDiameter sqrt p q
  | pts =>
    match shuffle pts with
    | [] => SCircle.zero
    | first :: rest => circleLoop sqrt epsilon [first] (makeCircleOnePoint sqrt epsilon [first] first) rest

def makeCircle (shuffle : List (SPoint K) → List (SPoint K)) (points : List (AIFloat3 K)) : CEncloseCircle K :=
  let circle := circleOf sqrt epsilon shuffle (points.map point)
  ⟨⟨circle.c.x, 0, circle.c.y⟩, circle.r⟩

end Circuit.Impl.EncloseCircle
