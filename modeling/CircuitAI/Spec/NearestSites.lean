import CircuitAI.Framework.SortedScan
import CircuitAI.Impl.SearchOffsets

/-!
# Nearest sites

What the searches over the table of offsets are for. An offset is `eligible` if a building placed there passes every test,
and the search should return a site at an eligible offset of least distance (`Nearest`), whatever searches came
before it (`History`).
-/

namespace Circuit.Spec.NearestSites

open Impl.BlockingMap Impl.TerrainManager

/-- The tables that searches with any radii leave. -/
inductive History (sort : List SSearchOffset → List SSearchOffset) : List SSearchOffset → Prop
  | start : History sort []
  | search {searchOffsets : List SSearchOffset} (radius : ℕ) :
    History sort searchOffsets → History sort (getSearchOffsetTable sort radius searchOffsets)

/-- The checks of the terrain and of the engine do not look at the height of a position. -/
structure Level (env : SiteChecks) : Prop where
  canBeBuiltAtSafe : ∀ cdef pos y, env.canBeBuiltAtSafe cdef { pos with y } = env.canBeBuiltAtSafe cdef pos
  isPossibleToBuildAt : ∀ cdef pos y facing,
    env.isPossibleToBuildAt cdef { pos with y } facing = env.isPossibleToBuildAt cdef pos facing

/-- The search goes over the table of offsets and not over coarse squares. -/
def IsFine (blockInfos : BlockInfos) (q : SiteQuery) : Prop :=
  q.searchRadius ≤ (squareSize * 2 * 100 : Nat) ∧
  ∀ k ∈ blockInfos q.cdef.id, k.xsize * k.zsize ≤ gridRatioLow * gridRatioLow * 9

section Eligible

variable (env : SiteChecks) (m : SBlockingMap) (q : SiteQuery) (blockInfos : BlockInfos)

/-- The size of the building in cells. -/
def siteSize : Nat × Nat :=
  if (blockInfos q.cdef.id).isSome then q.cdef.sizeByMask q.facing else q.cdef.size q.facing

/-- The top left cell of the building at an offset. -/
def siteCorner (o : Int × Int) : Int × Int := corner q.pos (siteSize q blockInfos) + o

/-- The position on the ground of the building at an offset. -/
def site (o : Int × Int) : AIFloat3 :=
  let s1 := siteCorner q blockInfos o
  let pos := centre s1 (opposite s1 (siteSize q blockInfos)) 0
  { pos with y := env.getElevationAt pos.x pos.z }

/-- The cells under the building, or under its mask, are open. -/
def isOpen (o : Int × Int) : Bool :=
  let s1 := siteCorner q blockInfos o
  match blockInfos q.cdef.id with
  | none => isOpenSite m s1 (opposite s1 (siteSize q blockInfos))
  | some k => isOpenMask m q k (s1 - k.getStructOffset q.facing)

/-- A building at the offset lies on the map, on open cells, and passes all checks. -/
def eligible (o : Int × Int) : Bool :=
  let s1 := siteCorner q blockInfos o
  let pos := site env q blockInfos o
  m.isInBounds s1 (opposite s1 (siteSize q blockInfos)) && isOpen m q blockInfos o &&
  env.canBeBuiltAtSafe q.cdef pos && env.isPossibleToBuildAt q.cdef pos q.facing && q.predicate pos

end Eligible

/-- The square of the distance of an offset. -/
def sqDist (o : Int × Int) : Int := o.1 * o.1 + o.2 * o.2

/-- The offset lies in the half-open square of the given radius. -/
def InSquare (r : Int) (o : Int × Int) : Prop := (-r ≤ o.1 ∧ o.1 < r) ∧ -r ≤ o.2 ∧ o.2 < r

structure Nearest (eligible : Int × Int → Bool) (site : Int × Int → AIFloat3) (r : Int) (result : AIFloat3) : Prop where
  found : isValid result = true → ∃ o, eligible o = true ∧ result = site o
  nearest : ∀ o, result = site o → ∀ o', InSquare r o' → eligible o' = true → sqDist o ≤ sqDist o'
  none : isValid result = false → ∀ o, sqDist o < r * r → eligible o = false

end Circuit.Spec.NearestSites
