import CircuitAI.Spec.NearestSites

/-!
# The table of coarse squares

What `GetSearchOffsetTableLow` should keep (`WellFormed`): for the last radius that the table was filled for, one entry
for each coarse square, sorted by their distance, with the cells of the square sorted by theirs. `Calls` are the tables
that calls with any radii leave, and a call grows the table safely (`Safe`) if there is none yet.
-/

namespace Circuit.Spec.CoarseOffsets

open Impl.BlockingMap (gridRatioLow)
open Impl.TerrainManager NearestSites

/-- The offset of an entry of either table. -/
def cell (o : SSearchOffset) : ℤ × ℤ := (o.dx, o.dy)

def square (e : SSearchOffsetLow) : ℤ × ℤ := (e.dx, e.dy)

/-- The column of a cell in the table of a radius, counted from the left. -/
def column (radius c : ℤ) : ℤ := c + radius - (gridRatioLow / 2 : ℕ)

/-- A column of cells lies in a column of coarse squares, which are counted from the left too. -/
def InColumn (radius d c : ℤ) : Prop :=
  (d + radius.tdiv gridRatioLow) * gridRatioLow ≤ column radius c ∧
  column radius c < (d + radius.tdiv gridRatioLow + 1) * gridRatioLow

/-- The cell `c` lies in the coarse square `d`. -/
def InBlock (radius : ℤ) (d c : ℤ × ℤ) : Prop := InColumn radius d.1 c.1 ∧ InColumn radius d.2 c.2

/-- The cell lies in the square that the coarse squares of a radius cover. -/
def Covered (radius : ℤ) (c : ℤ × ℤ) : Prop :=
  (0 ≤ column radius c.1 ∧ column radius c.1 < radius.tdiv gridRatioLow * 2 * gridRatioLow) ∧
  0 ≤ column radius c.2 ∧ column radius c.2 < radius.tdiv gridRatioLow * 2 * gridRatioLow

structure WellFormed (radius : ℤ) (table : List SSearchOffsetLow) : Prop where
  qdist : ∀ e ∈ table, e.qdist = sqDist (square e)
  sorted : table.Pairwise fun a b => a.qdist ≤ b.qdist
  /-- Each entry has as many cells as a coarse square, sorted by their distance. -/
  ofs_length : ∀ e ∈ table, e.ofs.length = gridRatioLow * gridRatioLow
  ofs_qdist : ∀ e ∈ table, ∀ o ∈ e.ofs, o.qdist = sqDist (cell o)
  ofs_sorted : ∀ e ∈ table, e.ofs.Pairwise fun a b => a.qdist ≤ b.qdist
  /-- They are cells of the entry's own square. -/
  inBlock : ∀ e ∈ table, ∀ o ∈ e.ofs, InBlock radius (square e) (cell o)
  nodup : ((table.flatMap (·.ofs)).map cell).Nodup
  covers : ∀ c, c ∈ (table.flatMap (·.ofs)).map cell ↔ Covered radius c

/-- The call fills the table. -/
def Rebuilds (radius : ℤ) (table : List SSearchOffsetLow) : Prop := sizeLow radius > table.length

instance (radius : ℤ) (table : List SSearchOffsetLow) : Decidable (Rebuilds radius table) :=
  inferInstanceAs (Decidable (_ > _))

/-- A table is filled only if there is none yet, and for a radius that is not negative. -/
def Safe (radius : ℤ) (table : List SSearchOffsetLow) : Prop := Rebuilds radius table → table = [] ∧ 0 ≤ radius

section

variable (sort : List SSearchOffset → List SSearchOffset) (sortLow : List SSearchOffsetLow → List SSearchOffsetLow)

/-- The tables that calls with any radii leave, if all calls meet a condition on the radius and the table they find,
and the last radius that a table was filled for. -/
inductive Calls (meets : ℤ → List SSearchOffsetLow → Prop) : ℤ → List SSearchOffsetLow → Prop
  | start : Calls meets 0 []
  | call {last : ℤ} {table : List SSearchOffsetLow} (radius : ℤ) (h : meets radius table) :
    Calls meets last table → Calls meets (if Rebuilds radius table then radius else last)
      (getSearchOffsetTableLow sort sortLow radius table)

end

end Circuit.Spec.CoarseOffsets
