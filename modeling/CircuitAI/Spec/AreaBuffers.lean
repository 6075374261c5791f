import CircuitAI.Impl.AreaPointers
import CircuitAI.Spec.Areas

/-!
# The two buffers of the area data

What the pointers of an area data should say: they stay in their buffer, and a sector points to the area it is in.
-/

namespace Circuit.Spec.AreaBuffers

open Impl.AreaPointers
open Impl.TerrainData (Setup)

/-- The sector `i` points to an area of its type that it is in, in the buffer `b`, or to none if it is in none. -/
def NamesArea (b : Buffer) (j : ℕ) (mt : STerrainMapMobileType) (i : ℕ) : Prop :=
  match (mt.sector i).area with
  | none => ∀ area ∈ mt.area, i ∉ area.sector.keys
  | some p => p.buffer = b ∧ p.type = j ∧ ∃ area, mt.area[p.index]? = some area ∧ i ∈ area.sector.keys

/-- The pointers of the type `j` lead into the buffer `b`. -/
structure TypeWithin (t : Setup) (b : Buffer) (j : ℕ) (mt : STerrainMapMobileType) : Prop where
  global : ∀ i < t.sectors, (mt.sector i).S = some ⟨b, i⟩
  area : ∀ i < t.sectors, NamesArea b j mt i
  mobileType : ∀ area ∈ mt.area, area.mobileType = ⟨b, j⟩
  sector : ∀ area ∈ mt.area, ∀ i ∈ area.sector.keys, area.sector.ptr i = some ⟨b, j, i⟩
  areaLargest : ∀ p, mt.areaLargest = some p → p.buffer = b ∧ p.type = j ∧ p.index < mt.area.length

structure Within (t : Setup) (b : Buffer) (d : SAreaData) : Prop where
  mobileType : ∀ j mt, d.mobileType[j]? = some mt → TypeWithin t b j mt
  immobileType : ∀ it ∈ d.immobileType, ∀ i p, it.sector.ptr i = some p → p = ⟨b, i⟩
  air : ∀ i < t.sectors, d.sectorAirType i = ⟨some ⟨b, i⟩, none⟩

/-- The areas of a type, without their pointers. -/
def contents (mt : STerrainMapMobileType) : List (Finset ℕ × Bool × ℚ) :=
  mt.area.map fun area => (area.sector.keys, area.areaUsable, area.percentOfMap)

end Circuit.Spec.AreaBuffers
