import CircuitAI.Impl.Elevation

/-!
# The elevations that are published

Runs of `Init` and any number of updates, with any maps, and what the published elevations should bound.
-/

namespace Circuit.Spec.Elevations

open Impl.Elevation Impl.TerrainData

/-- The states after `Init` and any number of updates that end with the swap of the buffers. The condition is on the maps
that are scanned, the elevations that the scan starts from, and the sectors that it scans. -/
inductive Run (t : Setup) (mobileType : List MoveLimits) (immobileType : List BuildLimits)
    (ok : FloatVec → FloatVec → Extremes → (ℕ → Bool) → Prop) : ElevationData → Prop
  | init (heightMap slopeMap : FloatVec) (hok : ok heightMap slopeMap noExtremes fun _ => true) :
    Run t mobileType immobileType ok (.init t mobileType immobileType heightMap slopeMap)
  | update {d : ElevationData} (heightMap slopeMap : FloatVec) (h : Run t mobileType immobileType ok d)
    (hok : ok heightMap slopeMap d.pExtremes (d.changed t heightMap)) :
    Run t mobileType immobileType ok (d.update t heightMap slopeMap).swap

def Bounded (t : Setup) (d : ElevationData) : Prop :=
  ∀ i < t.sectors, d.pExtremes.minElevation ≤ (d.data.pAreaData.sector i).minElevation ∧
    (d.data.pAreaData.sector i).minElevation ≤ (d.data.pAreaData.sector i).maxElevation ∧
    (d.data.pAreaData.sector i).maxElevation ≤ d.pExtremes.maxElevation

/-- The first cell of the sector is not its lowest. -/
def Dips (t : Setup) (heightMap slopeMap : FloatVec) (i : ℕ) : Prop :=
  (scan t heightMap slopeMap i).minElevation < heightMap (t.iMap t.convertStoHM i)

/-- The first cell of the sector is not its highest. -/
def Rises (t : Setup) (heightMap slopeMap : FloatVec) (i : ℕ) : Prop :=
  heightMap (t.iMap t.convertStoHM i) < (scan t heightMap slopeMap i).maxElevation

/-- No sector scanned goes below what was known before and below all sectors scanned that dip, and none goes above what was
known before and above all sectors scanned that rise. -/
def Covered (t : Setup) (heightMap slopeMap : FloatVec) (e : Extremes) (scanned : ℕ → Bool) : Prop :=
  ∀ i < t.sectors, scanned i = true →
    (e.minElevation ≤ (scan t heightMap slopeMap i).minElevation ∨
      ∃ k < t.sectors, scanned k = true ∧ Dips t heightMap slopeMap k ∧
        (scan t heightMap slopeMap k).minElevation ≤ (scan t heightMap slopeMap i).minElevation) ∧
    ((scan t heightMap slopeMap i).maxElevation ≤ e.maxElevation ∨
      ∃ k < t.sectors, scanned k = true ∧ Rises t heightMap slopeMap k ∧
        (scan t heightMap slopeMap i).maxElevation ≤ (scan t heightMap slopeMap k).maxElevation)

end Circuit.Spec.Elevations
