import CircuitAI.Impl.FactoryData
import CircuitAI.Spec.Areas

/-!
# Which types can be used

A type can be used if a component of the sectors that it can pass covers a fifth of the map (`Large`). The flag that says
so is kept with each of the two buffers, which are written by turns and begin with what `Init` found: `written` lists when
the buffer in use was written.
-/

namespace Circuit.Spec.TypeUsability

open Impl.TerrainData Areas

/-- The height map and the slope map that an update loads. -/
abbrev Maps := FloatVec × FloatVec

section

variable (t : Setup) (start : Maps)

/-- What is known of a sector after `Init` and updates, the last one first: a sector is scanned when its heights change. -/
def scanned : List Maps → ℕ → STerrainMapSector
  | [], i => settle t (scan t start.1 start.2 i)
  | maps :: updates, i =>
    if isSectorHeightChanged t maps.1 (updates.headD start).1 i then settle t (scan t maps.1 maps.2 i)
    else scanned updates i

def passable (l : MoveLimits) (updates : List Maps) : Finset ℕ :=
  (Finset.range t.sectors).filter fun i => l.usable t (scanned t start updates i)

def Large (l : MoveLimits) (updates : List Maps) : Prop :=
  ∃ C, Major t (passable t start l updates) C ∧ t.percentOfMap C.card ≥ 20

end

/-- The buffer in use was written by every second update, and by `Init`. -/
def written : List Maps → List (List Maps)
  | [] => [[]]
  | [maps] => [[maps], []]
  | maps :: maps' :: updates => (maps :: maps' :: updates) :: written updates

/-- If the type could be used when the buffer was written earlier, it still can. -/
def Lasting (t : Setup) (start : Maps) (l : MoveLimits) (updates : List Maps) : Prop :=
  ∀ earlier ∈ written updates, Large t start l earlier → Large t start l updates

/-- The buffers after `Init` and the updates, each of which ends with their swap. -/
inductive Run (t : Setup) (mobileType : List MoveLimits) (immobileType : List BuildLimits) (start : Maps) :
    List Maps → CTerrainData → Prop
  | init : Run t mobileType immobileType start [] (.init t mobileType immobileType start.1 start.2)
  | update {updates : List Maps} {d : CTerrainData} (maps : Maps)
    (h : Run t mobileType immobileType start updates d) :
    Run t mobileType immobileType start (maps :: updates) (d.update t maps.1 maps.2).swap

def HasUsable (mt : STerrainMapMobileType) : Prop := ∃ area ∈ mt.area, area.areaUsable = true

/-- The flag of the type says whether one of its areas is usable. -/
def Truthful (mt : STerrainMapMobileType) : Prop := mt.typeUsable = true ↔ HasUsable mt

end Circuit.Spec.TypeUsability
