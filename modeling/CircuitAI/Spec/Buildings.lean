import CircuitAI.Impl.TerrainManager

/-!
# Buildings on the map

What the blocking map is for: it stands for the set of buildings now present. A building
takes some cells for its structure and reserves others (`footprint`); a run of the terrain manager
adds buildings and takes back buildings that are present (`Run`). The conditions under which
a step of a run is taken are the run's parameters.
-/

namespace Circuit.Spec.Buildings

open Impl.BlockingMap Impl.TerrainManager

/-- What a game starts from: the block masks, the extractor's definition, the metal spots and the size of the
map in squares. -/
structure Setting where
  blockInfos : BlockInfos
  mexDef : CCircuitDef
  spots : List AIFloat3
  mapWidth : Nat
  mapHeight : Nat

def Setting.start (s : Setting) : SBlockingMap :=
  init s.blockInfos s.mexDef s.spots (newMap s.mapWidth s.mapHeight)

/-- One cell of a building: its place, the building's type, the mask its structure is ignored by, and
whether the structure stands on it or the cell is only reserved. -/
structure Take where
  x : Nat
  z : Nat
  type : StructType
  notIgnoreMask : SM
  struct : Bool
  deriving DecidableEq, Repr

/-- The operation that takes a cell. -/
def Take.add (m : SBlockingMap) (t : Take) : SBlockingMap :=
  if t.struct then m.addStruct t.x t.z t.type t.notIgnoreMask else m.addBlocker t.x t.z t.type

/-- The operation that gives a cell back. -/
def Take.del (m : SBlockingMap) (t : Take) : SBlockingMap :=
  if t.struct then m.delStruct t.x t.z t.type else m.delBlocker t.x t.z t.type

def maskTake (k : IBlockMask) (x z : Nat) : BlockType → Option Take
  | .block => some ⟨x, z, k.structType, ~~~k.ignoreMask, false⟩
  | .struct => some ⟨x, z, k.structType, ~~~k.ignoreMask, true⟩
  | .opn => none

def footprint (blockInfos : BlockInfos) (m : SBlockingMap) (b : SStructure) : List Take :=
  match blockInfos b.cdef.id with
  | some k =>
    let om := corner b.pos (b.cdef.sizeByMask b.facing) - k.getStructOffset b.facing
    let r := m.bound om (opposite om (k.size b.facing))
    (rowCells r.1 r.2).filterMap fun c => maskTake k c.1 c.2 (k.getType b.facing (c.1 - om.1) (c.2 - om.2))
  | none =>
    let size := b.cdef.size b.facing
    let r := m.bound (corner b.pos size) (opposite (corner b.pos size) size)
    (columnCells r.1 r.2).map fun c => ⟨c.1, c.2, .unknown, structMaskAll, true⟩

def StructAt (blockInfos : BlockInfos) (m : SBlockingMap) (x z : Nat) (b : SStructure) : Prop :=
  ∃ t ∈ footprint blockInfos m b, t.struct ∧ t.x = x ∧ t.z = z

def ReservedAt (blockInfos : BlockInfos) (m : SBlockingMap) (mask : SM) (x z : Nat) (b : SStructure) : Prop :=
  ∃ t ∈ footprint blockInfos m b, t.x = x ∧ t.z = z ∧ ¬t.struct ∧ getStructMask t.type &&& mask ≠ 0

/-- The cell `x`, `z` is a structure cell of `b`, and `b` does not ignore the mask. -/
def StructedAt (blockInfos : BlockInfos) (m : SBlockingMap) (mask : SM) (x z : Nat) (b : SStructure) : Prop :=
  ∃ t ∈ footprint blockInfos m b, t.x = x ∧ t.z = z ∧ t.struct ∧ t.notIgnoreMask &&& mask ≠ 0

/-- The structures of two buildings share no cell. -/
def Apart (blockInfos : BlockInfos) (m : SBlockingMap) (b b' : SStructure) : Prop :=
  ∀ t ∈ footprint blockInfos m b, ∀ t' ∈ footprint blockInfos m b', t.struct → t'.struct →
    ¬(t.x = t'.x ∧ t.z = t'.z)

instance (blockInfos : BlockInfos) (m : SBlockingMap) (b b' : SStructure) : Decidable (Apart blockInfos m b b') :=
  inferInstanceAs (Decidable (∀ t ∈ _, ∀ t' ∈ _, _ → _ → _))

def reserved (blockInfos : BlockInfos) (m : SBlockingMap) (bs : List SStructure) (x z : Nat) (type : StructType) : ℕ :=
  (bs.flatMap (footprint blockInfos m)).countP fun t => !t.struct && t.x == x && t.z == z && t.type == type

structure Present where
  building : SStructure
  before : SBlockingMap

/-- The runs of `AddBlocker` and `DelBlocker` from `m₀`: the buildings present and the map. A removal
takes back one building that is present. -/
inductive Run (blockInfos : BlockInfos) (m₀ : SBlockingMap)
    (okAdd : List Present → SBlockingMap → SStructure → Prop) (okDel : SBlockingMap → Present → Prop) :
    List Present → SBlockingMap → Prop
  | start : Run blockInfos m₀ okAdd okDel [] m₀
  | add {ps : List Present} {m : SBlockingMap} (b : SStructure) : Run blockInfos m₀ okAdd okDel ps m →
    okAdd ps m b → Run blockInfos m₀ okAdd okDel (⟨b, m⟩ :: ps) (addBlocker blockInfos m b)
  | del (l₁ l₂ : List Present) {p : Present} {m : SBlockingMap} :
    Run blockInfos m₀ okAdd okDel (l₁ ++ p :: l₂) m → okDel m p →
    Run blockInfos m₀ okAdd okDel (l₁ ++ l₂) (delBlocker blockInfos m p.building)

end Circuit.Spec.Buildings
