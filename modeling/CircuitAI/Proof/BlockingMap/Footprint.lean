import CircuitAI.Spec.Buildings
import CircuitAI.Proof.BlockingMap.Cells

/-!
# Marking a building, cell by cell

`AddBlocker` and `DelBlocker` of a building are the operations of its cells one after another
(`addBlocker_eq`, `delBlocker_eq`). The cells of a building lie on the map
(`footprint_inBounds`), are pairwise different (`footprint_pairwise`), and depend on the map only through
its size (`footprint_congr`).
-/

namespace Circuit.Spec.Buildings

open Impl.BlockingMap Impl.TerrainManager

/-! ## Loops over cells -/

theorem mem_span {a b : Int} (ha : 0 ≤ a) {n : Nat} : n ∈ span a b ↔ a ≤ n ∧ (n : Int) < b := by
  rw [span, List.mem_range'_1]
  omega

theorem nodup_span (a b : Int) : (span a b).Nodup := List.nodup_range'

theorem mem_rowCells {r1 r2 : Int × Int} (hx : 0 ≤ r1.1) (hz : 0 ≤ r1.2) {c : Nat × Nat} :
    c ∈ rowCells r1 r2 ↔ (r1.1 ≤ c.1 ∧ (c.1 : Int) < r2.1) ∧ (r1.2 ≤ c.2 ∧ (c.2 : Int) < r2.2) := by
  simp only [rowCells, List.mem_flatMap, List.mem_map]
  constructor
  · rintro ⟨z, hz', x, hx', rfl⟩
    exact ⟨(mem_span hx).1 hx', (mem_span hz).1 hz'⟩
  · rintro ⟨hx', hz'⟩
    exact ⟨c.2, (mem_span hz).2 hz', c.1, (mem_span hx).2 hx', rfl⟩

theorem mem_columnCells {r1 r2 : Int × Int} (hx : 0 ≤ r1.1) (hz : 0 ≤ r1.2) {c : Nat × Nat} :
    c ∈ columnCells r1 r2 ↔ (r1.1 ≤ c.1 ∧ (c.1 : Int) < r2.1) ∧ (r1.2 ≤ c.2 ∧ (c.2 : Int) < r2.2) := by
  simp only [columnCells, List.mem_flatMap, List.mem_map]
  constructor
  · rintro ⟨x, hx', z, hz', rfl⟩
    exact ⟨(mem_span hx).1 hx', (mem_span hz).1 hz'⟩
  · rintro ⟨hx', hz'⟩
    exact ⟨c.1, (mem_span hx).2 hx', c.2, (mem_span hz).2 hz', rfl⟩

theorem nodup_rowCells (r1 r2 : Int × Int) : (rowCells r1 r2).Nodup := by
  refine List.nodup_flatMap.2 ⟨fun z _ => (nodup_span _ _).map fun _ _ h => congrArg Prod.fst h, ?_⟩
  refine (nodup_span _ _).imp fun {a b} hab c ha hb => hab ?_
  obtain ⟨_, _, rfl⟩ := List.mem_map.1 ha
  obtain ⟨_, _, h⟩ := List.mem_map.1 hb
  exact (congrArg Prod.snd h).symm

theorem nodup_columnCells (r1 r2 : Int × Int) : (columnCells r1 r2).Nodup := by
  refine List.nodup_flatMap.2 ⟨fun z _ => (nodup_span _ _).map fun _ _ h => congrArg Prod.snd h, ?_⟩
  refine (nodup_span _ _).imp fun {a b} hab c ha hb => hab ?_
  obtain ⟨_, _, rfl⟩ := List.mem_map.1 ha
  obtain ⟨_, _, h⟩ := List.mem_map.1 hb
  exact (congrArg Prod.fst h).symm

/-! ## The cells of a building -/

theorem maskTake_place {k : IBlockMask} {x z : Nat} {type : BlockType} {t : Take}
    (h : maskTake k x z type = some t) : t.x = x ∧ t.z = z := by
  cases type <;> simp only [maskTake, Option.some.injEq, reduceCtorEq] at h
  · subst h
    exact ⟨rfl, rfl⟩
  · subst h
    exact ⟨rfl, rfl⟩

theorem markCell_add (k : IBlockMask) (m : SBlockingMap) (x z : Nat) (type : BlockType) :
    markCell k true m x z type = ((maskTake k x z type).map (Take.add m)).getD m := by
  cases type <;> rfl

theorem markCell_del (k : IBlockMask) (m : SBlockingMap) (x z : Nat) (type : BlockType) :
    markCell k false m x z type = ((maskTake k x z type).map (Take.del m)).getD m := by
  cases type <;> rfl

theorem foldl_filterMap_getD {α σ τ : Type} (f : α → Option τ) (g : σ → τ → σ) (l : List α) (s : σ) :
    l.foldl (fun s a => ((f a).map (g s)).getD s) s = (l.filterMap f).foldl g s := by
  induction l generalizing s with
  | nil => rfl
  | cons a l ih =>
    rw [List.foldl_cons, ih, List.filterMap_cons]
    cases f a <;> rfl

variable (blockInfos : BlockInfos) (m : SBlockingMap) (b : SStructure)

theorem addBlocker_eq : addBlocker blockInfos m b = (footprint blockInfos m b).foldl Take.add m := by
  unfold addBlocker markBlocker footprint
  cases blockInfos b.cdef.id with
  | some k =>
    simp only [markBlockerByMask, markCell_add]
    exact foldl_filterMap_getD _ Take.add _ m
  | none =>
    simp only [List.foldl_map]
    rfl

theorem delBlocker_eq : delBlocker blockInfos m b = (footprint blockInfos m b).foldl Take.del m := by
  unfold delBlocker markBlocker footprint
  cases blockInfos b.cdef.id with
  | some k =>
    simp only [markBlockerByMask, markCell_del]
    exact foldl_filterMap_getD _ Take.del _ m
  | none =>
    simp only [List.foldl_map]
    rfl

variable {blockInfos m b}

theorem footprint_congr {m' : SBlockingMap} (hc : m'.columns = m.columns) (hr : m'.rows = m.rows) :
    footprint blockInfos m' b = footprint blockInfos m b := by
  simp only [footprint, SBlockingMap.bound, hc, hr]

theorem footprint_inBounds {t : Take} (h : t ∈ footprint blockInfos m b) : t.x < m.columns ∧ t.z < m.rows := by
  unfold footprint at h
  split at h
  · obtain ⟨c, hc, ht⟩ := List.mem_filterMap.1 h
    obtain ⟨hx, hz⟩ := maskTake_place ht
    have hb := (mem_rowCells (le_max_right _ _) (le_max_right _ _)).1 hc
    simp only [SBlockingMap.bound] at hb
    omega
  · obtain ⟨c, hc, rfl⟩ := List.mem_map.1 h
    have hb := (mem_columnCells (le_max_right _ _) (le_max_right _ _)).1 hc
    simp only [SBlockingMap.bound] at hb
    show c.1 < m.columns ∧ c.2 < m.rows
    omega

theorem footprint_pairwise : (footprint blockInfos m b).Pairwise fun t t' => ¬(t.x = t'.x ∧ t.z = t'.z) := by
  unfold footprint
  split
  · refine List.pairwise_filterMap.2 ((nodup_rowCells _ _).imp fun {c c'} hne t ht t' ht' h => hne ?_)
    obtain ⟨hx, hz⟩ := maskTake_place ht
    obtain ⟨hx', hz'⟩ := maskTake_place ht'
    exact Prod.ext (hx.symm.trans (h.1.trans hx')) (hz.symm.trans (h.2.trans hz'))
  · exact List.pairwise_map.2 ((nodup_columnCells _ _).imp fun {c c'} hne h => hne (Prod.ext h.1 h.2))

/-! ## A small map -/

def sample : Setting where
  blockInfos
    | 0 => some (.blockRectangle (0, 0) (1, 1) (1, 1) .mex 0)
    | 1 => some (.blockRectangle (0, 0) (3, 3) (1, 1) .engyLow (getStructMask .engyLow))
    | _ => none
  mexDef := ⟨0, 2, 2⟩
  spots := [⟨9 * 16 + 8, 0, 9 * 16 + 8⟩]
  mapWidth := 36
  mapHeight := 36

def sampleBuilding (id x z : Nat) : SStructure := ⟨⟨id, 2, 2⟩, ⟨x * 16 + 8, 0, z * 16 + 8⟩, 0⟩

end Circuit.Spec.Buildings
