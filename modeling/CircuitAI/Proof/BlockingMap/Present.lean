import CircuitAI.Proof.BlockingMap.Footprint

/-!
# What a cell says about the buildings present

A cell follows the list of the cells taken so far: each gate stands as many clean increments above
its start as there are reservations of its type, and the structure mark is that
of the one structure that stands there (`CellInv`). Taking a cell extends the
list (`CellInv.add`), giving it back shortens it (`CellInv.del`).
-/

namespace Circuit.Spec.Buildings

open Framework Impl.BlockingMap Impl.TerrainManager List

/-! ## Size of the map -/

variable {m₀ m : SBlockingMap} {x z : Nat} {ts : List Take} {blockInfos : BlockInfos} {ps : List Present} {t : Take}

structure SameSize (m₀ m : SBlockingMap) : Prop where
  columns : m.columns = m₀.columns
  rows : m.rows = m₀.rows
  columnsLow : m.columnsLow = m₀.columnsLow
  rowsLow : m.rowsLow = m₀.rowsLow

theorem SameSize.refl (m : SBlockingMap) : SameSize m m := ⟨rfl, rfl, rfl, rfl⟩

theorem SameSize.step {m' : SBlockingMap} {type : StructType} {g gLow : Gate 16} {mark : SM × SM}
    (h : SameSize m₀ m) (hc : Changes m m' x z type g gLow mark) : SameSize m₀ m' :=
  ⟨hc.columns.trans h.columns, hc.rows.trans h.rows, hc.columnsLow.trans h.columnsLow, hc.rowsLow.trans h.rowsLow⟩

theorem SameSize.index (h : SameSize m₀ m) (x z : Nat) : m.index x z = m₀.index x z := by
  rw [SBlockingMap.index, SBlockingMap.index, h.columns]

theorem SameSize.indexLow (h : SameSize m₀ m) (x z : Nat) : m.indexLow x z = m₀.indexLow x z := by
  rw [SBlockingMap.indexLow, SBlockingMap.indexLow, h.columnsLow]

theorem SameSize.cell_eq (h : SameSize m₀ m) (x z : Nat) :
    m.cell x z = m.grid (m₀.index x z) := congrArg m.grid (h.index x z)

section Changes

variable {m₀ m m' : SBlockingMap} {x z : Nat} {type : StructType} {g gLow : Gate 16} {mark : SM × SM}

theorem SameSize.counts_eq (h : SameSize m₀ m) (hc : Changes m m' x z type g gLow mark) (i : Nat)
    (other : StructType) : (m'.grid i).blockerCounts other =
      if i = m₀.index x z ∧ other = type then g.count else (m.grid i).blockerCounts other := by
  have hg := congrArg Gate.count (hc.gate i other)
  rw [h.index] at hg
  refine Eq.trans hg ?_
  split <;> rfl

theorem SameSize.structMask_eq (h : SameSize m₀ m) (hc : Changes m m' x z type g gLow mark) (i : Nat) :
    (m'.grid i).structMask = if i = m₀.index x z then mark.2 else (m.grid i).structMask := by
  have hm := congrArg Prod.snd (hc.mark i)
  rw [h.index] at hm
  refine Eq.trans hm ?_
  split <;> rfl

end Changes

theorem SameSize.footprint (h : SameSize m₀ m) (blockInfos : BlockInfos) (b : SStructure) :
    footprint blockInfos m b = footprint blockInfos m₀ b := footprint_congr h.columns h.rows

theorem index_inj {x' z' : Nat} (hx : x < m.columns) (hx' : x' < m.columns) :
    m.index x z = m.index x' z' ↔ x = x' ∧ z = z' := by
  constructor
  · intro h
    simp only [SBlockingMap.index, Nat.mul_comm _ m.columns] at h
    have hz : z = z' := by
      have := congrArg (· / m.columns) h
      simpa [Nat.mul_add_div (by omega : 0 < m.columns), Nat.div_eq_of_lt hx, Nat.div_eq_of_lt hx'] using this
    subst hz
    exact ⟨Nat.add_left_cancel h, rfl⟩
  · rintro ⟨rfl, rfl⟩
    rfl

def cells (m₀ : SBlockingMap) : Finset (Nat × Nat) := Finset.range m₀.columns ×ˢ Finset.range m₀.rows

def square (m₀ : SBlockingMap) (c : Nat × Nat) : Nat := m₀.indexLow c.1 c.2

theorem mem_cells {c : Nat × Nat} : c ∈ cells m₀ ↔ c.1 < m₀.columns ∧ c.2 < m₀.rows := by
  rw [cells, Finset.mem_product, Finset.mem_range, Finset.mem_range]

theorem eq_of_index {c : Nat × Nat} (hc : c ∈ cells m₀) (hx : x < m₀.columns)
    (h : m₀.index c.1 c.2 = m₀.index x z) : c = (x, z) := by
  obtain ⟨h1, h2⟩ := (index_inj (mem_cells.1 hc).1 hx).1 h
  exact Prod.ext h1 h2

/-! ## The operations of a cell -/

namespace Take

variable (m : SBlockingMap) (t : Take)

def gate : Gate 16 := m.gateAt t.x t.z t.type

def gateLow : Gate 16 := m.gateLowAt t.x t.z t.type

def index : Nat := m.index t.x t.z

theorem add_changes : Changes m (t.add m) t.x t.z t.type (if t.struct then t.gate m else (t.gate m).up 1)
      (if (t.gate m).count = 0 then (t.gateLow m).up blockThreshold else t.gateLow m)
      (if t.struct then (t.notIgnoreMask, getStructMask t.type) else (m.grid (t.index m)).mark) := by
  cases h : t.struct
  · simp only [Take.add, h, Bool.false_eq_true, if_false]
    exact m.addBlocker_changes t.x t.z t.type
  · simp only [Take.add, h, if_true]
    exact m.addStruct_changes t.x t.z t.type t.notIgnoreMask

theorem del_changes : Changes m (t.del m) t.x t.z t.type (if t.struct then t.gate m else (t.gate m).down 1)
      (if (t.gate m).count = (if t.struct then 0 else 1) then (t.gateLow m).down blockThreshold else t.gateLow m)
      (if t.struct then (0, 0) else (m.grid (t.index m)).mark) := by
  cases h : t.struct
  · simp only [Take.del, h, Bool.false_eq_true, if_false]
    exact m.delBlocker_changes t.x t.z t.type
  · simp only [Take.del, h, if_true]
    exact m.delStruct_changes t.x t.z t.type

end Take

/-! ## The map before any building -/

def Bare (m : SBlockingMap) : Prop := ∀ i, (m.grid i).structMask = 0

theorem Bare.markBlocker (h : Bare m) (x z : Nat) (type : StructType) (mask : SM) :
    Bare (m.markBlocker x z type mask) := fun i => by
  have hm := congrArg Prod.snd ((m.markBlocker_changes x z type mask).mark i)
  split at hm
  · exact hm.trans (h _)
  · exact hm.trans (h _)

theorem Bare.foldl {α : Type} {f : SBlockingMap → α → SBlockingMap} (hf : ∀ m a, Bare m → Bare (f m a)) (l : List α)
    (h : Bare m) : Bare (l.foldl f m) := by
  induction l generalizing m with
  | nil => exact h
  | cons a l ih => exact ih (hf m a h)

theorem Setting.bare (s : Setting) : Bare s.start := by
  refine Bare.foldl (fun m c hm => (hm.markBlocker _ _ _ _).markBlocker _ _ _ _) _ ?_
  refine Bare.foldl (fun m c hm => (hm.markBlocker _ _ _ _).markBlocker _ _ _ _) _ ?_
  refine Bare.foldl (fun m spot hm => ?_) _ fun _ => rfl
  exact Bare.foldl (fun m c hm => hm.markBlocker _ _ _ _) _ hm

/-! ## Reservations and structures on a cell -/

def blocks (m₀ : SBlockingMap) (ts : List Take) (i : Nat) (type : StructType) : ℕ :=
  ts.countP fun t => !t.struct && t.index m₀ == i && t.type == type

def structs (m₀ : SBlockingMap) (ts : List Take) (i : Nat) : ℕ :=
  ts.countP fun t => t.struct && t.index m₀ == i

theorem structs_eq_zero {i : Nat} : structs m₀ ts i = 0 ↔ ∀ t ∈ ts, t.struct → t.index m₀ ≠ i := by
  simp [structs, countP_eq_zero]

structure CellInv (m₀ m : SBlockingMap) (ts : List Take) (i : Nat) : Prop where
  gate (type : StructType) : Gate.At 1 ((m₀.grid i).gate type) (blocks m₀ ts i type) ((m.grid i).gate type)
  structs_le : structs m₀ ts i ≤ 1
  taken : ∀ t ∈ ts, t.struct → t.index m₀ = i →
    (m.grid i).mark = (t.notIgnoreMask, getStructMask t.type) ∧ (m₀.grid i).mark = (0, 0)
  free : structs m₀ ts i = 0 → (m.grid i).mark = (m₀.grid i).mark
  spare : spare (m.grid i).blockerMask = spare (m₀.grid i).blockerMask

theorem CellInv.start (m₀ : SBlockingMap) (i : Nat) : CellInv m₀ m₀ [] i where
  gate _ := .zero
  structs_le := Nat.zero_le _
  taken _ h := by simp at h
  free _ := rfl
  spare := rfl

theorem CellInv.perm {ts' : List Take} {i : Nat} (h : CellInv m₀ m ts i) (hp : ts.Perm ts') : CellInv m₀ m ts' i where
  gate type := by
    rw [blocks, ← hp.countP_eq]
    exact h.gate type
  structs_le := by
    rw [structs, ← hp.countP_eq]
    exact h.structs_le
  taken t ht := h.taken t (hp.mem_iff.2 ht)
  free h0 := h.free (by rwa [structs, hp.countP_eq])
  spare := h.spare

section Step

variable {m₀ m : SBlockingMap} {ts : List Take} {t : Take} {i : Nat}

theorem blocks_cons (type : StructType) :
    blocks m₀ (t :: ts) i type = blocks m₀ ts i type + if ¬t.struct ∧ t.index m₀ = i ∧ t.type = type then 1 else 0 := by
  simp only [blocks, countP_cons, Bool.and_eq_true, beq_iff_eq, Bool.not_eq_true', Bool.not_eq_true, and_assoc]

theorem structs_cons : structs m₀ (t :: ts) i = structs m₀ ts i + if t.struct ∧ t.index m₀ = i then 1 else 0 := by
  simp only [structs, countP_cons, Bool.and_eq_true, beq_iff_eq]

theorem CellInv.add (hsize : SameSize m₀ m) (h : CellInv m₀ m ts i)
    (hstruct : t.struct → t.index m₀ = i → structs m₀ ts i = 0 ∧ (m₀.grid i).mark = (0, 0))
    (hblock : ¬t.struct → t.index m₀ = i → Gate.Clean 1 (t.gate m)) : CellInv m₀ (t.add m) (t :: ts) i := by
  have hc := t.add_changes m
  have hidx : m.index t.x t.z = t.index m₀ := hsize.index t.x t.z
  have hmark := hc.mark i
  rw [hidx] at hmark
  refine ⟨fun type => ?_, ?_, fun t' ht' hs' hi' => ?_, fun h0 => ?_, (hc.spare i).trans h.spare⟩
  · have hg := hc.gate i type
    rw [hidx] at hg
    rw [blocks_cons]
    by_cases hi : i = t.index m₀ ∧ type = t.type
    · obtain ⟨rfl, rfl⟩ := hi
      have hgt : t.gate m = (m.grid (t.index m₀)).gate t.type := by rw [← hidx]; rfl
      rw [if_pos ⟨rfl, rfl⟩, hgt] at hg
      rw [hg]
      by_cases hs : t.struct
      · rw [if_pos hs, if_neg (fun hh => hh.1 hs)]
        exact h.gate _
      · rw [if_neg hs, if_pos ⟨hs, rfl, rfl⟩]
        exact (h.gate _).succ (hgt ▸ hblock hs rfl)
    · rw [if_neg hi] at hg
      rw [hg, if_neg (fun hh => hi ⟨hh.2.1.symm, hh.2.2.symm⟩)]
      exact h.gate type
  · rw [structs_cons]
    split
    · rename_i hs
      rw [(hstruct hs.1 hs.2).1]
    · exact h.structs_le
  · rw [hmark]
    rcases mem_cons.1 ht' with rfl | ht'
    · rw [if_pos hi'.symm, if_pos hs']
      exact ⟨rfl, (hstruct hs' hi').2⟩
    · by_cases hi : i = t.index m₀
      · have hs : ¬t.struct := fun hs => structs_eq_zero.1 (hstruct hs hi.symm).1 t' ht' hs' hi'
        rw [if_pos hi, if_neg hs, show t.index m = i from hidx.trans hi.symm]
        exact h.taken t' ht' hs' hi'
      · rw [if_neg hi]
        exact h.taken t' ht' hs' hi'
  · have hne : ¬(t.struct ∧ t.index m₀ = i) := fun hs =>
      structs_eq_zero.1 h0 t (mem_cons_self ..) hs.1 hs.2
    rw [structs_cons, if_neg hne] at h0
    rw [hmark]
    by_cases hi : i = t.index m₀
    · rw [if_pos hi, if_neg (fun hs => hne ⟨hs, hi.symm⟩), show t.index m = i from hidx.trans hi.symm]
      exact h.free h0
    · rw [if_neg hi]
      exact h.free h0

theorem CellInv.del (hsize : SameSize m₀ m) (h : CellInv m₀ m (t :: ts) i) : CellInv m₀ (t.del m) ts i := by
  have hc := t.del_changes m
  have hidx : m.index t.x t.z = t.index m₀ := hsize.index t.x t.z
  have hmark := hc.mark i
  rw [hidx] at hmark
  have hle := h.structs_le
  rw [structs_cons] at hle
  -- a structure given back was the only one on its cell
  have hlast : t.struct → t.index m₀ = i → structs m₀ ts i = 0 := fun hs hi => by
    rw [if_pos ⟨hs, hi⟩] at hle
    omega
  refine ⟨fun type => ?_, le_trans (Nat.le_add_right _ _) hle, fun t' ht' hs' hi' => ?_, fun h0 => ?_,
    (hc.spare i).trans h.spare⟩
  · have hg := hc.gate i type
    have hold := h.gate type
    rw [hidx] at hg
    rw [blocks_cons] at hold
    by_cases hi : i = t.index m₀ ∧ type = t.type
    · obtain ⟨rfl, rfl⟩ := hi
      have hgt : t.gate m = (m.grid (t.index m₀)).gate t.type := by rw [← hidx]; rfl
      rw [hg, if_pos ⟨rfl, rfl⟩]
      by_cases hs : t.struct
      · rw [if_neg (fun hh => hh.1 hs)] at hold
        rw [if_pos hs, hgt]
        exact hold
      · rw [if_pos ⟨hs, rfl, rfl⟩] at hold
        rw [if_neg hs, hgt]
        exact hold.down
    · rw [if_neg (fun hh => hi ⟨hh.2.1.symm, hh.2.2.symm⟩)] at hold
      rw [hg, if_neg hi]
      exact hold
  · have hne : ¬(t.struct ∧ t.index m₀ = i) := fun hs =>
      structs_eq_zero.1 (hlast hs.1 hs.2) t' ht' hs' hi'
    rw [hmark]
    by_cases hi : i = t.index m₀
    · rw [if_pos hi, if_neg (fun hs => hne ⟨hs, hi.symm⟩), show t.index m = i from hidx.trans hi.symm]
      exact h.taken t' (mem_cons_of_mem _ ht') hs' hi'
    · rw [if_neg hi]
      exact h.taken t' (mem_cons_of_mem _ ht') hs' hi'
  · rw [hmark]
    by_cases hi : i = t.index m₀
    · by_cases hs : t.struct
      · rw [if_pos hi, if_pos hs]
        exact (h.taken t (mem_cons_self ..) hs hi.symm).2.symm
      · rw [if_pos hi, if_neg hs, show t.index m = i from hidx.trans hi.symm]
        exact h.free (by rw [structs_cons, if_neg (fun hh => hs hh.1), h0])
    · rw [if_neg hi]
      exact h.free (by rw [structs_cons, if_neg (fun hh => hi hh.2.symm), h0])

end Step

/-! ## Whole buildings -/

theorem SameSize.foldl {f : SBlockingMap → Take → SBlockingMap}
    (hf : ∀ m t, SameSize m₀ m → SameSize m₀ (f m t)) (h : SameSize m₀ m) (fp : List Take) :
    SameSize m₀ (fp.foldl f m) := by
  induction fp generalizing m with
  | nil => exact h
  | cons t fp ih => exact ih (hf m t h)

theorem SameSize.addBlocker (h : SameSize m₀ m) (blockInfos : BlockInfos) (b : SStructure) :
    SameSize m₀ (addBlocker blockInfos m b) := by
  rw [addBlocker_eq]
  exact h.foldl (fun m t hm => hm.step (t.add_changes m)) _

theorem SameSize.delBlocker (h : SameSize m₀ m) (blockInfos : BlockInfos) (b : SStructure) :
    SameSize m₀ (delBlocker blockInfos m b) := by
  rw [delBlocker_eq]
  exact h.foldl (fun m t hm => hm.step (t.del_changes m)) _

theorem run_sameSize {okAdd : List Present → SBlockingMap → SStructure → Prop} {okDel : SBlockingMap → Present → Prop}
    (h : Run blockInfos m₀ okAdd okDel ps m) : SameSize m₀ m := by
  induction h with
  | start => exact .refl m₀
  | add b _ _ ih => exact ih.addBlocker blockInfos b
  | del l₁ l₂ _ _ ih => exact ih.delBlocker blockInfos _

def standing (blockInfos : BlockInfos) (m₀ : SBlockingMap) (ps : List Present) : List Take :=
  ps.flatMap fun p => footprint blockInfos m₀ p.building

theorem mem_standing : t ∈ standing blockInfos m₀ ps ↔ ∃ p ∈ ps, t ∈ footprint blockInfos m₀ p.building := mem_flatMap

theorem structs_standing {b : SStructure}
    (h : ∀ p ∈ ps, Apart blockInfos m₀ b p.building) (ht : t ∈ footprint blockInfos m₀ b)
    (hs : t.struct) : structs m₀ (standing blockInfos m₀ ps) (t.index m₀) = 0 := by
  refine structs_eq_zero.2 fun t' ht' hs' hi => ?_
  obtain ⟨p, hp, ht'⟩ := mem_standing.1 ht'
  obtain ⟨hx, hz⟩ := (index_inj (footprint_inBounds ht').1 (footprint_inBounds ht).1).1 hi
  exact h p hp t ht t' ht' hs hs' ⟨hx.symm, hz.symm⟩

theorem standing_perm (blockInfos : BlockInfos) (m₀ : SBlockingMap) (l₁ l₂ : List Present) (p : Present) :
    (standing blockInfos m₀ (l₁ ++ p :: l₂)).Perm
      (footprint blockInfos m₀ p.building ++ standing blockInfos m₀ (l₁ ++ l₂)) := by
  simp only [standing, flatMap_append, flatMap_cons]
  exact perm_append_comm_assoc ..

theorem structs_cons_of_ne {t' : Take} (hx : t.x < m₀.columns)
    (hx' : t'.x < m₀.columns) (hne : ¬(t.x = t'.x ∧ t.z = t'.z)) :
    structs m₀ (t :: ts) (t'.index m₀) = structs m₀ ts (t'.index m₀) := by
  rw [structs_cons, if_neg, Nat.add_zero]
  rintro ⟨-, hi⟩
  exact hne ((index_inj hx hx').1 hi)

end Circuit.Spec.Buildings
