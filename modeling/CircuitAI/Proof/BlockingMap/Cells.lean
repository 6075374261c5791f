import CircuitAI.Impl.BlockingMap
import CircuitAI.Framework.Gate

/-!
# What each mark does to the two grids

Of a cell, and of a coarse square, each structure type has a gate (`SBlockCell.gate`, `SBlockCellLow.gate`): its counter
with its bit of the blocker mask. Every operation of the blocking map moves the gate of its type on one cell and on the
square that covers it, and may replace the cell's structure mark; `Changes` says so, once, and the `_changes` lemmas give
the moves of the five operations. Everything about runs is proved from these.
-/

namespace Circuit.Impl.BlockingMap

open Framework Function

/-! ## Bits of the masks -/

theorem StructType.toNat_lt (type : StructType) : type.toNat < 13 := by
  cases type <;> decide

theorem StructType.toNat_inj {a b : StructType} : a.toNat = b.toNat ↔ a = b := by
  constructor
  · cases a <;> cases b <;> simp [StructType.toNat]
  · rintro rfl
    rfl

theorem StructType.exists_toNat {k : Nat} (h : k < 13) : ∃ type : StructType, type.toNat = k := by
  have hall : ∀ k : Fin 13, ∃ type ∈ [StructType.factory, .mex, .engyLow, .engyMid, .engyHigh, .pylon, .defLow,
      .defMid, .defHigh, .special, .nano, .terra, .unknown], type.toNat = k := by decide
  obtain ⟨type, -, he⟩ := hall ⟨k, h⟩
  exact ⟨type, he⟩

@[simp] theorem getLsbD_getStructMask (type : StructType) (k : Nat) :
    (getStructMask type).getLsbD k = decide (k = type.toNat) := by
  have h : type.toNat < 16 := type.toNat_lt.trans (by decide)
  rw [getStructMask, ← BitVec.twoPow_eq, BitVec.getLsbD_twoPow, decide_eq_true h, Bool.true_and]
  exact decide_eq_decide.2 eq_comm

theorem getStructMask_ne_zero (type : StructType) : getStructMask type ≠ 0 := by
  cases type <;> decide

theorem getStructMask_inj {a b : StructType} : getStructMask a = getStructMask b ↔ a = b := by
  constructor
  · cases a <;> cases b <;> first | (intro; rfl) | (intro h; exact absurd h (by decide))
  · rintro rfl
    rfl

theorem getLsbD_or_getStructMask (mask : SM) (type other : StructType) :
    (mask ||| getStructMask other).getLsbD type.toNat = (mask.getLsbD type.toNat || decide (type = other)) := by
  simp [StructType.toNat_inj]

theorem getLsbD_and_not_getStructMask (mask : SM) (type other : StructType) :
    (mask &&& ~~~getStructMask other).getLsbD type.toNat = (mask.getLsbD type.toNat && !decide (type = other)) := by
  have h : type.toNat < 16 := type.toNat_lt.trans (by decide)
  rw [BitVec.getLsbD_and, BitVec.getLsbD_not, getLsbD_getStructMask, decide_eq_true h, Bool.true_and]
  simp only [StructType.toNat_inj]

def spare (mask : SM) (k : Nat) : Bool := mask.getLsbD (13 + k)

@[simp] theorem spare_or (mask : SM) (type : StructType) : spare (mask ||| getStructMask type) = spare mask := by
  have h := type.toNat_lt
  ext k
  simp [spare, show 13 + k ≠ type.toNat by omega]

@[simp] theorem spare_and_not (mask : SM) (type : StructType) :
    spare (mask &&& ~~~getStructMask type) = spare mask := by
  have h := type.toNat_lt
  ext k
  rw [spare, BitVec.getLsbD_and, BitVec.getLsbD_not, getLsbD_getStructMask,
    decide_eq_false (show 13 + k ≠ type.toNat by omega)]
  by_cases hk : 13 + k < 16
  · simp [spare, hk]
  · simp [spare, BitVec.getLsbD_of_ge _ _ (not_lt.1 hk)]

theorem mask_ext {a b : SM} (h : ∀ type : StructType, a.getLsbD type.toNat = b.getLsbD type.toNat)
    (hs : spare a = spare b) : a = b := by
  refine BitVec.eq_of_getLsbD_eq fun k _ => ?_
  by_cases hk : k < 13
  · obtain ⟨type, rfl⟩ := StructType.exists_toNat hk
    exact h type
  · have := congrFun hs (k - 13)
    rwa [spare, spare, show 13 + (k - 13) = k by omega] at this

/-! ## Gates -/

def SBlockCell.gate (c : SBlockCell) (type : StructType) : Gate 16 :=
  ⟨c.blockerCounts type, c.blockerMask.getLsbD type.toNat⟩

def SBlockCell.mark (c : SBlockCell) : SM × SM := (c.notIgnoreMask, c.structMask)

def SBlockCellLow.gate (c : SBlockCellLow) (type : StructType) : Gate 16 :=
  ⟨c.blockerCounts type, c.blockerMask.getLsbD type.toNat⟩

theorem SBlockCell.eq_of_gate {c c' : SBlockCell} (hg : ∀ type, c.gate type = c'.gate type)
    (hs : spare c.blockerMask = spare c'.blockerMask) (hm : c.mark = c'.mark) : c = c' := by
  have hb : c.blockerMask = c'.blockerMask := mask_ext (fun type => congrArg Gate.flag (hg type)) hs
  have hc : c.blockerCounts = c'.blockerCounts := funext fun type => congrArg Gate.count (hg type)
  simp only [SBlockCell.mark, Prod.mk.injEq] at hm
  exact SBlockCell.ext hb hm.1 hm.2 hc

theorem SBlockCellLow.eq_of_gate {c c' : SBlockCellLow} (hg : ∀ type, c.gate type = c'.gate type)
    (hs : spare c.blockerMask = spare c'.blockerMask) : c = c' := by
  have hb : c.blockerMask = c'.blockerMask := mask_ext (fun type => congrArg Gate.flag (hg type)) hs
  have hc : c.blockerCounts = c'.blockerCounts := funext fun type => congrArg Gate.count (hg type)
  exact SBlockCellLow.ext hb hc

def markLow (g : Gate 16) : Gate 16 := ⟨g.count + 1, g.flag || g.count == blockThreshold⟩

namespace SBlockCellLow

variable (c : SBlockCellLow) (type other : StructType)

theorem gate_raise :
    (c.raise type).gate other = if other = type then (c.gate type).up blockThreshold else c.gate other := by
  split
  · rename_i h
    subst h
    ext1 <;> simp only [gate, raise, Gate.up, update_self]
    split <;> rename_i ht
    · rw [getLsbD_or_getStructMask, beq_iff_eq.2 ht, decide_eq_true rfl]
    · rw [beq_false_of_ne ht, Bool.or_false]
  · rename_i h
    ext1 <;> simp only [gate, raise, update_of_ne h]
    split
    · rw [getLsbD_or_getStructMask, decide_eq_false h, Bool.or_false]
    · rfl

theorem gate_lower :
    (c.lower type).gate other = if other = type then (c.gate type).down blockThreshold else c.gate other := by
  split
  · rename_i h
    subst h
    ext1 <;> simp only [gate, lower, Gate.down, update_self]
    split <;> rename_i ht
    · rw [getLsbD_and_not_getStructMask, ht, decide_eq_true rfl, bne_self_eq_false, Bool.not_true]
    · rw [bne_iff_ne.2 ht, Bool.and_true]
  · rename_i h
    ext1 <;> simp only [gate, lower, update_of_ne h]
    split
    · rw [getLsbD_and_not_getStructMask, decide_eq_false h, Bool.not_false, Bool.and_true]
    · rfl

theorem gate_mark : (c.mark type).gate other = if other = type then markLow (c.gate type) else c.gate other := by
  split
  · rename_i h
    subst h
    ext1 <;> simp only [gate, mark, markLow, update_self]
    split <;> rename_i ht
    · rw [getLsbD_or_getStructMask, beq_iff_eq.2 ht, decide_eq_true rfl]
    · rw [beq_false_of_ne ht, Bool.or_false]
  · rename_i h
    ext1 <;> simp only [gate, mark, update_of_ne h]
    split
    · rw [getLsbD_or_getStructMask, decide_eq_false h, Bool.or_false]
    · rfl

@[simp] theorem spare_raise : spare (c.raise type).blockerMask = spare c.blockerMask := by
  simp only [raise]
  split <;> simp

@[simp] theorem spare_lower : spare (c.lower type).blockerMask = spare c.blockerMask := by
  simp only [lower]
  split <;> simp

@[simp] theorem spare_mark : spare (c.mark type).blockerMask = spare c.blockerMask := by
  simp only [mark]
  split <;> simp

end SBlockCellLow

/-! ## Moves of the map -/

structure Changes (m m' : SBlockingMap) (x z : Nat) (type : StructType) (g gLow : Gate 16) (mark : SM × SM) : Prop where
  columns : m'.columns = m.columns
  rows : m'.rows = m.rows
  columnsLow : m'.columnsLow = m.columnsLow
  rowsLow : m'.rowsLow = m.rowsLow
  gate (i : Nat) (other : StructType) :
    (m'.grid i).gate other = if i = m.index x z ∧ other = type then g else (m.grid i).gate other
  mark (i : Nat) : (m'.grid i).mark = if i = m.index x z then mark else (m.grid i).mark
  spare (i : Nat) : spare (m'.grid i).blockerMask = spare (m.grid i).blockerMask
  gateLow (j : Nat) (other : StructType) :
    (m'.gridLow j).gate other = if j = m.indexLow x z ∧ other = type then gLow else (m.gridLow j).gate other
  spareLow (j : Nat) : BlockingMap.spare (m'.gridLow j).blockerMask = BlockingMap.spare (m.gridLow j).blockerMask

namespace SBlockingMap

theorem eq_of_gate {m m' : SBlockingMap} (hc : m.columns = m'.columns) (hr : m.rows = m'.rows)
    (hcl : m.columnsLow = m'.columnsLow) (hrl : m.rowsLow = m'.rowsLow)
    (hg : ∀ i type, (m.grid i).gate type = (m'.grid i).gate type) (hm : ∀ i, (m.grid i).mark = (m'.grid i).mark)
    (hs : ∀ i, spare (m.grid i).blockerMask = spare (m'.grid i).blockerMask)
    (hgl : ∀ j type, (m.gridLow j).gate type = (m'.gridLow j).gate type)
    (hsl : ∀ j, spare (m.gridLow j).blockerMask = spare (m'.gridLow j).blockerMask) : m = m' :=
  SBlockingMap.ext (funext fun i => SBlockCell.eq_of_gate (hg i) (hs i) (hm i)) hc hr
    (funext fun j => SBlockCellLow.eq_of_gate (hgl j) (hsl j)) hcl hrl

variable (m : SBlockingMap) (x z : Nat) (type : StructType)

theorem setCell_eq_modifyLow (c : SBlockCell) : m.setCell x z c = (m.setCell x z c).modifyLow x z id := by
  simp [modifyLow]

theorem changes_of {c : SBlockCell} {f : SBlockCellLow → SBlockCellLow} {g gLow : Gate 16}
    (hg : ∀ other, c.gate other = if other = type then g else (m.cell x z).gate other)
    (hs : spare c.blockerMask = spare (m.cell x z).blockerMask)
    (hgl : ∀ other, (f (m.gridLow (m.indexLow x z))).gate other =
      if other = type then gLow else (m.gridLow (m.indexLow x z)).gate other)
    (hsl : spare (f (m.gridLow (m.indexLow x z))).blockerMask = spare (m.gridLow (m.indexLow x z)).blockerMask) :
    Changes m ((m.setCell x z c).modifyLow x z f) x z type g gLow c.mark := by
  have hgrid (i : Nat) : ((m.setCell x z c).modifyLow x z f).grid i =
      if i = m.index x z then c else m.grid i := update_apply ..
  have hlow (j : Nat) : ((m.setCell x z c).modifyLow x z f).gridLow j =
      if j = m.indexLow x z then f (m.gridLow (m.indexLow x z)) else m.gridLow j := update_apply ..
  refine ⟨rfl, rfl, rfl, rfl, fun i other => ?_, fun i => ?_, fun i => ?_, fun j other => ?_, fun j => ?_⟩
  · by_cases hi : i = m.index x z
    · subst hi
      rw [hgrid, if_pos rfl, hg]
      simp [cell]
    · rw [hgrid, if_neg hi, if_neg (fun h => hi h.1)]
  · by_cases hi : i = m.index x z
    · rw [hgrid, if_pos hi, if_pos hi]
    · rw [hgrid, if_neg hi, if_neg hi]
  · by_cases hi : i = m.index x z
    · subst hi
      rw [hgrid, if_pos rfl, hs, cell]
    · rw [hgrid, if_neg hi]
  · by_cases hj : j = m.indexLow x z
    · subst hj
      rw [hlow, if_pos rfl, hgl]
      simp
    · rw [hlow, if_neg hj, if_neg (fun h => hj h.1)]
  · by_cases hj : j = m.indexLow x z
    · subst hj
      rw [hlow, if_pos rfl, hsl]
    · rw [hlow, if_neg hj]

theorem changes_setCell {c : SBlockCell} {g : Gate 16}
    (hg : ∀ other, c.gate other = if other = type then g else (m.cell x z).gate other)
    (hs : spare c.blockerMask = spare (m.cell x z).blockerMask) :
    Changes m (m.setCell x z c) x z type g ((m.gridLow (m.indexLow x z)).gate type) c.mark := by
  rw [setCell_eq_modifyLow]
  refine m.changes_of x z type hg hs (fun other => ?_) rfl
  split
  · rename_i h
    rw [h, id]
  · rfl

end SBlockingMap

/-! ## The gates of a written cell -/

namespace SBlockCell

variable (c : SBlockCell) (type other : StructType) (n : BitVec 16) (mark : SM × SM)

theorem gate_keep : (SBlockCell.mk c.blockerMask mark.1 mark.2 c.blockerCounts).gate other =
      if other = type then c.gate type else c.gate other := by
  split
  · rename_i h
    rw [h]
    rfl
  · rfl

theorem gate_count : (SBlockCell.mk c.blockerMask mark.1 mark.2 (update c.blockerCounts type n)).gate other =
      if other = type then ⟨n, (c.gate type).flag⟩ else c.gate other := by
  split
  · rename_i h
    subst h
    simp [gate]
  · rename_i h
    simp [gate, update_of_ne h]

theorem gate_raise : (SBlockCell.mk (c.blockerMask ||| getStructMask type) mark.1 mark.2
      (update c.blockerCounts type n)).gate other = if other = type then ⟨n, true⟩ else c.gate other := by
  split
  · rename_i h
    subst h
    simp [gate]
  · rename_i h
    simp only [gate, update_of_ne h, getLsbD_or_getStructMask, decide_eq_false h, Bool.or_false]

theorem gate_drop : (SBlockCell.mk (c.blockerMask &&& ~~~getStructMask type) mark.1 mark.2
      (update c.blockerCounts type n)).gate other = if other = type then ⟨n, false⟩ else c.gate other := by
  split
  · rename_i h
    subst h
    simp only [gate, update_self, getLsbD_and_not_getStructMask, decide_true, Bool.not_true, Bool.and_false]
  · rename_i h
    simp only [gate, update_of_ne h, getLsbD_and_not_getStructMask, decide_eq_false h, Bool.not_false,
      Bool.and_true]

end SBlockCell

/-! ## The five operations -/

namespace SBlockingMap

variable (m : SBlockingMap) (x z : Nat) (type : StructType)

def gateAt : Gate 16 := (m.cell x z).gate type

def gateLowAt : Gate 16 := (m.gridLow (m.indexLow x z)).gate type

theorem gateAt_count : (m.gateAt x z type).count = (m.cell x z).blockerCounts type := rfl

theorem markBlocker_changes (notIgnoreMask : SM) :
    Changes m (m.markBlocker x z type notIgnoreMask) x z type ⟨maxBlockVal, true⟩ (markLow (m.gateLowAt x z type))
      (notIgnoreMask, (m.cell x z).structMask) :=
  m.changes_of x z type (SBlockCell.gate_raise _ type · maxBlockVal (notIgnoreMask, (m.cell x z).structMask))
    (spare_or _ _) (SBlockCellLow.gate_mark _ type) (SBlockCellLow.spare_mark ..)

theorem addBlocker_changes : Changes m (m.addBlocker x z type) x z type ((m.gateAt x z type).up 1)
      (if (m.gateAt x z type).count = 0 then (m.gateLowAt x z type).up blockThreshold else m.gateLowAt x z type)
      (m.cell x z).mark := by
  rw [gateAt_count]
  unfold addBlocker
  by_cases h : (m.cell x z).blockerCounts type = 0
  · have hup : (m.gateAt x z type).up 1 = ⟨(m.cell x z).blockerCounts type + 1, true⟩ := by
      simp [gateAt, SBlockCell.gate, Gate.up, h]
    rw [if_pos h, if_pos h, hup]
    exact m.changes_of x z type (SBlockCell.gate_raise _ type · _ (m.cell x z).mark) (spare_or _ _)
      (SBlockCellLow.gate_raise _ type) (SBlockCellLow.spare_raise ..)
  · have hne : (m.cell x z).blockerCounts type + 1 ≠ 1 := by bv_omega
    have hup : (m.gateAt x z type).up 1 = ⟨(m.cell x z).blockerCounts type + 1, (m.gateAt x z type).flag⟩ := by
      simp only [gateAt, SBlockCell.gate, Gate.up, beq_false_of_ne hne, Bool.or_false]
    rw [if_neg h, if_neg h, hup]
    exact m.changes_setCell x z type (SBlockCell.gate_count _ type · _ (m.cell x z).mark) rfl

theorem delBlocker_changes : Changes m (m.delBlocker x z type) x z type ((m.gateAt x z type).down 1)
      (if (m.gateAt x z type).count = 1 then (m.gateLowAt x z type).down blockThreshold else m.gateLowAt x z type)
      (m.cell x z).mark := by
  have hiff : (m.cell x z).blockerCounts type - 1 = 0 ↔ (m.cell x z).blockerCounts type = 1 := by bv_omega
  rw [gateAt_count]
  unfold delBlocker
  by_cases h : (m.cell x z).blockerCounts type = 1
  · have hdown : (m.gateAt x z type).down 1 = ⟨(m.cell x z).blockerCounts type - 1, false⟩ := by
      simp [gateAt, SBlockCell.gate, Gate.down, h]
    rw [if_pos (hiff.2 h), if_pos h, hdown]
    exact m.changes_of x z type (SBlockCell.gate_drop _ type · _ (m.cell x z).mark) (spare_and_not _ _)
      (SBlockCellLow.gate_lower _ type) (SBlockCellLow.spare_lower ..)
  · have hdown : (m.gateAt x z type).down 1 = ⟨(m.cell x z).blockerCounts type - 1, (m.gateAt x z type).flag⟩ := by
      simp only [gateAt, SBlockCell.gate, Gate.down, bne_iff_ne.2 h, Bool.and_true]
    rw [if_neg (hiff.not.2 h), if_neg h, hdown]
    exact m.changes_setCell x z type (SBlockCell.gate_count _ type · _ (m.cell x z).mark) rfl

theorem addStruct_changes (notIgnoreMask : SM) :
    Changes m (m.addStruct x z type notIgnoreMask) x z type (m.gateAt x z type)
      (if (m.gateAt x z type).count = 0 then (m.gateLowAt x z type).up blockThreshold else m.gateLowAt x z type)
      (notIgnoreMask, getStructMask type) := by
  rw [gateAt_count]
  unfold addStruct
  by_cases h : (m.cell x z).blockerCounts type = 0 <;> simp only [h, if_true, if_false]
  · exact m.changes_of x z type (SBlockCell.gate_keep _ type · (notIgnoreMask, getStructMask type)) rfl
      (SBlockCellLow.gate_raise _ type) (SBlockCellLow.spare_raise ..)
  · exact m.changes_setCell x z type (SBlockCell.gate_keep _ type · (notIgnoreMask, getStructMask type)) rfl

theorem delStruct_changes : Changes m (m.delStruct x z type) x z type (m.gateAt x z type)
      (if (m.gateAt x z type).count = 0 then (m.gateLowAt x z type).down blockThreshold else m.gateLowAt x z type)
      (0, 0) := by
  rw [gateAt_count]
  unfold delStruct
  by_cases h : (m.cell x z).blockerCounts type = 0 <;> simp only [h, if_true, if_false]
  · exact m.changes_of x z type (SBlockCell.gate_keep _ type · (0, 0)) rfl
      (SBlockCellLow.gate_lower _ type) (SBlockCellLow.spare_lower ..)
  · exact m.changes_setCell x z type (SBlockCell.gate_keep _ type · (0, 0)) rfl

end SBlockingMap

end Circuit.Impl.BlockingMap
