import CircuitAI.Proof.BlockingMap.Present
import CircuitAI.Spec.CoarseGrid
import Mathlib.Algebra.BigOperators.Group.Finset.Piecewise

/-!
# What the coarse grid says

As long as every operation on a square keeps count of its cells, the count of the square is the number of the cells taken
(`CellRun.low`), and its bit is set exactly if these reach the threshold, unless it was `MarkBlocker` that brought them
there (`run_low`). The map of `Init` is such a run (`init_marked`).
-/

namespace Circuit.Spec.Buildings

open Framework Impl.BlockingMap Impl.TerrainManager List

/-! ## Gates of squares -/

variable {m : SBlockingMap} {type : StructType}

def lowGate (k : ℕ) (isLate : Bool) : Gate 16 := ⟨BitVec.ofNat 16 k, decide (blockThreshold.toNat ≤ k) && !isLate⟩

section Gates

variable {k : ℕ} {isLate : Bool}

theorem ofNat_eq_threshold (hk : k < 2 ^ 16) : BitVec.ofNat 16 k = blockThreshold ↔ k = blockThreshold.toNat := by
  rw [← BitVec.toNat_inj, BitVec.toNat_ofNat, Nat.mod_eq_of_lt hk]

theorem gain_lowGate (isMark : Bool) (hk : k + 1 < 2 ^ 16) :
    (if isMark then markLow (lowGate k isLate) else (lowGate k isLate).up blockThreshold) = lowGate (k + 1)
      (if k + 1 = blockThreshold.toNat then isMark else isLate && !(isMark && k = blockThreshold.toNat)) := by
  have h := ofNat_eq_threshold (Nat.lt_of_succ_lt hk)
  have h1 : BitVec.ofNat 16 k + 1#16 = blockThreshold ↔ k + 1 = blockThreshold.toNat := by
    rw [← ofNat_eq_threshold hk, BitVec.ofNat_add]
  cases isMark
  · ext1
    · simp [Gate.up, lowGate, BitVec.ofNat_add]
    · rw [Bool.eq_iff_iff]
      cases isLate <;> simp [Gate.up, lowGate, h1] <;> omega
  · ext1
    · simp [markLow, lowGate, BitVec.ofNat_add]
    · rw [Bool.eq_iff_iff]
      cases isLate <;> simp [markLow, lowGate, h] <;> omega

theorem loss_lowGate (hk : k + 1 < 2 ^ 16) : (lowGate (k + 1) isLate).down blockThreshold = lowGate k isLate := by
  have h := ofNat_eq_threshold hk
  ext1
  · rw [Gate.down, lowGate, BitVec.ofNat_add]
    exact BitVec.add_sub_cancel _ _
  · rw [Bool.eq_iff_iff]
    cases isLate <;> simp [Gate.down, lowGate, h]
    omega

end Gates

/-! ## Steps -/

section Step

variable {m m' : SBlockingMap} {x z xLow zLow : Nat} {type type' : StructType} {g gLow : Gate 16} {mark : SM × SM}

theorem occupied_iff (hc : Changes m m' x z type' g gLow mark) (x' z' : Nat) : Occupied m' type x' z' ↔
    (if m.index x' z' = m.index x z ∧ type = type' then g.count else (m.cell x' z').blockerCounts type) ≠ 0 ∨
      (if m.index x' z' = m.index x z then mark.2 else (m.cell x' z').structMask) = getStructMask type := by
  have hsize := SameSize.refl m
  rw [Occupied, (hsize.step hc).cell_eq, hsize.counts_eq hc, hsize.structMask_eq hc]
  rfl

theorem occupied_of_ne (hc : Changes m m' x z type' g gLow mark) (hx : x < m.columns) {x' z' : Nat}
    (hx' : x' < m.columns) (hne : ¬(x' = x ∧ z' = z)) : Occupied m' type x' z' ↔ Occupied m type x' z' := by
  have hidx : m.index x' z' ≠ m.index x z := mt (index_inj hx' hx).1 hne
  rw [occupied_iff hc, if_neg hidx, if_neg fun h => hidx h.1, Occupied]

theorem occupied_self (hc : Changes m m' x z type' g gLow mark) : Occupied m' type x z ↔
    (if type = type' then g.count else (m.cell x z).blockerCounts type) ≠ 0 ∨ mark.2 = getStructMask type := by
  rw [occupied_iff hc, if_pos rfl]
  simp only [true_and]

end Step

theorem indexLow_eq {x xLow : Nat} (hx : x < m.columns)
    (hcols : m.columns = gridRatioLow * m.columnsLow) (hlow : xLow < m.columnsLow) (z zLow : Nat) :
    zLow * m.columnsLow + xLow = m.indexLow x z ↔ x / gridRatioLow = xLow ∧ z / gridRatioLow = zLow := by
  have hx' : x / gridRatioLow < m.columnsLow := Nat.div_lt_of_lt_mul (hcols ▸ hx)
  have hpos : 0 < m.columnsLow := by omega
  constructor
  · intro he
    simp only [SBlockingMap.indexLow, Nat.mul_comm _ m.columnsLow] at he
    have hz := congrArg (· / m.columnsLow) he
    simp only [Nat.mul_add_div hpos, Nat.div_eq_of_lt hx', Nat.div_eq_of_lt hlow, Nat.add_zero] at hz
    rw [hz] at he
    exact ⟨(Nat.add_left_cancel he).symm, hz.symm⟩
  · rintro ⟨rfl, rfl⟩
    rfl

section Square

variable {m m' : SBlockingMap} {x z : Nat} {type' : StructType} {g gLow : Gate 16} {mark : SM × SM}
  (hc : Changes m m' x z type' g gLow mark) (hx : x < m.columns) (hcols : m.columns = gridRatioLow * m.columnsLow)
  (type : StructType) {xLow : Nat} (hlow : xLow < m.columnsLow) (zLow : Nat)

include hc hx hcols hlow

theorem occupied_in_square {d : Nat × Nat} (hd : d ∈ Finset.range gridRatioLow ×ˢ Finset.range gridRatioLow)
    (hne : ¬(xLow * gridRatioLow + d.1 = x ∧ zLow * gridRatioLow + d.2 = z)) :
    Occupied m' type (xLow * gridRatioLow + d.1) (zLow * gridRatioLow + d.2) ↔
      Occupied m type (xLow * gridRatioLow + d.1) (zLow * gridRatioLow + d.2) := by
  refine occupied_of_ne hc hx ?_ hne
  have hd1 := Finset.mem_range.1 (Finset.mem_product.1 hd).1
  simp only [gridRatioLow] at hcols hd1 ⊢
  omega

theorem occupiedCount_off (hoff : ¬(x / gridRatioLow = xLow ∧ z / gridRatioLow = zLow)) :
    occupiedCount m' type xLow zLow = occupiedCount m type xLow zLow := by
  refine congrArg Finset.card (Finset.filter_congr fun d hd =>
    occupied_in_square hc hx hcols type hlow zLow hd fun h => hoff ?_)
  rw [Finset.mem_product, Finset.mem_range, Finset.mem_range] at hd
  simp only [gridRatioLow] at hd h ⊢
  omega

theorem occupiedCount_on (hon : x / gridRatioLow = xLow ∧ z / gridRatioLow = zLow) :
    occupiedCount m' type xLow zLow + (if Occupied m type x z then 1 else 0) =
      occupiedCount m type xLow zLow + if Occupied m' type x z then 1 else 0 := by
  have hd : (x % gridRatioLow, z % gridRatioLow) ∈ Finset.range gridRatioLow ×ˢ Finset.range gridRatioLow :=
    Finset.mk_mem_product (Finset.mem_range.2 (Nat.mod_lt _ (by decide)))
      (Finset.mem_range.2 (Nat.mod_lt _ (by decide)))
  have hrest := Finset.sum_congr (rfl : (Finset.range gridRatioLow ×ˢ Finset.range gridRatioLow).erase
      (x % gridRatioLow, z % gridRatioLow) = _) fun d hd' => by
    obtain ⟨hne, hd'⟩ := Finset.mem_erase.1 hd'
    refine if_congr (occupied_in_square hc hx hcols type hlow zLow hd' fun h => hne ?_)
      (rfl : (1 : ℕ) = 1) (rfl : (0 : ℕ) = 0)
    rw [Finset.mem_product, Finset.mem_range, Finset.mem_range] at hd'
    refine Prod.ext ?_ ?_ <;> simp only [gridRatioLow] at * <;> omega
  obtain ⟨rfl, rfl⟩ := hon
  rw [occupiedCount, occupiedCount, Finset.card_filter, Finset.card_filter, ← Finset.add_sum_erase _ _ hd,
    ← Finset.add_sum_erase _ _ hd, hrest, Nat.div_add_mod', Nat.div_add_mod']
  omega

end Square

/-! ## Operations -/

inductive Shift (isMark : Bool) (before after : Prop) (g : Gate 16) : Gate 16 → Prop
  | none : (after ↔ before) → Shift isMark before after g g
  | gain : ¬before → after → Shift isMark before after g (if isMark then markLow g else g.up blockThreshold)
  | loss : isMark = false → before → ¬after → Shift isMark before after g (g.down blockThreshold)

theorem shift_of_changes {m' : SBlockingMap} {x z : Nat} {type' : StructType} {g gLow : Gate 16}
    {mark : SM × SM} {isMark : Bool} (hc : Changes m m' x z type' g gLow mark)
    (hother : type ≠ type' → (Occupied m' type x z ↔ Occupied m type x z))
    (hself : type = type' → Shift isMark (Occupied m type x z) (Occupied m' type x z) (m.gateLowAt x z type) gLow) :
    Shift isMark (Occupied m type x z) (Occupied m' type x z) (m.gateLowAt x z type)
      ((m'.gridLow (m.indexLow x z)).gate type) := by
  rw [hc.gateLow]
  by_cases ht : type = type'
  · rw [if_pos ⟨rfl, ht⟩]
    exact hself ht
  · rw [if_neg fun h => ht h.2]
    exact .none (hother ht)

section Shifts

variable (m : SBlockingMap) (type : StructType) (t : Take)

theorem shift_mark (x z : Nat) (other : StructType) (notIgnoreMask : SM)
    (h : (CellOp.mark x z other notIgnoreMask).Counted m type) :
    Shift true (Occupied m type x z) (Occupied (m.markBlocker x z other notIgnoreMask) type x z)
      (m.gateLowAt x z type) (((m.markBlocker x z other notIgnoreMask).gridLow (m.indexLow x z)).gate type) := by
  have hc := m.markBlocker_changes x z other notIgnoreMask
  refine shift_of_changes hc (fun ho => ?_) fun ho => ?_
  · rw [occupied_self hc, if_neg ho]
    rfl
  · subst ho
    refine .gain (h rfl) ((occupied_self hc).2 (.inl ?_))
    rw [if_pos rfl]
    decide

theorem shift_add (h : (CellOp.add t).Counted m type) :
    Shift false (Occupied m type t.x t.z) (Occupied (t.add m) type t.x t.z)
      (m.gateLowAt t.x t.z type) (((t.add m).gridLow (m.indexLow t.x t.z)).gate type) := by
  have hc := t.add_changes m
  simp only [CellOp.Counted] at h
  by_cases hs : t.struct
  · rw [if_pos hs] at h hc
    rw [if_pos hs] at hc
    refine shift_of_changes hc (fun ho => ?_) fun ho => ?_
    · rw [occupied_self hc, if_neg ho, Occupied]
      refine or_congr_right' fun h0 => iff_of_false (fun he => ho (getStructMask_inj.1 he).symm) (h (not_not.1 h0))
    · subst ho
      have hafter : Occupied (t.add m) t.type t.x t.z := (occupied_self hc).2 (.inr rfl)
      by_cases h0 : (t.gate m).count = 0
      · rw [if_pos h0]
        exact .gain (fun hb => hb.elim (fun hn => hn h0) (h h0)) hafter
      · rw [if_neg h0]
        exact .none (iff_of_true hafter (.inl h0))
  · rw [if_neg hs] at h hc
    rw [if_neg hs] at hc
    refine shift_of_changes hc (fun ho => ?_) fun ho => ?_
    · rw [occupied_self hc, if_neg ho]
      rfl
    · subst ho
      obtain ⟨hmax, hfree⟩ := h rfl
      have hafter : Occupied (t.add m) t.type t.x t.z := by
        refine (occupied_self hc).2 (.inl ?_)
        rw [if_pos rfl]
        show (m.cell t.x t.z).blockerCounts t.type + 1 ≠ 0
        bv_omega
      by_cases h0 : (t.gate m).count = 0
      · rw [if_pos h0]
        exact .gain (fun hb => hb.elim (fun hn => hn h0) (hfree h0)) hafter
      · rw [if_neg h0]
        exact .none (iff_of_true hafter (.inl h0))

theorem shift_del (h : (CellOp.del t).Counted m type) :
    Shift false (Occupied m type t.x t.z) (Occupied (t.del m) type t.x t.z)
      (m.gateLowAt t.x t.z type) (((t.del m).gridLow (m.indexLow t.x t.z)).gate type) := by
  have hc := t.del_changes m
  simp only [CellOp.Counted] at h
  by_cases hs : t.struct
  · rw [if_pos hs] at h
    rw [if_pos hs, if_pos hs, if_pos hs] at hc
    have hgone : (0 : SM) ≠ getStructMask type := (getStructMask_ne_zero type).symm
    refine shift_of_changes hc (fun ho => ?_) fun ho => ?_
    · rw [occupied_self hc, if_neg ho, Occupied]
      exact or_congr_right' fun h0 => iff_of_false hgone fun he => ho ((h (not_not.1 h0)).1 he).symm
    · subst ho
      have hself : Occupied (t.del m) t.type t.x t.z ↔ _ := occupied_self hc
      rw [if_pos rfl] at hself
      by_cases h0 : (t.gate m).count = 0
      · rw [if_pos h0]
        exact .loss rfl (.inr ((h h0).2 rfl)) fun ha => (hself.1 ha).elim (fun hn => hn h0) hgone
      · rw [if_neg h0]
        exact .none (iff_of_true (hself.2 (.inl h0)) (.inl h0))
  · rw [if_neg hs] at h
    rw [if_neg hs, if_neg hs, if_neg hs] at hc
    refine shift_of_changes hc (fun ho => ?_) fun ho => ?_
    · rw [occupied_self hc, if_neg ho]
      rfl
    · subst ho
      obtain ⟨hpos, hlast⟩ := h rfl
      have hself : Occupied (t.del m) t.type t.x t.z ↔ _ := occupied_self hc
      rw [if_pos rfl] at hself
      by_cases h1 : (t.gate m).count = 1
      · rw [if_pos h1]
        refine .loss rfl (.inl hpos) fun ha => (hself.1 ha).elim (fun hn => hn ?_) (hlast h1)
        show (t.gate m).count - 1 = 0
        rw [h1]
        rfl
      · rw [if_neg h1]
        refine .none (iff_of_true (hself.2 (.inl ?_)) (.inl hpos))
        have hpos : (t.gate m).count ≠ 0 := hpos
        show (t.gate m).count - 1 ≠ 0
        bv_omega

end Shifts

namespace CellOp

variable (op : CellOp) (m : SBlockingMap)

theorem run_changes : ∃ type g gLow mark, Changes m (op.run m) op.cell.1 op.cell.2 type g gLow mark := by
  cases op with
  | mark x z type notIgnoreMask => exact ⟨_, _, _, _, m.markBlocker_changes x z type notIgnoreMask⟩
  | add t => exact ⟨_, _, _, _, t.add_changes m⟩
  | del t => exact ⟨_, _, _, _, t.del_changes m⟩

variable {op m}

theorem Counted.shift (h : op.Counted m type) :
    Shift op.isMark (Occupied m type op.cell.1 op.cell.2) (Occupied (op.run m) type op.cell.1 op.cell.2)
      (m.gateLowAt op.cell.1 op.cell.2 type) (((op.run m).gridLow (m.indexLow op.cell.1 op.cell.2)).gate type) := by
  cases op with
  | mark x z other notIgnoreMask => exact shift_mark m type x z other notIgnoreMask h
  | add t => exact shift_add m type t h
  | del t => exact shift_del m type t h

end CellOp

/-! ## Runs -/

theorem occupiedCount_le (m : SBlockingMap) (type : StructType) (xLow zLow : Nat) :
    occupiedCount m type xLow zLow ≤ 64 := Finset.card_filter_le _ _

theorem occupiedCount_newMap (mapWidth mapHeight : Nat) (type : StructType) (xLow zLow : Nat) :
    occupiedCount (newMap mapWidth mapHeight) type xLow zLow = 0 :=
  Finset.card_eq_zero.2 (Finset.filter_eq_empty_iff.2 fun _ _ =>
    not_or.2 ⟨fun h => h rfl, (getStructMask_ne_zero type).symm⟩)

inductive Moves (isMark : Bool) (k : ℕ) (g : Gate 16) : ℕ → Gate 16 → Prop
  | none : Moves isMark k g k g
  | gain : Moves isMark k g (k + 1) (if isMark then markLow g else g.up blockThreshold)
  | loss {k' : ℕ} : isMark = false → k = k' + 1 → Moves isMark k g k' (g.down blockThreshold)

namespace CellRun

variable {a b : Nat} {l : List (SBlockingMap × CellOp)} {m : SBlockingMap}

theorem sameSize (h : CellRun a b l m) : SameSize (newMap (16 * a) (16 * b)) m := by
  induction h with
  | start => exact .refl _
  | step op _ _ ih =>
    obtain ⟨_, _, _, _, hc⟩ := op.run_changes _
    exact ih.step hc

theorem tiled (h : CellRun a b l m) : m.columns = gridRatioLow * m.columnsLow := by
  rw [h.sameSize.columns, h.sameSize.columnsLow]
  simp only [newMap, SBlockingMap.empty, gridRatioLow]
  omega

theorem moves (h : CellRun a b l m) {op : CellOp} (hin : op.cell.1 < m.columns ∧ op.cell.2 < m.rows)
    {xLow zLow : Nat} (hx : xLow < m.columnsLow) (hok : op.On xLow zLow → op.Counted m type) :
    Moves op.isMark (occupiedCount m type xLow zLow) ((m.gridLow (zLow * m.columnsLow + xLow)).gate type)
      (occupiedCount (op.run m) type xLow zLow) (((op.run m).gridLow (zLow * m.columnsLow + xLow)).gate type) := by
  obtain ⟨_, _, _, _, hc⟩ := op.run_changes m
  have hidx := indexLow_eq hin.1 h.tiled hx op.cell.2 zLow
  by_cases hon : op.On xLow zLow
  · have hcount := occupiedCount_on hc hin.1 h.tiled type hx zLow hon
    have hshift := (hok hon).shift
    rw [SBlockingMap.gateLowAt, ← hidx.2 hon] at hshift
    generalize ((op.run m).gridLow (zLow * m.columnsLow + xLow)).gate type = g' at hshift
    cases hshift with
    | none hiff =>
      rw [if_congr hiff rfl rfl, Nat.add_right_cancel_iff] at hcount
      rw [hcount]
      exact .none
    | gain hb ha =>
      rw [if_neg hb, if_pos ha] at hcount
      rw [← Nat.add_zero (occupiedCount (op.run m) type xLow zLow), hcount]
      exact .gain
    | loss hm hb ha =>
      rw [if_pos hb, if_neg ha] at hcount
      exact .loss hm hcount.symm
  · rw [occupiedCount_off hc hin.1 h.tiled type hx zLow hon, hc.gateLow, if_neg fun he => hon (hidx.1 he.1)]
    exact .none

variable {type : StructType} {xLow zLow : Nat}

theorem low (h : CellRun a b l m) (hx : xLow < m.columnsLow) (hok : ∀ e ∈ l, e.2.On xLow zLow → e.2.Counted e.1 type) :
    (m.gridLow (zLow * m.columnsLow + xLow)).gate type =
      lowGate (occupiedCount m type xLow zLow) (late type xLow zLow l) := by
  induction h with
  | start =>
    rw [occupiedCount_newMap]
    ext1
    · rfl
    · exact BitVec.getLsbD_zero
  | @step l m op hrun hin ih =>
    obtain ⟨_, _, _, _, hc⟩ := op.run_changes m
    rw [hc.columnsLow] at hx ⊢
    have hmoves := hrun.moves hin hx (hok _ mem_cons_self)
    have hle := occupiedCount_le m type xLow zLow
    rw [ih hx fun e he => hok e (mem_cons_of_mem _ he)] at hmoves
    rw [late]
    generalize occupiedCount (op.run m) type xLow zLow = k', ((op.run m).gridLow _).gate type = g' at hmoves ⊢
    cases hmoves with
    | none => rw [if_neg (Nat.succ_ne_self _).symm]
    | gain => rw [if_pos rfl, gain_lowGate _ (by omega)]
    | loss _ hk =>
      rw [hk] at hle ⊢
      rw [if_neg (by omega), loss_lowGate (by omega)]

end CellRun

/-- On a square where every operation keeps count, the bit of the type is set exactly if enough of the cells are taken,
except where `MarkBlocker` brought them to the threshold. -/
theorem run_low {a b : Nat} {l : List (SBlockingMap × CellOp)} {m : SBlockingMap} (h : CellRun a b l m)
    (type : StructType) {xLow zLow : Nat} (hx : xLow < m.columnsLow)
    (hok : ∀ e ∈ l, e.2.On xLow zLow → e.2.Counted e.1 type) :
    ((m.gridLow (zLow * m.columnsLow + xLow)).blockerMask.getLsbD type.toNat ↔
        blockThreshold.toNat ≤ occupiedCount m type xLow zLow) ↔
      (blockThreshold.toNat ≤ occupiedCount m type xLow zLow → late type xLow zLow l = false) := by
  have hflag : (m.gridLow (zLow * m.columnsLow + xLow)).blockerMask.getLsbD type.toNat = _ :=
    congrArg Gate.flag (h.low hx hok)
  rw [hflag, lowGate]
  cases late type xLow zLow l <;> simp

/-! ## The map of `Init` -/

def history (m : SBlockingMap) : List CellOp → List (SBlockingMap × CellOp)
  | [] => []
  | op :: ops => history (op.run m) ops ++ [(m, op)]

theorem CellRun.foldl {a b : Nat} {l : List (SBlockingMap × CellOp)} (h : CellRun a b l m)
    (ops : List CellOp) (hin : ∀ op ∈ ops, op.cell.1 < m.columns ∧ op.cell.2 < m.rows) :
    CellRun a b (history m ops ++ l) (ops.foldl CellOp.run m) := by
  induction ops generalizing l m with
  | nil => exact h
  | cons op ops ih =>
    obtain ⟨_, _, _, _, hc⟩ := op.run_changes m
    rw [history, append_assoc]
    refine ih (h.step op (hin op mem_cons_self)) fun op' hop' => ?_
    rw [hc.columns, hc.rows]
    exact hin op' (mem_cons_of_mem _ hop')

def Marked (a b : Nat) (m : SBlockingMap) : Prop := ∃ l, CellRun a b l m

namespace Marked

variable {a b : Nat} {m : SBlockingMap}

theorem size (h : Marked a b m) : m.columns = 8 * a ∧ m.rows = 8 * b := by
  obtain ⟨l, h⟩ := h
  rw [h.sameSize.columns, h.sameSize.rows]
  simp only [newMap, SBlockingMap.empty]
  omega

theorem markBlocker (h : Marked a b m) (x z : Nat) (type : StructType) (notIgnoreMask : SM) (hx : x < 8 * a)
    (hz : z < 8 * b) : Marked a b (m.markBlocker x z type notIgnoreMask) := by
  obtain ⟨hcols, hrows⟩ := h.size
  obtain ⟨l, h⟩ := h
  exact ⟨_, h.step (.mark x z type notIgnoreMask) ⟨hcols ▸ hx, hrows ▸ hz⟩⟩

theorem foldl {α : Type*} {f : SBlockingMap → α → SBlockingMap} {xs : List α}
    (hf : ∀ m, Marked a b m → ∀ x ∈ xs, Marked a b (f m x)) (h : Marked a b m) : Marked a b (xs.foldl f m) := by
  induction xs generalizing m with
  | nil => exact h
  | cons x xs ih =>
    exact ih (fun m hm x' hx' => hf m hm x' (mem_cons_of_mem _ hx')) (hf m h x mem_cons_self)

theorem markSpot (h : Marked a b m) (size : Nat × Nat) (spot : AIFloat3) : Marked a b (markSpot size m spot) := by
  obtain ⟨hcols, hrows⟩ := h.size
  refine foldl (fun m hm c hc => ?_) h
  have hin := (mem_rowCells (le_max_right _ _) (le_max_right _ _)).1 hc
  simp only [SBlockingMap.bound] at hin
  exact hm.markBlocker _ _ _ _ (by omega) (by omega)

theorem markRows (h : Marked a b m) (hb : 0 < b) : Marked a b (markRows m) := by
  obtain ⟨hcols, hrows⟩ := h.size
  refine foldl (fun m hm c hc => ?_) h
  have hin := (mem_rowCells (by decide) (by decide)).1 hc
  exact (hm.markBlocker _ _ _ _ (by omega) (by omega)).markBlocker _ _ _ _ (by omega) (by omega)

theorem markColumns (h : Marked a b m) (ha : 0 < a) : Marked a b (markColumns m) := by
  obtain ⟨hcols, hrows⟩ := h.size
  refine foldl (fun m hm c hc => ?_) h
  have hin := (mem_rowCells (by decide) (by decide)).1 hc
  exact (hm.markBlocker _ _ _ _ (by omega) (by omega)).markBlocker _ _ _ _ (by omega) (by omega)

end Marked

theorem init_marked {a b : Nat} (ha : 0 < a) (hb : 0 < b) (blockInfos : BlockInfos) (mexDef : CCircuitDef)
    (spots : List AIFloat3) : Marked a b (init blockInfos mexDef spots (newMap (16 * a) (16 * b))) :=
  ((Marked.foldl (fun _ hm spot _ => hm.markSpot _ spot) ⟨[], .start⟩).markRows hb).markColumns ha

def markFirst (n : Nat) : List CellOp :=
  (range n).map fun i => .mark (i % 8) (i / 8) .terra (~~~getStructMask .mex)

/-- `MarkBlocker` compares the count before it is raised: with 48 cells marked the bit is still clear. -/
theorem run_low_marks : ∃ l m, CellRun 1 1 l m ∧ occupiedCount m .terra 0 0 = 48 ∧
      ¬(m.gridLow 0).blockerMask.getLsbD StructType.terra.toNat :=
  ⟨_, _, CellRun.start.foldl (markFirst 48) (by decide +kernel), by decide +kernel, by decide +kernel⟩

def reserve : CellOp := .add ⟨7, 5, .terra, 0, false⟩

def giveBack : CellOp := .del ⟨7, 5, .terra, 0, false⟩

def marked : SBlockingMap := (markFirst 47).foldl CellOp.run (newMap 16 16)

def filled : SBlockingMap := reserve.run marked

def freed : SBlockingMap := giveBack.run filled

theorem occupiedCount_marked : occupiedCount marked .terra 0 0 = 47 ∧ occupiedCount filled .terra 0 0 = 48 ∧
    occupiedCount freed .terra 0 0 = 47 := by decide +kernel

/-- The 48th cell of a square is reserved, which sets the bit, and given back, which clears it. -/
theorem run_low_reserved : (filled.gridLow 0).blockerMask.getLsbD StructType.terra.toNat ∧
    ¬(freed.gridLow 0).blockerMask.getLsbD StructType.terra.toNat := by
  obtain ⟨h47, h48, h47'⟩ := occupiedCount_marked
  have hmarked : CellRun 1 1 _ marked := CellRun.start.foldl (markFirst 47) (by decide +kernel)
  have hfilled : CellRun 1 1 _ filled := hmarked.step reserve (by decide +kernel)
  have hfreed : CellRun 1 1 _ freed := hfilled.step giveBack (by decide +kernel)
  have hok : ∀ e ∈ (filled, giveBack) :: (marked, reserve) :: (history (newMap 16 16) (markFirst 47) ++ []),
      e.2.On 0 0 → e.2.Counted e.1 .terra := by decide +kernel
  have hcols : filled.columnsLow = 1 := hfilled.sameSize.columnsLow
  have hcols' : freed.columnsLow = 1 := hfreed.sameSize.columnsLow
  have hset := run_low hfilled .terra (hcols ▸ Nat.one_pos : 0 < _) fun e he => hok e (mem_cons_of_mem _ he)
  have hclear := run_low hfreed .terra (hcols' ▸ Nat.one_pos : 0 < _) hok
  have hfew : ¬blockThreshold.toNat ≤ 47 := by decide
  rw [hcols, Nat.zero_mul, Nat.zero_add, h48] at hset
  rw [hcols', Nat.zero_mul, Nat.zero_add, h47', iff_false_right hfew] at hclear
  refine ⟨(hset.2 fun _ => ?_).2 (by decide), hclear.2 fun h => absurd h hfew⟩
  rw [late, ← filled, h48, h47]
  rfl

end Circuit.Spec.Buildings
