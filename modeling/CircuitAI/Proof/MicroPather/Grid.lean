import CircuitAI.Proof.MicroPather.Search
import CircuitAI.Spec.GridPath
import Mathlib.Algebra.Order.Ring.Abs
import Mathlib.Data.Finset.Card
import Mathlib.Data.Fintype.Basic
import Mathlib.Tactic.FinCases
import Mathlib.Tactic.IntervalCases
import Mathlib.Tactic.Ring

/-!
# The geometry of the move map

The index arithmetic of the pather, said in columns and rows: `neighbour_iff` (the eight offsets
are the king moves, the last four the diagonal ones), `fixNode_interior`, `inRadius_iff` (the
table of row ends is a disc) and `diagonalDistance_le` (no step is cheaper than what it takes off
the estimate).
-/

namespace Circuit.Impl.MicroPather

open Circuit.Spec.GridPath CMicroPather
open CMicroPather (pathRules diagonalDistance)

variable {v sizeX sizeY u : Nat} {p : CMicroPather}

structure Interior (sizeX sizeY v : Nat) : Prop where
  col_pos : 1 ≤ v % (sizeX + 2)
  col_le : v % (sizeX + 2) ≤ sizeX
  row_pos : 1 ≤ v / (sizeX + 2)
  row_le : v / (sizeX + 2) ≤ sizeY

theorem mod_div_of_eq {W x y : Nat} (hx : x < W) (e : v = y * W + x) : v % W = x ∧ v / W = y := by
  subst e
  rw [Nat.mul_comm, Nat.mul_add_mod, Nat.mod_eq_of_lt hx, Nat.mul_add_div (by omega), Nat.div_eq_of_lt hx]
  exact ⟨rfl, rfl⟩

theorem Interior.lt (h : Interior sizeX sizeY v) : v < (sizeX + 2) * (sizeY + 2) := by
  have hr := h.row_le
  exact (Nat.div_lt_iff_lt_mul (by omega)).mp (by omega) |>.trans_eq (Nat.mul_comm _ _)

theorem CMicroPather.unedge_range {size a : Nat} (h : a < size + 2) (hs : 0 < size) :
    1 ≤ unedge (size + 2) a ∧ unedge (size + 2) a ≤ size := by
  unfold unedge
  split
  · omega
  · split <;> omega

theorem CMicroPather.fixNode_interior (hX : p.mapSizeX = sizeX + 2)
    (hY : p.mapSizeY = sizeY + 2) (hx : 0 < sizeX) (hy : 0 < sizeY)
    (hv : v < (sizeX + 2) * (sizeY + 2)) : Interior sizeX sizeY (p.fixNode v) := by
  have hc : v - v / (sizeX + 2) * (sizeX + 2) < sizeX + 2 := by
    rw [← Nat.mod_eq_sub_div_mul]; exact Nat.mod_lt _ (by omega)
  have hr : v / (sizeX + 2) < sizeY + 2 := Nat.div_lt_of_lt_mul hv
  obtain ⟨h₁, h₂⟩ := unedge_range hc hx
  obtain ⟨h₃, h₄⟩ := unedge_range hr hy
  have e : p.fixNode v = unedge (sizeY + 2) (v / (sizeX + 2)) * (sizeX + 2) +
      unedge (sizeX + 2) (v - v / (sizeX + 2) * (sizeX + 2)) := by
    rw [fixNode, xy, hX, hY]
  obtain ⟨e₁, e₂⟩ := mod_div_of_eq (by omega) e
  exact ⟨e₁ ▸ h₁, e₁ ▸ h₂, e₂ ▸ h₃, e₂ ▸ h₄⟩

/-! ## Neighbours -/

def direction : Fin 8 → Int × Int :=
  ![(-1, 0), (1, 0), (0, 1), (0, -1), (-1, -1), (1, -1), (-1, 1), (1, 1)]

theorem offsets_eq (mapSizeX : Nat) (i : Fin 8) :
    offsets mapSizeX i = (direction i).2 * mapSizeX + (direction i).1 := by
  fin_cases i <;> simp [offsets, direction] <;> ring

theorem direction_range (i : Fin 8) : |(direction i).1| ≤ 1 ∧ |(direction i).2| ≤ 1 ∧ direction i ≠ 0 := by
  fin_cases i <;> decide

theorem direction_diagonal (i : Fin 8) : (direction i).1 ≠ 0 ∧ (direction i).2 ≠ 0 ↔ 3 < i.val := by
  fin_cases i <;> decide

theorem exists_direction {d : Int × Int} (h₁ : |d.1| ≤ 1) (h₂ : |d.2| ≤ 1) (h : d ≠ 0) : ∃ i, direction i = d := by
  obtain ⟨x, y⟩ := d
  rw [abs_le] at h₁ h₂
  obtain ⟨hx, hx'⟩ := h₁
  obtain ⟨hy, hy'⟩ := h₂
  dsimp only at hx hx' hy hy'
  interval_cases x <;> interval_cases y <;> revert h <;> decide

def Rules.field (R : Rules) (sizeX : Nat) : Field where
  width := sizeX + 2
  Enterable v := R.Enters v (index2 sizeX v)
  cost v := R.nodeCost (index2 sizeX v)

structure Rules.Charts (R : Rules) (sizeX sizeY : Nat) : Prop where
  border : ∀ v, v < (sizeX + 2) * (sizeY + 2) →
    v % (sizeX + 2) = 0 ∨ v % (sizeX + 2) = sizeX + 1 ∨ v / (sizeX + 2) = 0 ∨ v / (sizeX + 2) = sizeY + 1 →
    R.canMoveArray v = false
  nodeCost_nonneg : ∀ i, 0 ≤ R.nodeCost i
  consistent : ∀ {u v}, (R.field sizeX).KingStep u v →
    R.estimate ((R.field sizeX).col u) ((R.field sizeX).row u) ≤
      (R.field sizeX).stepCost u v + R.estimate ((R.field sizeX).col v) ((R.field sizeX).row v)

theorem Rules.Charts.stepCost_nonneg {R : Rules} (hR : R.Charts sizeX sizeY) (u v : Nat) :
    0 ≤ (R.field sizeX).stepCost u v := by
  have hc : 0 ≤ (R.field sizeX).cost v := hR.nodeCost_nonneg _
  rw [Field.stepCost]
  split
  · exact mul_nonneg hc (by norm_num)
  · exact hc

section Neighbours

variable {sizeX sizeY : Nat} (R : Rules)

theorem exists_cell_of_direction (hu : Interior sizeX sizeY u) {d : Int × Int} (h₁ : |d.1| ≤ 1) (h₂ : |d.2| ≤ 1) :
    ((d.2 * (sizeX + 2 : Nat) + d.1 + u).toNat % (sizeX + 2) : Nat) = (u % (sizeX + 2) : Nat) + d.1 ∧
      ((d.2 * (sizeX + 2 : Nat) + d.1 + u).toNat / (sizeX + 2) : Nat) = (u / (sizeX + 2) : Nat) + d.2 := by
  obtain ⟨hc, hc', hr, -⟩ := hu
  rw [abs_le] at h₁ h₂
  obtain ⟨x, ex⟩ := Int.eq_ofNat_of_zero_le (show 0 ≤ ((u % (sizeX + 2) : Nat) : Int) + d.1 by omega)
  obtain ⟨y, ey⟩ := Int.eq_ofNat_of_zero_le (show 0 ≤ ((u / (sizeX + 2) : Nat) : Int) + d.2 by omega)
  have hu : (u : Int) = (u / (sizeX + 2) : Nat) * (sizeX + 2 : Nat) + (u % (sizeX + 2) : Nat) := by
    exact_mod_cast (Nat.div_add_mod' u (sizeX + 2)).symm
  have e : d.2 * (sizeX + 2 : Nat) + d.1 + u = ((y * (sizeX + 2) + x : Nat) : Int) := by
    rw [hu]
    push_cast
    rw [← ex, ← ey]
    push_cast
    ring
  obtain ⟨hm, hd⟩ := mod_div_of_eq (v := (d.2 * (sizeX + 2 : Nat) + d.1 + u).toNat) (W := sizeX + 2) (x := x) (y := y)
    (by omega) (by rw [e, Int.toNat_natCast])
  exact ⟨by rw [hm, ex], by rw [hd, ey]⟩

theorem kingStep_neighbour (hu : Interior sizeX sizeY u) (i : Fin 8) :
    (R.field sizeX).KingStep u (neighbour (sizeX + 2) u i) ∧
      ((R.field sizeX).col u ≠ (R.field sizeX).col (neighbour (sizeX + 2) u i) ∧
        (R.field sizeX).row u ≠ (R.field sizeX).row (neighbour (sizeX + 2) u i) ↔ 3 < i.val) := by
  obtain ⟨h₁, h₂, h₀⟩ := direction_range i
  obtain ⟨hc, hr⟩ := exists_cell_of_direction hu h₁ h₂
  have hc : (R.field sizeX).col (neighbour (sizeX + 2) u i) = (R.field sizeX).col u + (direction i).1 := by
    rw [neighbour, offsets_eq]; exact hc
  have hr : (R.field sizeX).row (neighbour (sizeX + 2) u i) = (R.field sizeX).row u + (direction i).2 := by
    rw [neighbour, offsets_eq]; exact hr
  refine ⟨⟨fun e => h₀ ?_, ?_, ?_⟩, ?_⟩
  · rw [← e] at hc hr
    exact Prod.ext (by simpa using hc) (by simpa using hr)
  · rw [hc, abs_sub_comm, add_sub_cancel_left]; exact h₁
  · rw [hr, abs_sub_comm, add_sub_cancel_left]; exact h₂
  · rw [← direction_diagonal, hc, hr]
    simp

theorem exists_neighbour (h : (R.field sizeX).KingStep u v) : ∃ i, neighbour (sizeX + 2) u i = v := by
  obtain ⟨hne, h₁, h₂⟩ := h
  have hW : (R.field sizeX).width = sizeX + 2 := rfl
  have hv : ∀ w : Nat, (w : Int) = (R.field sizeX).row w * (sizeX + 2 : Nat) + (R.field sizeX).col w :=
    fun w => by
      rw [Field.row, Field.col, hW]
      exact_mod_cast (Nat.div_add_mod' w (sizeX + 2)).symm
  have hd : ((R.field sizeX).col v - (R.field sizeX).col u,
      (R.field sizeX).row v - (R.field sizeX).row u) ≠ (0 : Int × Int) := by
    intro e
    rw [Prod.mk_eq_zero, sub_eq_zero, sub_eq_zero] at e
    have := hv u
    rw [← e.1, ← e.2, ← hv v] at this
    exact hne (by exact_mod_cast this)
  obtain ⟨i, hi⟩ := exists_direction (by rw [abs_sub_comm]; exact h₁) (by rw [abs_sub_comm]; exact h₂) hd
  refine ⟨i, ?_⟩
  rw [neighbour, offsets_eq, hi, hv u]
  have : ((R.field sizeX).row v - (R.field sizeX).row u) * ((sizeX + 2 : Nat) : Int) +
      ((R.field sizeX).col v - (R.field sizeX).col u) +
      ((R.field sizeX).row u * (sizeX + 2 : Nat) + (R.field sizeX).col u) = v := by
    rw [hv v]; ring
  rw [this, Int.toNat_natCast]

theorem interior_of_step (hu : Interior sizeX sizeY u) (h : (R.field sizeX).KingStep u v)
    (hborder : v < (sizeX + 2) * (sizeY + 2) →
      ¬ (v % (sizeX + 2) = 0 ∨ v % (sizeX + 2) = sizeX + 1 ∨ v / (sizeX + 2) = 0 ∨ v / (sizeX + 2) = sizeY + 1)) :
    Interior sizeX sizeY v := by
  obtain ⟨-, h₁, h₂⟩ := h
  obtain ⟨hc, hc', hr, hr'⟩ := hu
  have h₁ : |((u % (sizeX + 2) : Nat) : Int) - (v % (sizeX + 2) : Nat)| ≤ 1 := h₁
  have h₂ : |((u / (sizeX + 2) : Nat) : Int) - (v / (sizeX + 2) : Nat)| ≤ 1 := h₂
  rw [abs_le] at h₁ h₂
  have hv : v < (sizeX + 2) * (sizeY + 2) := by
    rw [Nat.mul_comm]
    exact (Nat.div_lt_iff_lt_mul (by omega)).mp (by omega)
  have hb := hborder hv
  exact ⟨by omega, by omega, by omega, by omega⟩

theorem Rules.Charts.interior {R : Rules} (hR : R.Charts sizeX sizeY) (hu : Interior sizeX sizeY u)
    (h : (R.field sizeX).KingStep u v) (he : (R.field sizeX).Enterable v) : Interior sizeX sizeY v :=
  interior_of_step R hu h fun hv => mt (hR.border v hv) (by rw [he.1]; decide)

theorem stepCost_neighbour (hu : Interior sizeX sizeY u) (i : Fin 8) :
    stepCost R (index2 sizeX (neighbour (sizeX + 2) u i)) i =
      (R.field sizeX).stepCost u (neighbour (sizeX + 2) u i) := by
  rw [stepCost, Field.stepCost, if_congr (kingStep_neighbour R hu i).2 rfl rfl]
  rfl

end Neighbours

/-! ## Distances -/

section Distances

variable {sizeX sizeY : Nat} (T : Terrain sizeX sizeY) (maxThreat : ℚ)

theorem xy_fst (hX : p.mapSizeX = sizeX + 2) (v : Nat) : ((p.xy v).1 : Int) = (T.field maxThreat).col v := by
  rw [xy, hX]
  dsimp only
  rw [← Nat.mod_eq_sub_div_mul]
  rfl

theorem xy_snd (hX : p.mapSizeX = sizeX + 2) (v : Nat) : ((p.xy v).2 : Int) = (T.field maxThreat).row v := by
  rw [xy, hX]
  rfl

theorem one_le_cost (v : Nat) : 1 ≤ (T.field maxThreat).cost v := by
  have h₁ := T.moveFun_nonneg (index2 sizeX v)
  have h₂ := T.threatFun_nonneg (index2 sizeX v)
  simp only [Terrain.field]
  linarith

theorem diagonalDistance_eq_max (x y xEnd yEnd : Int) : diagonalDistance x y xEnd yEnd =
      max (|(x : ℚ) - xEnd| + 4142 / 10000 * |(y : ℚ) - yEnd|) (|(y : ℚ) - yEnd| + 4142 / 10000 * |(x : ℚ) - xEnd|) := by
  simp only [diagonalDistance]
  push_cast
  rcases le_total |(x : ℚ) - xEnd| |(y : ℚ) - yEnd| with h | h
  · rw [min_eq_left h, max_eq_right (by linarith)]; ring
  · rw [min_eq_right h, max_eq_left (by linarith)]; ring

theorem diagonalDistance_le (xEnd yEnd : Int) (h : (T.field maxThreat).KingStep u v) :
    diagonalDistance ((T.field maxThreat).col u) ((T.field maxThreat).row u) xEnd yEnd ≤
      (T.field maxThreat).stepCost u v +
        diagonalDistance ((T.field maxThreat).col v) ((T.field maxThreat).row v) xEnd yEnd := by
  have hc := one_le_cost T maxThreat v
  rw [Field.stepCost]
  obtain ⟨-, h₁, h₂⟩ := h
  generalize (T.field maxThreat).col u = x at *
  generalize (T.field maxThreat).row u = y at *
  generalize (T.field maxThreat).col v = x' at *
  generalize (T.field maxThreat).row v = y' at *
  have h₁ : |(x : ℚ) - x'| ≤ 1 := by exact_mod_cast h₁
  have h₂ : |(y : ℚ) - y'| ≤ 1 := by exact_mod_cast h₂
  have hx := abs_sub_le (x : ℚ) x' xEnd
  have hy := abs_sub_le (y : ℚ) y' yEnd
  simp only [diagonalDistance_eq_max]
  have hl := le_max_left (|(x' : ℚ) - xEnd| + 4142 / 10000 * |(y' : ℚ) - yEnd|)
    (|(y' : ℚ) - yEnd| + 4142 / 10000 * |(x' : ℚ) - xEnd|)
  have hr := le_max_right (|(x' : ℚ) - xEnd| + 4142 / 10000 * |(y' : ℚ) - yEnd|)
    (|(y' : ℚ) - yEnd| + 4142 / 10000 * |(x' : ℚ) - xEnd|)
  split
  · exact max_le (by linarith) (by linarith)
  · rename_i hd
    -- a straight step leaves the column or the row
    rcases not_and_or.mp hd with hd | hd
    · obtain rfl := not_not.mp hd
      exact max_le (by linarith) (by linarith)
    · obtain rfl := not_not.mp hd
      exact max_le (by linarith) (by linarith)

theorem pathRules_field (xEnd yEnd : Int) : (pathRules T.data maxThreat xEnd yEnd).field sizeX = T.field maxThreat := by
  simp only [Rules.field, Rules.Enters, pathRules, Terrain.field, COST_BASE, decide_eq_false_iff_not, not_lt]

theorem pathRules_charts (xEnd yEnd : Int) : (pathRules T.data maxThreat xEnd yEnd).Charts sizeX sizeY where
  border := T.border
  nodeCost_nonneg i := by
    have h₁ := T.moveFun_nonneg i
    have h₂ := T.threatFun_nonneg i
    simp only [pathRules, COST_BASE]
    linarith
  consistent h := by
    rw [pathRules_field] at h ⊢
    exact diagonalDistance_le T maxThreat xEnd yEnd h

theorem inRadius_iff (hX : p.mapSizeX = sizeX + 2) {radius : Int} (hr : 0 < radius) (e v : Nat)
    (hitTest : Int × Int → Int × Int → Bool) :
    p.inRadius e radius hitTest v = true ↔ (T.field maxThreat).Hit e radius hitTest v := by
  simp only [inRadius, xy_fst T maxThreat hX, xy_snd T maxThreat hX, decide_eq_true_eq, Field.Hit,
    Field.InDisc]
  generalize (T.field maxThreat).col v = x
  generalize (T.field maxThreat).row v = y
  generalize (T.field maxThreat).col e = a
  generalize (T.field maxThreat).row e = b
  rw [← and_assoc, ← and_assoc, and_congr_left_iff]
  intro _
  have hz : y - (b - radius) - radius = y - b := by ring
  rw [hz]
  have hs : ∀ n : Int, 0 ≤ n → (|x - a| ≤ ((Nat.sqrt n.toNat : Nat) : Int) ↔ (x - a) ^ 2 ≤ n) := by
    intro n hn
    rw [Int.abs_eq_natAbs, Nat.cast_le, Nat.le_sqrt, Int.le_toNat hn, Nat.cast_mul, Int.natAbs_mul_self', pow_two]
  constructor
  · rintro ⟨⟨⟨h₁, h₂⟩, -⟩, h₃⟩
    have hn : 0 ≤ radius * radius - (y - b) * (y - b) := by nlinarith
    have := (hs _ hn).mp h₃
    linarith
  · intro h
    have hx := abs_le_of_sq_le_sq' (a := x - a) (b := radius) (by nlinarith [sq_nonneg (y - b)]) hr.le
    have hy := abs_le_of_sq_le_sq' (a := y - b) (b := radius) (by nlinarith [sq_nonneg (x - a)]) hr.le
    refine ⟨⟨⟨by linarith, by linarith⟩, by linarith, by linarith⟩, (hs _ ?_).mpr ?_⟩ <;>
      nlinarith [sq_nonneg (x - a)]

end Distances

end Circuit.Impl.MicroPather
