import Mathlib.Algebra.Order.BigOperators.Group.Finset
import Mathlib.Data.Nat.Cast.Basic

/-!
# Counters with a threshold flag

A `Gate` is a machine counter with a flag that follows a threshold: an increment that reaches the threshold raises the
flag, a decrement that leaves it lowers it. The flag is maintained at the crossing only, so it says where the counter
stands only as long as each raise is undone by its own drop. `Gate.At`: a gate is `n` clean increments above another, so
that a decrement brings it to `n - 1` (`At.down`) and zero means nothing has changed (`At.zero_eq`). `Gate.tally` is the
gate whose flag is right for its count; `total` adds up what the cells of a square contribute to its gate.
-/

namespace Circuit.Framework

open Finset

@[ext]
structure Gate (w : Nat) where
  count : BitVec w
  flag : Bool
  deriving DecidableEq

namespace Gate

variable {w : Nat} (t : BitVec w)

def up (g : Gate w) : Gate w := ⟨g.count + 1, g.flag || g.count + 1 == t⟩

def down (g : Gate w) : Gate w := ⟨g.count - 1, g.flag && g.count != t⟩

def Clean (g : Gate w) : Prop := g.count + 1 = t → g.flag = false

instance (g : Gate w) : Decidable (Clean t g) := inferInstanceAs (Decidable (_ → _))

variable {t} {g g₀ g' : Gate w} {n k : ℕ}

theorem down_up (h : Clean t g) : (g.up t).down t = g := by
  ext1
  · exact BitVec.add_sub_cancel g.count 1
  · show ((g.flag || g.count + 1 == t) && g.count + 1 != t) = g.flag
    by_cases ht : g.count + 1 = t
    · rw [h ht, ht]
      simp
    · rw [beq_false_of_ne ht, bne_iff_ne.2 ht]
      simp

inductive At (t : BitVec w) (g₀ : Gate w) : ℕ → Gate w → Prop
  | zero : At t g₀ 0 g₀
  | succ {n : ℕ} {g : Gate w} : At t g₀ n g → Clean t g → At t g₀ (n + 1) (g.up t)

namespace At

theorem down (h : At t g₀ (n + 1) g) : At t g₀ n (g.down t) := by
  cases h with
  | succ h hc => rwa [down_up hc]

theorem zero_eq (h : At t g₀ 0 g) : g = g₀ := by
  cases h; rfl

theorem count (h : At t g₀ n g) : g.count = g₀.count + BitVec.ofNat w n := by
  induction h with
  | zero => simp
  | succ _ _ ih => simp [up, ih, BitVec.ofNat_add, BitVec.add_assoc]

end At

/-! ## Threshold crossings -/

def raises (t : BitVec w) (g₀ : Gate w) : ℕ → ℕ
  | 0 => 0
  | n + 1 => raises t g₀ n + if g₀.count + BitVec.ofNat w n + 1 = t then 1 else 0

theorem At.raises_succ (h : At t g₀ n g) : raises t g₀ (n + 1) = raises t g₀ n + if g.count + 1 = t then 1 else 0 := by
  rw [raises, h.count]

/-! ## Gates with the right flag -/

def tally (t : BitVec w) (k : ℕ) : Gate w := ⟨BitVec.ofNat w k, decide (t.toNat ≤ k)⟩

theorem ofNat_succ_eq_iff (hk : k + 1 < 2 ^ w) : BitVec.ofNat w k + 1 = t ↔ t.toNat = k + 1 := by
  rw [← BitVec.toNat_inj, show BitVec.ofNat w k + 1 = BitVec.ofNat w (k + 1) by simp [BitVec.ofNat_add],
    BitVec.toNat_ofNat, Nat.mod_eq_of_lt hk, eq_comm]

theorem up_tally (hk : k + 1 < 2 ^ w) : (tally t k).up t = tally t (k + 1) := by
  ext1
  · simp [up, tally, BitVec.ofNat_add]
  · have h := ofNat_succ_eq_iff (t := t) hk
    rw [Bool.eq_iff_iff]
    simp only [up, tally, Bool.or_eq_true, decide_eq_true_eq, beq_iff_eq, h]
    omega

theorem clean_tally (hk : k + 1 < 2 ^ w) : Clean t (tally t k) := by
  intro h
  rw [tally, ofNat_succ_eq_iff hk] at h
  simp [tally, h]

theorem At.eq_tally (ht : t ≠ 0) (h : At t ⟨0, false⟩ n g) (hn : n < 2 ^ w) : g = tally t n := by
  induction h with
  | zero =>
    have hpos : t.toNat ≠ 0 := fun h0 => ht (BitVec.eq_of_toNat_eq (by simpa using h0))
    simp [tally, hpos]
  | succ _ _ ih => rw [ih (Nat.lt_of_succ_lt hn), up_tally hn]

end Gate

/-! ## Sums over the cells of a square -/

section Total

variable {ι κ : Type*} [DecidableEq κ] (cells : Finset ι) (square : ι → κ)

def total (part : ι → ℕ) (j : κ) : ℕ := ∑ i ∈ cells with square i = j, part i

variable {cells square} {part part' : ι → ℕ} {i : ι}

theorem total_congr (h : ∀ i ∈ cells, part' i = part i) (j : κ) :
    total cells square part' j = total cells square part j :=
  sum_congr rfl fun i hi => h i (mem_of_mem_filter _ hi)

theorem total_succ [DecidableEq ι] (hi : i ∈ cells) (h : part' i = part i + 1)
    (hne : ∀ i' ∈ cells, i' ≠ i → part' i' = part i') (j : κ) :
    total cells square part' j = total cells square part j + if square i = j then 1 else 0 := by
  unfold total
  split
  · rename_i hj
    have hmem : i ∈ cells.filter (square · = j) := mem_filter.2 ⟨hi, hj⟩
    have hrest : ∑ i' ∈ (cells.filter (square · = j)).erase i, part' i' =
        ∑ i' ∈ (cells.filter (square · = j)).erase i, part i' :=
      sum_congr rfl fun i' hi' =>
        hne i' (mem_of_mem_filter _ (mem_of_mem_erase hi')) (ne_of_mem_erase hi')
    rw [← add_sum_erase _ part' hmem, ← add_sum_erase _ part hmem, h, hrest, Nat.add_right_comm]
  · rename_i hj
    refine sum_congr rfl fun i' hi' => hne i' (mem_of_mem_filter _ hi') ?_
    rintro rfl
    exact hj (mem_filter.1 hi').2

theorem total_zero (h : ∀ i, part i = 0) (j : κ) : total cells square part j = 0 :=
  sum_eq_zero fun i _ => h i

end Total

end Circuit.Framework
