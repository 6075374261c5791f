import Mathlib.Algebra.Order.BigOperators.Group.List
import Mathlib.Data.List.Nodup

/-!
# Deposits

A list of operations, each of which adds some amount to every node of a grid. What the list deposits on a node is the sum
of the amounts (`deposited`); it does not depend on the order of the operations (`deposited_perm`). Where the operations
come from a loop of which one iteration only can reach a node, the node gets what that iteration deposits
(`deposited_flatMap_single`).

A grid has one value for each layer and cell. Operations that set cells to the value of their layer leave it there,
whatever the grid held (`foldl_fills`).
-/

namespace Circuit.Framework

open Function List

variable {ω ι N M : Type*} [AddCommMonoid M] (amount : ω → N → M)

def deposited (l : List ω) (n : N) : M := (l.map (amount · n)).sum

@[simp]
theorem deposited_nil (n : N) : deposited amount [] n = 0 := rfl

@[simp]
theorem deposited_cons (w : ω) (l : List ω) (n : N) :
    deposited amount (w :: l) n = amount w n + deposited amount l n := rfl

@[simp]
theorem deposited_append (l l' : List ω) (n : N) :
    deposited amount (l ++ l') n = deposited amount l n + deposited amount l' n := by
  simp [deposited]

theorem deposited_flatMap (l : List ι) (f : ι → List ω) (n : N) :
    deposited amount (l.flatMap f) n = (l.map fun i => deposited amount (f i) n).sum := by
  induction l with
  | nil => rfl
  | cons i l ih => rw [flatMap_cons, deposited_append, ih, map_cons, sum_cons]

theorem deposited_eq_zero {l : List ω} {n : N} (h : ∀ w ∈ l, amount w n = 0) : deposited amount l n = 0 := by
  refine sum_eq_zero fun a ha => ?_
  obtain ⟨w, hw, rfl⟩ := mem_map.mp ha
  exact h w hw

theorem deposited_flatMap_single [DecidableEq ι] {l : List ι} {f : ι → List ω} {n : N} (hl : l.Nodup) (i : ι)
    (h : ∀ j ∈ l, j ≠ i → deposited amount (f j) n = 0) :
    deposited amount (l.flatMap f) n = if i ∈ l then deposited amount (f i) n else 0 := by
  rw [deposited_flatMap, sum_map_eq_nsmul_single i (fun j => deposited amount (f j) n) fun j hj hmem => h j hmem hj]
  split_ifs with hi
  · rw [count_eq_one_of_mem hl hi, one_nsmul]
  · rw [count_eq_zero_of_not_mem hi, zero_nsmul]

/-! ## Layers -/

section Layers

variable {L I K W : Type*} [DecidableEq L] [DecidableEq I]

def setCell (d : L → I → K) (layer : L) (index : I) (v : K) : L → I → K :=
  update d layer (update (d layer) index v)

theorem setCell_apply (d : L → I → K) (layer l : L) (index i : I) (v : K) :
    setCell d layer index v l i = if l = layer ∧ i = index then v else d l i := by
  unfold setCell
  rw [update_apply]
  split_ifs with hl hi hi
  · rw [hi.2, update_self]
  · rw [hl, update_of_ne fun h => hi ⟨hl, h⟩]
  · exact absurd hi.1 hl
  · rfl

theorem foldl_setCell {base : L → K} {cells : List (L × I)} {d : L → I → K} {l : L} {i : I}
    (h : (l, i) ∈ cells ∨ d l i = base l) : cells.foldl (fun d c => setCell d c.1 c.2 (base c.1)) d l i = base l := by
  induction cells generalizing d with
  | nil => exact h.resolve_left (by simp)
  | cons c cells ih =>
    refine ih (d := setCell d c.1 c.2 (base c.1)) ?_
    rw [setCell_apply]
    by_cases hc : l = c.1 ∧ i = c.2
    · right
      rw [if_pos hc, hc.1]
    · rw [if_neg hc]
      exact h.imp_left fun h => (mem_cons.mp h).resolve_left fun h => hc (Prod.ext_iff.mp h)

theorem foldl_fills {run : (L → I → K) → W → L → I → K} {fill : L → I → W} (base : L → K)
    (hrun : ∀ d l i, run d (fill l i) = setCell d l i (base l)) {layers : List L} {cells : List I} {l : L} {i : I}
    (hl : l ∈ layers) (hi : i ∈ cells) (d : L → I → K) :
    (layers.flatMap fun l => cells.map (fill l)).foldl run d l i = base l := by
  have hcells : (layers.flatMap fun l => cells.map (fill l)).foldl run d =
      (layers.flatMap fun l => cells.map (l, ·)).foldl (fun d c => setCell d c.1 c.2 (base c.1)) d := by
    simp only [foldl_flatMap, foldl_map, hrun]
  rw [hcells]
  exact foldl_setCell (.inl (mem_flatMap.mpr ⟨l, hl, mem_map_of_mem hi⟩))

end Layers

end Circuit.Framework
