import Mathlib.Algebra.BigOperators.Group.List.Basic
import Mathlib.Data.List.Induction
import Mathlib.Data.List.Nodup

/-!
# Sorting elements into bins

Elements of a list are put into bins by a function of the element. A loop that adds each element to its bin leaves in every
bin what adding the elements of that bin one by one leaves there (`foldl_modify_bins`). What the bins have together is what
the elements have together (`sum_bins`).
-/

namespace Circuit.Framework

open List

variable {α β : Type*} {σ : α → ℕ} {l : List α} {m k : ℕ}

def bin (σ : α → ℕ) (l : List α) (m : ℕ) : List α := l.filter fun a => σ a = m

theorem mem_bin {a : α} : a ∈ bin σ l m ↔ a ∈ l ∧ σ a = m := by
  rw [bin, mem_filter, decide_eq_true_eq]

theorem bin_append (σ : α → ℕ) (l l' : List α) (m : ℕ) : bin σ (l ++ l') m = bin σ l m ++ bin σ l' m :=
  filter_append ..

theorem foldl_modify_bins (f : α → β → β) (l : List α) (bs : List β) (m : ℕ) :
    (l.foldl (fun bs a => bs.modify (σ a) (f a)) bs)[m]? =
      bs[m]?.map fun b => (bin σ l m).foldl (fun b a => f a b) b := by
  induction l using reverseRecOn with
  | nil => simp [bin]
  | append_singleton l a ih =>
    rw [foldl_append, foldl_cons, foldl_nil, bin_append]
    by_cases ha : σ a = m
    · have hone : bin σ [a] m = [a] := by simp [bin, ha]
      rw [hone, ← ha, getElem?_modify_eq, ha, ih, Option.map_eq_map, Option.map_map]
      simp [Function.comp_def]
    · have hnone : bin σ [a] m = [] := by simp [bin, ha]
      rw [hnone, append_nil, getElem?_modify_ne _ _ ha, ih]

theorem sum_bins {M : Type*} [AddCommMonoid M] (c : α → M) (h : ∀ a ∈ l, σ a < k) :
    ((range k).map fun m => ((bin σ l m).map c).sum).sum = (l.map c).sum := by
  induction l with
  | nil => simp [bin]
  | cons a l ih =>
    obtain ⟨ha, hl⟩ := forall_mem_cons.1 h
    have hsplit : ∀ m, ((bin σ (a :: l) m).map c).sum = (if m = σ a then c a else 0) + ((bin σ l m).map c).sum := by
      intro m
      by_cases hm : σ a = m
      · simp [bin, hm]
      · simp [bin, hm, Ne.symm hm]
    simp only [hsplit]
    rw [sum_map_add, ih hl, map_cons, sum_cons,
      sum_map_eq_nsmul_single (σ a) _ (fun m hm _ => if_neg hm),
      count_eq_one_of_mem nodup_range (mem_range.2 ha), one_nsmul, if_pos rfl]

end Circuit.Framework
