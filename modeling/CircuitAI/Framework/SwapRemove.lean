import Mathlib.Data.List.Basic

/-!
# Removal by the last element

A vector from which the element at an index is removed by moving the last one to its place: what lies before the
index stays (`take_swapRemove`), and what lies after it stays in another order (`drop_swapRemove_perm`).
-/

namespace Circuit.Framework

open List

variable {β : Type*}

def swapRemove (l : List β) (i : ℕ) (d : β) : List β := (l.set i (l.getLastD d)).dropLast

section

variable {l : List β} {i : ℕ} (h : i < l.length) (d : β)
include h d

theorem swapRemove_eq : ∃ r, swapRemove l i d = l.take i ++ r ∧ r.Perm (l.drop (i + 1)) := by
  have hsplit : l = l.take i ++ l[i] :: l.drop (i + 1) := by
    rw [getElem_cons_drop, take_append_drop]
  have hlen : (l.take i).length = i := by
    rw [length_take]
    omega
  generalize l.take i = a at hsplit hlen ⊢
  generalize l.drop (i + 1) = b at hsplit ⊢
  generalize l[i] = x at hsplit
  subst hsplit
  subst hlen
  unfold swapRemove
  rw [set_append_right _ _ (Nat.le_refl _), Nat.sub_self, set_cons_zero]
  rcases eq_nil_or_concat b with rfl | ⟨b, y, rfl⟩
  · exact ⟨[], by simp [dropLast_append_of_ne_nil], .nil⟩
  · refine ⟨y :: b, ?_, ?_⟩
    · have hlast : (a ++ x :: b.concat y).getLastD d = y := by
        have hend : a ++ x :: b.concat y = (a ++ x :: b) ++ [y] := by simp
        rw [hend, getLastD_concat]
      rw [hlast, dropLast_append_of_ne_nil (by simp), concat_eq_append, ← cons_append,
        dropLast_concat]
    · rw [concat_eq_append]
      exact (perm_append_singleton y b).symm

theorem take_swapRemove : (swapRemove l i d).take i = l.take i := by
  obtain ⟨r, hr, -⟩ := swapRemove_eq h d
  have hlen : (l.take i).length = i := by
    rw [length_take]
    omega
  rw [hr]
  exact take_left' hlen

theorem drop_swapRemove_perm : ((swapRemove l i d).drop i).Perm (l.drop (i + 1)) := by
  obtain ⟨r, hr, hperm⟩ := swapRemove_eq h d
  have hlen : (l.take i).length = i := by
    rw [length_take]
    omega
  rw [hr, drop_left' hlen]
  exact hperm

end

theorem cons_swapRemove_perm {l : List β} {i : ℕ} {x : β} (h : l[i]? = some x) (d : β) :
    (x :: swapRemove l i d).Perm l := by
  obtain ⟨hlt, rfl⟩ := List.getElem?_eq_some_iff.1 h
  obtain ⟨r, hr, hperm⟩ := swapRemove_eq hlt d
  have hsplit : l = l.take i ++ l[i] :: l.drop (i + 1) := by
    rw [getElem_cons_drop, take_append_drop]
  have hmove : (l[i] :: (l.take i ++ r)).Perm (l.take i ++ l[i] :: l.drop (i + 1)) :=
    perm_middle.symm.trans ((hperm.cons _).append_left _)
  rw [hr]
  exact hmove.trans (.of_eq hsplit.symm)

end Circuit.Framework
