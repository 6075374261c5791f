import Mathlib.Algebra.Field.ZMod
import Mathlib.Combinatorics.Pigeonhole

/-!
# Marks that are even on every block

Of a set of edges each lies in at most two blocks, and a block has at least two of them. Then some of these edges can be
marked such that in every block the number of the marks is even (`exists_even_marks`): there are at least as many edges as
blocks, and if they are as many every block has just two.
-/

namespace Circuit.Framework

open Finset

variable {ε τ : Type*} [DecidableEq ε] {edges : Finset ε} {blocks : Finset τ} (sides : τ → Finset ε)

theorem exists_even_marks_of_card_lt (hlt : blocks.card < edges.card) : ∃ mark : ε → ZMod 2, (∃ e, mark e ≠ 0) ∧
    (∀ e ∉ edges, mark e = 0) ∧ ∀ t ∈ blocks, ∑ e ∈ sides t, mark e = 0 := by
  classical
  let parity (S : Finset ε) (t : blocks) : ZMod 2 := ∑ e ∈ sides t, if e ∈ S then 1 else 0
  have hcard : (univ : Finset (blocks → ZMod 2)).card < edges.powerset.card := by
    rw [card_univ, Fintype.card_fun, ZMod.card, Fintype.card_coe, card_powerset]
    exact Nat.pow_lt_pow_right Nat.one_lt_two hlt
  obtain ⟨S, hS, S', hS', hne, hparity⟩ :=
    exists_ne_map_eq_of_card_lt_of_maps_to (f := parity) hcard fun _ _ => mem_coe.2 (mem_univ _)
  rw [mem_powerset] at hS hS'
  -- the edges in one of the two sets of the same parities, but not in both
  refine ⟨fun e => (if e ∈ S then 1 else 0) + if e ∈ S' then 1 else 0, ?_, fun e he => ?_, fun t ht => ?_⟩
  · by_contra hzero
    refine hne (ext fun e => ?_)
    have he := not_not.1 (not_exists.1 hzero e)
    by_cases h : e ∈ S <;> by_cases h' : e ∈ S' <;> simp [h, h'] at he ⊢
  · dsimp only
    rw [if_neg fun h => he (hS h), if_neg fun h => he (hS' h), add_zero]
  · rw [sum_add_distrib, show ∑ e ∈ sides t, (if e ∈ S then 1 else 0 : ZMod 2) = _ from congrFun hparity ⟨t, ht⟩]
    exact CharTwo.add_self_eq_zero _

theorem exists_even_marks (hne : edges.Nonempty) (htwo : ∀ t ∈ blocks, 2 ≤ (edges.filter (· ∈ sides t)).card)
    (htwice : ∀ e ∈ edges, (blocks.filter (e ∈ sides ·)).card ≤ 2) : ∃ mark : ε → ZMod 2, (∃ e, mark e ≠ 0) ∧
      (∀ e ∉ edges, mark e = 0) ∧ ∀ t ∈ blocks, ∑ e ∈ sides t, mark e = 0 := by
  by_cases hlt : blocks.card < edges.card
  · exact exists_even_marks_of_card_lt sides hlt
  have hcount : ∑ t ∈ blocks, (edges.filter (· ∈ sides t)).card ≤ ∑ _t ∈ blocks, 2 := calc
    _ = ∑ e ∈ edges, (blocks.filter (e ∈ sides ·)).card :=
      sum_card_bipartiteAbove_eq_sum_card_bipartiteBelow fun t e => e ∈ sides t
    _ ≤ ∑ _e ∈ edges, 2 := sum_le_sum htwice
    _ ≤ ∑ _t ∈ blocks, 2 := by
      rw [sum_const, sum_const]
      exact Nat.mul_le_mul_right 2 (not_lt.1 hlt)
  have hall := (sum_eq_sum_iff_of_le htwo).1 (le_antisymm (sum_le_sum htwo) hcount)
  refine ⟨fun e => if e ∈ edges then 1 else 0, ?_, fun e he => if_neg he, fun t ht => ?_⟩
  · obtain ⟨e, he⟩ := hne
    exact ⟨e, by simp [he]⟩
  · rw [← sum_filter, sum_const, filter_mem_eq_inter, inter_comm, ← filter_mem_eq_inter, ← hall t ht]
    decide

end Circuit.Framework
