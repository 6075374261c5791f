import Mathlib.Algebra.Group.Action.Defs
import Mathlib.Algebra.Order.BigOperators.Group.Finset

/-!
# Connected components of a finite set

`IsComponent adj U C`: `C` is a connected component of `U` under the symmetric relation `adj`. Components that meet are
equal (`IsComponent.eq_of_mem`), every element lies in one (`exists_component`), and a set that is connected from one of
its elements and closed under `adj` is one (`isComponent_of_closed`).

When a set shrinks but keeps the components that pass a monotone test, these stay the same (`qualifying_congr`).
-/

namespace Circuit.Framework

open Relation Finset

section Components

variable {α : Type*} {adj : α → α → Prop} {U V C D : Finset α} {v w : α}

def Within (adj : α → α → Prop) (U : Finset α) (v w : α) : Prop := v ∈ U ∧ w ∈ U ∧ adj v w

def IsComponent (adj : α → α → Prop) (U C : Finset α) : Prop :=
  ∃ v ∈ U, ∀ w, w ∈ C ↔ ReflTransGen (Within adj U) v w

theorem Within.mono (h : U ⊆ V) (hw : Within adj U v w) : Within adj V v w :=
  ⟨h hw.1, h hw.2.1, hw.2.2⟩

instance [Std.Symm adj] : Std.Symm (Within adj U) where
  symm _ _ h := ⟨h.2.1, h.1, Std.Symm.symm _ _ h.2.2⟩

theorem reach_mem (hv : v ∈ U) (h : ReflTransGen (Within adj U) v w) : w ∈ U := by
  cases h with
  | refl => exact hv
  | tail _ hw => exact hw.2.1

theorem IsComponent.subset (h : IsComponent adj U C) : C ⊆ U := by
  obtain ⟨v, hv, hC⟩ := h
  intro w hw
  exact reach_mem hv ((hC w).1 hw)

theorem IsComponent.nonempty (h : IsComponent adj U C) : C.Nonempty := by
  obtain ⟨v, _, hC⟩ := h
  exact ⟨v, (hC v).2 .refl⟩

theorem IsComponent.mem_iff [Std.Symm adj] (h : IsComponent adj U C) (hv : v ∈ C) :
    w ∈ C ↔ ReflTransGen (Within adj U) v w := by
  obtain ⟨u, _, hC⟩ := h
  have huv := (hC v).1 hv
  rw [hC w]
  exact ⟨fun huw => (Std.Symm.symm _ _ huv).trans huw, huv.trans⟩

theorem IsComponent.eq_of_mem [Std.Symm adj] (hC : IsComponent adj U C)
    (hD : IsComponent adj U D) (hvC : v ∈ C) (hvD : v ∈ D) : C = D := by
  ext w
  rw [hC.mem_iff hvC, hD.mem_iff hvD]

theorem IsComponent.closed [Std.Symm adj] (h : IsComponent adj U C) (hv : v ∈ C) (hw : w ∈ U) (hvw : adj v w) : w ∈ C :=
  (h.mem_iff hv).2 (.single ⟨h.subset hv, hw, hvw⟩)

theorem isComponent_of_closed (hv : v ∈ C) (hsub : C ⊆ U) (hreach : ∀ w ∈ C, ReflTransGen (Within adj U) v w)
    (hclosed : ∀ a ∈ C, ∀ b ∈ U, adj a b → b ∈ C) : IsComponent adj U C := by
  refine ⟨v, hsub hv, fun w => ⟨hreach w, fun h => ?_⟩⟩
  induction h with
  | refl => exact hv
  | tail _ hab ih => exact hclosed _ ih _ hab.2.1 hab.2.2

theorem exists_component (adj : α → α → Prop) (hv : v ∈ U) : ∃ C, IsComponent adj U C ∧ v ∈ C := by
  classical
  refine ⟨U.filter (ReflTransGen (Within adj U) v), ⟨v, hv, fun w => ?_⟩, ?_⟩
  · rw [mem_filter]
    exact ⟨And.right, fun h => ⟨reach_mem hv h, h⟩⟩
  · exact mem_filter.2 ⟨hv, .refl⟩

theorem IsComponent.shrink [Std.Symm adj] (h : IsComponent adj U C) (hCV : C ⊆ V)
    (hVU : V ⊆ U) : IsComponent adj V C := by
  obtain ⟨v, hv⟩ := h.nonempty
  refine isComponent_of_closed hv hCV (fun w hw => ?_)
    fun a ha b hb hab => h.closed ha (hVU hb) hab
  -- the path to `w` stays in the component, hence in `V`
  have hreach := (h.mem_iff hv).1 hw
  clear hw
  induction hreach with
  | refl => exact .refl
  | tail hva hab ih =>
    have ha := (h.mem_iff hv).2 hva
    exact ih.tail ⟨hCV ha, hCV (h.closed ha hab.2.1 hab.2.2), hab.2.2⟩

theorem IsComponent.exists_superset (hVU : V ⊆ U) (h : IsComponent adj V C) : ∃ D, IsComponent adj U D ∧ C ⊆ D := by
  obtain ⟨v, hv, hC⟩ := h
  obtain ⟨D, hD, hvD⟩ := exists_component adj (hVU hv)
  refine ⟨D, hD, fun w hw => ?_⟩
  have hreach := (hC w).1 hw
  clear hw
  induction hreach with
  | refl => exact hvD
  | tail _ hab ih =>
    obtain ⟨u, hu, hDu⟩ := hD
    exact (hDu _).2 (((hDu _).1 ih).tail (hab.mono hVU))

theorem qualifying_congr [Std.Symm adj] {Q : Finset α → Prop} (hQ : ∀ C D, C ⊆ D → Q C → Q D) (hVU : V ⊆ U)
    (hkeep : ∀ C, IsComponent adj U C → Q C → C ⊆ V) (C : Finset α) :
    IsComponent adj V C ∧ Q C ↔ IsComponent adj U C ∧ Q C := by
  constructor
  · rintro ⟨hC, hq⟩
    obtain ⟨D, hD, hCD⟩ := hC.exists_superset hVU
    have hDq := hQ C D hCD hq
    have hDV := hD.shrink (hkeep D hD hDq) hVU
    obtain ⟨v, hv⟩ := hC.nonempty
    rw [hC.eq_of_mem hDV hv (hCD hv)]
    exact ⟨hD, hDq⟩
  · rintro ⟨hC, hq⟩
    exact ⟨hC.shrink (hkeep C hC hq) hVU, hq⟩

end Components

/-! ## How many components pass a size test -/

section Count

variable {α : Type*} [DecidableEq α] {adj : α → α → Prop} {U : Finset α}

theorem length_mul_le_card [Std.Symm adj] {m : ℕ} {l : List (Finset α)} (hl : l.Nodup)
    (hc : ∀ C ∈ l, IsComponent adj U C ∧ m < C.card) : l.length * (m + 1) ≤ U.card := by
  have hdisj : (l.toFinset : Set (Finset α)).PairwiseDisjoint id := by
    intro C hC D hD hne
    rw [mem_coe, List.mem_toFinset] at hC hD
    refine disjoint_left.2 fun v hvC hvD => hne ?_
    exact (hc C hC).1.eq_of_mem (hc D hD).1 hvC hvD
  calc l.length * (m + 1) = l.toFinset.card * (m + 1) := by rw [List.toFinset_card_of_nodup hl]
    _ ≤ ∑ C ∈ l.toFinset, C.card :=
      smul_eq_mul l.toFinset.card (m + 1) ▸
        card_nsmul_le_sum _ card _ fun C hC => (hc C (List.mem_toFinset.1 hC)).2
    _ = (l.toFinset.biUnion id).card := (card_biUnion hdisj).symm
    _ ≤ U.card := card_le_card fun v hv => by
      obtain ⟨C, hC, hvC⟩ := mem_biUnion.1 hv
      exact (hc C (List.mem_toFinset.1 hC)).1.subset hvC

end Count

end Circuit.Framework
