import Mathlib.Algebra.Order.Ring.Nat
import Mathlib.Data.List.Induction
import Mathlib.Data.List.Sort

/-!
# Scanning a list

A loop that keeps the first element of least value below a bound finds one unless all are at the bound or above
(`foldl_least_cases`); without a bound it finds a best element and its index (`foldl_best`), and with one if an element is
below it (`bestBelow_eq`). A loop that leaves at the first element that passes a test is `List.find?` (`foldlM_find`); on
a sorted list that element has the least key among those that pass (`find_le`). If only the first `n` elements are
visited, these include what has a smaller key than one of them (`mem_take_of_lt`), and all elements below a bound when
there are at most `n` such (`mem_take_of_countP`).
-/

namespace Circuit.Framework

open List

section Least

variable {α K : Type*} [LinearOrder K]

theorem foldl_least_cases (f : α → K) (top : K) (l : List α) :
    (l.foldl (fun (c : Option α × K) a => if f a < c.2 then (some a, f a) else c) (none, top) = (none, top) ∧
      ∀ a ∈ l, top ≤ f a) ∨
    ∃ a ∈ l, l.foldl (fun (c : Option α × K) a => if f a < c.2 then (some a, f a) else c) (none, top) = (some a, f a) ∧
      f a < top ∧ ∀ b ∈ l, f a ≤ f b := by
  induction l using reverseRecOn with
  | nil => exact .inl ⟨rfl, fun a ha => absurd ha not_mem_nil⟩
  | append_singleton l x ih =>
    rw [foldl_append, foldl_cons, foldl_nil]
    simp only [mem_append, mem_singleton, or_imp, forall_and, forall_eq]
    rcases ih with ⟨hnone, hall⟩ | ⟨a, ha, hsome, hlt, hall⟩
    · rw [hnone]
      by_cases hx : f x < top
      · exact .inr ⟨x, .inr rfl, if_pos hx, hx, fun b hb => hx.le.trans (hall b hb), le_rfl⟩
      · exact .inl ⟨if_neg hx, hall, not_lt.1 hx⟩
    · rw [hsome]
      by_cases hx : f x < f a
      · exact .inr ⟨x, .inr rfl, if_pos hx, hx.trans hlt, fun b hb => hx.le.trans (hall b hb), le_rfl⟩
      · exact .inr ⟨a, .inl ha, if_neg hx, hlt, hall, not_lt.1 hx⟩

end Least

section Best

variable {α K : Type*} (better : K → K → Prop) [DecidableRel better]

def best (key : α → K) (l : List α) : Option (K × ℕ) :=
  l.zipIdx.foldl (fun (b : Option (K × ℕ)) am =>
    if b.all (fun b => better (key am.1) b.1) then some (key am.1, am.2) else b) none

variable {better}

theorem best_concat (key : α → K) (l : List α) (x : α) : best better key (l ++ [x]) =
      if (best better key l).all (fun b => better (key x) b.1) then some (key x, l.length) else best better key l := by
  rw [best, zipIdx_append, foldl_append, zipIdx_singleton, Nat.zero_add]
  rfl

variable (better) in
theorem foldl_best (hasymm : ∀ a b, better a b → ¬ better b a)
    (htrans : ∀ a b c, ¬ better b a → ¬ better c b → ¬ better c a) (key : α → K) {l : List α} (hl : l ≠ []) :
    ∃ m a, best better key l = some (key a, m) ∧ l[m]? = some a ∧ ∀ b ∈ l, ¬ better (key b) (key a) := by
  have hirrefl : ∀ a, ¬ better a a := fun a h => hasymm a a h h
  induction l using reverseRecOn with
  | nil => exact absurd rfl hl
  | append_singleton l x ih =>
    rw [best_concat]
    by_cases hnil : l = []
    · subst hnil
      refine ⟨0, x, rfl, rfl, fun b hb => ?_⟩
      rw [nil_append, mem_singleton] at hb
      rw [hb]
      exact hirrefl _
    · obtain ⟨m, a, hbest, hget, hle⟩ := ih hnil
      have hlt : m < l.length := (List.getElem?_eq_some_iff.1 hget).1
      rw [hbest]
      by_cases hx : better (key x) (key a)
      · refine ⟨l.length, x, by simp [hx], by simp, fun b hb => ?_⟩
        rcases mem_append.1 hb with hb | hb
        · exact htrans _ _ _ (hasymm _ _ hx) (hle b hb)
        · rw [mem_singleton.1 hb]
          exact hirrefl _
      · refine ⟨m, a, by simp [hx], by rw [getElem?_append_left hlt, hget], fun b hb => ?_⟩
        rcases mem_append.1 hb with hb | hb
        · exact hle b hb
        · rwa [mem_singleton.1 hb]

end Best

section Below

variable {α K : Type*} [LinearOrder K]

def bestBelow (key : α → K) (top : K) (l : List α) : K × Option ℕ :=
  l.zipIdx.foldl (fun (b : K × Option ℕ) am => if key am.1 < b.1 then (key am.1, some am.2) else b) (top, none)

theorem bestBelow_concat (key : α → K) (top : K) (l : List α) (x : α) : bestBelow key top (l ++ [x]) =
      if key x < (bestBelow key top l).1 then (key x, some l.length) else bestBelow key top l := by
  rw [bestBelow, zipIdx_append, foldl_append, zipIdx_singleton, Nat.zero_add]
  rfl

theorem bestBelow_cases (key : α → K) (top : K) (l : List α) :
    (∃ d m, bestBelow key top l = (d, some m) ∧ best (· < ·) key l = some (d, m)) ∨
      (bestBelow key top l = (top, none) ∧ ∀ a ∈ l, top ≤ key a) := by
  induction l using reverseRecOn with
  | nil => exact .inr ⟨rfl, fun a ha => absurd ha not_mem_nil⟩
  | append_singleton l x ih =>
    rw [bestBelow_concat, best_concat]
    rcases ih with ⟨d, m, hbelow, hbest⟩ | ⟨hbelow, htop⟩
    · rw [hbelow, hbest]
      by_cases hx : key x < d
      · exact .inl ⟨key x, l.length, if_pos hx, by simp [hx]⟩
      · exact .inl ⟨d, m, if_neg hx, by simp [hx]⟩
    · rw [hbelow]
      by_cases hx : key x < top
      · have hall : (best (· < ·) key l).all (fun b => key x < b.1) = true := by
          rcases eq_or_ne l [] with rfl | hl
          · rfl
          · obtain ⟨m, a, hbest, hget, -⟩ := foldl_best (fun a b : K => a < b) (fun _ _ => lt_asymm)
              (fun _ _ _ hab hbc => not_lt.2 ((not_lt.1 hab).trans (not_lt.1 hbc))) key hl
            rw [hbest, Option.all_some, decide_eq_true_eq]
            exact hx.trans_le (htop a (mem_of_getElem? hget))
        exact .inl ⟨key x, l.length, if_pos hx, if_pos hall⟩
      · refine .inr ⟨if_neg hx, fun a ha => ?_⟩
        rcases mem_append.1 ha with ha | ha
        · exact htop a ha
        · rw [mem_singleton.1 ha]
          exact not_lt.1 hx

theorem bestBelow_eq {key : α → K} {top : K} {l : List α} (h : ∃ a ∈ l, key a < top) :
    (bestBelow key top l).2 = (best (· < ·) key l).map (·.2) := by
  rcases bestBelow_cases key top l with ⟨d, m, hbelow, hbest⟩ | ⟨-, htop⟩
  · rw [hbelow, hbest]
    rfl
  · obtain ⟨a, ha, hlt⟩ := h
    exact absurd hlt (not_lt.2 (htop a ha))

end Below

section Loop

variable {α σ ε : Type} {f : σ → α → Except ε σ} {p : α → Bool} {out : α → ε}

theorem foldlM_find (hpass : ∀ s a, p a = true → f s a = .error (out a))
    (hfail : ∀ s a, p a = false → ∃ s', f s a = .ok s') (l : List α) (s : σ) :
    (∃ a, l.find? p = some a ∧ l.foldlM f s = .error (out a)) ∨ (l.find? p = none ∧ ∃ s', l.foldlM f s = .ok s') := by
  induction l generalizing s with
  | nil => exact .inr ⟨rfl, s, rfl⟩
  | cons a l ih =>
    rw [foldlM_cons]
    cases hp : p a with
    | true =>
      rw [hpass s a hp]
      exact .inl ⟨a, find?_cons_of_pos hp, rfl⟩
    | false =>
      obtain ⟨s', hs'⟩ := hfail s a hp
      rw [hs', find?_cons_of_neg (by simp [hp])]
      exact ih s'

end Loop

section Sorted

variable {α K : Type*} [LinearOrder K] {key : α → K} {l : List α} {a b : α} {n : ℕ}

structure Sorts (key : α → K) (sort : List α → List α) : Prop where
  perm : ∀ l, (sort l).Perm l
  sorted : ∀ l, (sort l).Pairwise fun a b => key a ≤ key b

def sortBy (key : α → K) : List α → List α := insertionSort fun a b => key a ≤ key b

theorem sorts_sortBy (key : α → K) : Sorts key (sortBy key) :=
  have : Std.Total fun a b : α => key a ≤ key b := ⟨fun a b => le_total (key a) (key b)⟩
  have : IsTrans α fun a b => key a ≤ key b := ⟨fun _ _ _ => le_trans⟩
  ⟨perm_insertionSort _, pairwise_insertionSort _⟩

theorem find_le {p : α → Bool} (hs : l.Pairwise fun a b => key a ≤ key b) (ha : l.find? p = some a) (hb : b ∈ l)
    (hp : p b = true) : key a ≤ key b := by
  obtain ⟨-, before, after, rfl, hbefore⟩ := find?_eq_some_iff_append.1 ha
  rcases mem_append.1 hb with hb | hb
  · exact absurd hp (by simpa using hbefore b hb)
  · rcases mem_cons.1 hb with rfl | hb
    · exact le_rfl
    · exact (pairwise_cons.1 (pairwise_append.1 hs).2.1).1 b hb

theorem key_take_le (hs : l.Pairwise fun a b => key a ≤ key b) (ha : a ∈ l.take n) (hb : b ∈ l.drop n) :
    key a ≤ key b := by
  rw [← take_append_drop n l] at hs
  exact (pairwise_append.1 hs).2.2 a ha b hb

theorem mem_take_or_drop (hb : b ∈ l) (n : ℕ) : b ∈ l.take n ∨ b ∈ l.drop n := by
  rwa [← mem_append, take_append_drop]

theorem mem_take_of_lt (hs : l.Pairwise fun a b => key a ≤ key b) (ha : a ∈ l.take n) (hb : b ∈ l)
    (hlt : key b < key a) : b ∈ l.take n :=
  (mem_take_or_drop hb n).resolve_right fun hdrop => not_lt.2 (key_take_le hs ha hdrop) hlt

theorem mem_take_of_countP {bound : K} (hs : l.Pairwise fun a b => key a ≤ key b)
    (hn : (l.countP fun a => key a < bound) ≤ n) (hb : b ∈ l) (hlt : key b < bound) : b ∈ l.take n := by
  refine (mem_take_or_drop hb n).resolve_right fun hdrop => ?_
  -- all elements visited and `b` itself would be below the bound
  have htake : ((l.take n).countP fun a => key a < bound) = (l.take n).length := by
    rw [countP_eq_length]
    intro a ha
    exact decide_eq_true ((key_take_le hs ha hdrop).trans_lt hlt)
  have hpos : 0 < (l.drop n).countP fun a => key a < bound := countP_pos_iff.2 ⟨b, hdrop, decide_eq_true hlt⟩
  have hsum : (l.countP fun a => key a < bound) =
      ((l.take n).countP fun a => key a < bound) + (l.drop n).countP fun a => key a < bound := by
    rw [← countP_append, take_append_drop]
  have hlen : 0 < (l.drop n).length := length_pos_of_mem hdrop
  rw [length_drop] at hlen
  rw [htake, length_take] at hsum
  omega

end Sorted

end Circuit.Framework
