import Mathlib.Order.Lattice

/-!
# Binary heaps in an array

The keys of a heap of size `n` are `k 1, …, k n`, and the parent of position `i` is `i / 2`. A
heap is repaired by swaps along one path: upwards from a position whose key may be below its
parent's (`UpHeap`), or downwards from one whose key may be above its children's (`DownHeap`).
Each has a step lemma (`swap`) and a last one (`done`), for any code that swaps.
-/

namespace Circuit.Framework

variable {K : Type*} [LinearOrder K] {k : Nat → K} {n : Nat} {i : Nat} {k' : Nat → K}

def IsHeap (k : Nat → K) (n : Nat) : Prop := ∀ i, 2 ≤ i → i ≤ n → k (i / 2) ≤ k i

theorem IsHeap.root_le (h : IsHeap k n) : ∀ i, 1 ≤ i → i ≤ n → k 1 ≤ k i := by
  intro i
  induction i using Nat.strongRecOn with
  | ind i ih =>
    intro h1 hn
    rcases (by omega : i = 1 ∨ 2 ≤ i) with rfl | h2
    · exact le_rfl
    · exact (ih (i / 2) (by omega) (by omega) (by omega)).trans (h i h2 hn)

def swapAt {α : Type*} (k : Nat → α) (p i : Nat) : Nat → α :=
  fun j => if j = i then k p else if j = p then k i else k j

theorem swapAt_right {α : Type*} (k : Nat → α) (p i : Nat) : swapAt k p i i = k p := by simp [swapAt]

theorem swapAt_left {α : Type*} (k : Nat → α) {p : Nat} (h : p ≠ i) : swapAt k p i p = k i := by
  simp [swapAt, h]

theorem swapAt_of_ne {α : Type*} (k : Nat → α) {p j : Nat} (hi : j ≠ i) (hp : j ≠ p) : swapAt k p i j = k j := by
  simp [swapAt, hi, hp]

structure UpHeap (k : Nat → K) (n i : Nat) : Prop where
  rest : ∀ j, 2 ≤ j → j ≤ n → j ≠ i → k (j / 2) ≤ k j
  grand : 2 ≤ i → ∀ j, 2 ≤ j → j ≤ n → j / 2 = i → k (i / 2) ≤ k j

theorem IsHeap.lower (h : IsHeap k n) (hi : i ≤ n)
    (hne : ∀ j, 1 ≤ j → j ≤ n → j ≠ i → k' j = k j) (hle : k' i ≤ k i) : UpHeap k' n i where
  rest j h2 hn hj := by
    rw [hne j (by omega) hn hj]
    by_cases e : j / 2 = i
    · rw [e]; exact hle.trans (e ▸ h j h2 hn)
    · rw [hne _ (by omega) (by omega) e]; exact h j h2 hn
  grand h2i j h2 hn e := by
    rw [hne j (by omega) hn (by omega), hne (i / 2) (by omega) (by omega) (by omega)]
    exact (h i h2i hi).trans (e ▸ h j h2 hn)

theorem IsHeap.append (h : IsHeap k n) (hne : ∀ j, 1 ≤ j → j ≤ n → k' j = k j) : UpHeap k' (n + 1) (n + 1) where
  rest j h2 hn hj := by
    rw [hne j (by omega) (by omega), hne (j / 2) (by omega) (by omega)]
    exact h j h2 (by omega)
  grand h2i j h2 hn e := by omega

theorem UpHeap.done (h : UpHeap k n i) (hi : 2 ≤ i → k (i / 2) ≤ k i) : IsHeap k n := by
  intro j h2 hn
  by_cases e : j = i
  · subst e; exact hi h2
  · exact h.rest j h2 hn e

theorem UpHeap.swap (h : UpHeap k n i) (hi : 2 ≤ i) (hn : i ≤ n) (hlt : k i < k (i / 2)) :
    UpHeap (swapAt k (i / 2) i) n (i / 2) where
  rest j h2 hjn hj := by
    by_cases e : j = i
    · rw [e, swapAt_right, swapAt_left _ (by omega)]; exact hlt.le
    rw [swapAt_of_ne _ e hj]
    by_cases ep : j / 2 = i
    · rw [ep, swapAt_right]; exact h.grand hi j h2 hjn ep
    by_cases eg : j / 2 = i / 2
    · rw [eg, swapAt_left _ (by omega)]
      exact hlt.le.trans (eg ▸ h.rest j h2 hjn e)
    · rw [swapAt_of_ne _ ep eg]; exact h.rest j h2 hjn e
  grand h2i j h2 hjn e := by
    have hg : k (i / 2 / 2) ≤ k (i / 2) := h.rest (i / 2) h2i (by omega) (by omega)
    rw [swapAt_of_ne _ (by omega) (by omega)]
    by_cases ej : j = i
    · rw [ej, swapAt_right]; exact hg
    · rw [swapAt_of_ne _ ej (by omega)]
      exact hg.trans (e ▸ h.rest j h2 hjn ej)

structure DownHeap (k : Nat → K) (n i : Nat) : Prop where
  rest : ∀ j, 2 ≤ j → j ≤ n → j / 2 ≠ i → k (j / 2) ≤ k j
  grand : 2 ≤ i → ∀ j, 2 ≤ j → j ≤ n → j / 2 = i → k (i / 2) ≤ k j

theorem IsHeap.replace {m : Nat} (h : IsHeap k n) (hm : m ≤ n)
    (hne : ∀ j, 2 ≤ j → j ≤ m → k' j = k j) : DownHeap k' m 1 where
  rest j h2 hj hp := by
    rw [hne j h2 hj, hne (j / 2) (by omega) (by omega)]
    exact h j h2 (by omega)
  grand h2 := by omega

theorem DownHeap.done (h : DownHeap k n i) (hc : ∀ j, 2 ≤ j → j ≤ n → j / 2 = i → k i ≤ k j) : IsHeap k n := by
  intro j h2 hn
  by_cases e : j / 2 = i
  · rw [e]; exact hc j h2 hn e
  · exact h.rest j h2 hn e

theorem DownHeap.swap {c : Nat} (h : DownHeap k n i) (hc : 2 ≤ c) (hn : c ≤ n) (hp : c / 2 = i)
    (hmin : ∀ j, 2 ≤ j → j ≤ n → j / 2 = i → k c ≤ k j) (hlt : k c < k i) : DownHeap (swapAt k i c) n c where
  rest j h2 hjn hj := by
    by_cases e : j = c
    · rw [e, hp, swapAt_right, swapAt_left _ (by omega)]; exact hlt.le
    by_cases ei : j = i
    · have := h.grand (by omega) c hc hn hp
      rw [ei, swapAt_left _ (by omega), swapAt_of_ne _ (by omega) (by omega)]; exact this
    rw [swapAt_of_ne _ e ei]
    by_cases ep : j / 2 = i
    · rw [ep, swapAt_left _ (by omega)]; exact hmin j h2 hjn ep
    · rw [swapAt_of_ne _ hj ep]; exact h.rest j h2 hjn ep
  grand h2 j hj2 hjn e := by
    rw [hp, swapAt_left _ (by omega), swapAt_of_ne _ (by omega) (by omega)]
    exact e ▸ h.rest j hj2 hjn (by omega)

end Circuit.Framework
