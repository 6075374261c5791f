import Mathlib.Tactic.Ring

/-!
# Symmetric tables kept as a triangle

A symmetric table without its diagonal, of which only the entries below the diagonal are kept, row after row. `entry` reads
it from both sides, and different pairs have different places (`entry_write`). A loop that rewrites entries of one row of
the table, each from itself and from the entry in the same column of another row, is `foldl_write_row`.
-/

namespace Circuit.Framework.TriangularTable

open Function List

variable {K : Type*} {t : ℕ → K} {i j x y : ℕ}

def place (row column : ℕ) : ℕ := row * (row - 1) / 2 + column

def entry (t : ℕ → K) (i j : ℕ) : K := t (place (max i j) (min i j))

def write (t : ℕ → K) (i j : ℕ) (d : K) : ℕ → K := update t (place (max i j) (min i j)) d

/-! ## Places -/

theorem place_succ_zero (row : ℕ) : place (row + 1) 0 = place row row := by
  cases row with
  | zero => rfl
  | succ row =>
    have h : (row + 2) * (row + 1) = (row + 1) * row + (row + 1) * 2 := by ring
    simp only [place, Nat.add_sub_cancel, Nat.add_zero]
    rw [h, Nat.add_mul_div_right _ _ Nat.zero_lt_two]

theorem place_lt_place (hj : j < i) (hx : i < x) : place i j < place x y := by
  have hstart : place i i ≤ place x 0 := by
    rw [← place_succ_zero]
    simp only [place, Nat.add_zero]
    exact Nat.div_le_div_right (Nat.mul_le_mul (by omega) (by omega))
  simp only [place] at hstart ⊢
  omega

theorem place_inj (hj : j < i) (hy : y < x) (h : place i j = place x y) : i = x ∧ j = y := by
  rcases lt_trichotomy i x with hlt | rfl | hgt
  · exact absurd h (place_lt_place hj hlt).ne
  · exact ⟨rfl, Nat.add_left_cancel h⟩
  · exact absurd h (place_lt_place hy hgt).ne'

/-! ## Entries -/

theorem entry_comm (t : ℕ → K) (i j : ℕ) : entry t i j = entry t j i := by
  rw [entry, entry, max_comm, min_comm]

theorem entry_of_lt (t : ℕ → K) (h : j < i) : entry t i j = t (place i j) := by
  rw [entry, max_eq_left h.le, min_eq_right h.le]

theorem write_of_lt (t : ℕ → K) (h : j < i) (d : K) : write t i j d = update t (place i j) d := by
  rw [write, max_eq_left h.le, min_eq_right h.le]

theorem write_comm (t : ℕ → K) (i j : ℕ) (d : K) : write t i j d = write t j i d := by
  rw [write, write, max_comm, min_comm]

theorem entry_write_self (t : ℕ → K) (i j : ℕ) (d : K) : entry (write t i j d) i j = d :=
  update_self ..

theorem entry_write_of_ne (hij : i ≠ j) (hxy : x ≠ y) (h : ¬ (x = i ∧ y = j)) (h' : ¬ (x = j ∧ y = i)) (d : K) :
    entry (write t i j d) x y = entry t x y := by
  refine update_of_ne (fun heq => ?_) d t
  obtain ⟨hmax, hmin⟩ := place_inj (min_lt_max.2 hxy) (min_lt_max.2 hij) heq
  omega

/-! ## Loops -/

theorem foldl_write_row (op : K → K → K) {l : List ℕ} (hl : l.Nodup) (hi : i ∉ l) (hj : j ∉ l) (t : ℕ → K) :
    (∀ k ∈ l, entry (l.foldl (fun t k => write t i k (op (entry t j k) (entry t i k))) t) i k =
      op (entry t j k) (entry t i k)) ∧ ∀ x y, x ≠ y → ¬ (x = i ∧ y ∈ l) → ¬ (y = i ∧ x ∈ l) →
      entry (l.foldl (fun t k => write t i k (op (entry t j k) (entry t i k))) t) x y = entry t x y := by
  induction l generalizing t with
  | nil => simp
  | cons k l ih =>
    rw [nodup_cons] at hl
    rw [mem_cons, not_or] at hi hj
    obtain ⟨hrow, hframe⟩ := ih hl.2 hi.2 hj.2 (write t i k (op (entry t j k) (entry t i k)))
    rw [foldl_cons]
    refine ⟨fun k' hk' => ?_, fun x y hxy hx hy => ?_⟩
    · rcases mem_cons.1 hk' with rfl | hk'
      · rw [hframe i k' hi.1 (fun h => hl.1 h.2) (fun h => hi.1 h.1.symm), entry_write_self]
      · have hne : k' ≠ k := fun h => hl.1 (h ▸ hk')
        have hik : i ≠ k' := fun h => hi.2 (h ▸ hk')
        have hjk : j ≠ k' := fun h => hj.2 (h ▸ hk')
        rw [hrow k' hk', entry_write_of_ne hi.1 hjk (fun h => hne h.2) (fun h => hj.1 h.1),
          entry_write_of_ne hi.1 hik (fun h => hne h.2) (fun h => hi.1 h.1)]
    · rw [hframe x y hxy (fun h => hx ⟨h.1, mem_cons_of_mem k h.2⟩) (fun h => hy ⟨h.1, mem_cons_of_mem k h.2⟩)]
      refine entry_write_of_ne hi.1 hxy (fun h => hx ⟨h.1, ?_⟩) (fun h => hy ⟨h.2, ?_⟩) _
      · exact h.2 ▸ mem_cons_self
      · exact h.1 ▸ mem_cons_self

end Circuit.Framework.TriangularTable
