import CircuitAI.Framework.LineWalk
import Mathlib.Tactic.Positivity

/-!
# The ring of a disc on a grid

The disc of radius `r` reaches `width r k` cells to both sides in the rows `k` above and below its centre (`inDisc_iff`).
Its ring (`InRing`) has in each row the cells that the next row out does not cover, and the last one that it does. A king
cannot come in without stepping on it: where the next cell is deeper in than the ring, its row is two rows further in
than the row of the last cell at least (`not_inner_of_king`). So every walk of a king into the disc visits the ring
(`ring_crossed`).
-/

namespace Circuit.Framework

open List

def width (r k : ℕ) : ℕ := Nat.sqrt (r * r - k * k)

def InDisc (r : ℕ) (c : ℤ × ℤ) : Prop := c.1 ^ 2 + c.2 ^ 2 ≤ (r : ℤ) ^ 2

def InRing (r : ℕ) (c : ℤ × ℤ) : Prop :=
  (c.2.natAbs = r ∧ c.1 = 0) ∨
    (c.2.natAbs < r ∧ width r (c.2.natAbs + 1) ≤ c.1.natAbs ∧ c.1.natAbs ≤ width r c.2.natAbs)

def Inner (r : ℕ) (c : ℤ × ℤ) : Prop := c.2.natAbs < r ∧ c.1.natAbs < width r (c.2.natAbs + 1)

variable {r k : ℕ} {c d t : ℤ × ℤ}

/-! ## Rows -/

theorem width_anti (r : ℕ) {k k' : ℕ} (h : k ≤ k') : width r k' ≤ width r k :=
  Nat.sqrt_le_sqrt (Nat.sub_le_sub_left (Nat.mul_le_mul h h) _)

@[simp]
theorem width_zero (r : ℕ) : width r 0 = r := by
  rw [width, Nat.mul_zero, Nat.sub_zero, Nat.sqrt_eq]

@[simp]
theorem width_self (r : ℕ) : width r r = 0 := by
  rw [width, Nat.sub_self, Nat.sqrt_zero]

theorem width_one (hr : 1 ≤ r) : width r 1 = r - 1 := by
  obtain ⟨s, rfl⟩ := Nat.exists_eq_add_of_le' hr
  rw [width, Nat.add_sub_cancel]
  have hsq : (s + 1) * (s + 1) = s * s + 2 * s + 1 := by ring
  exact (Nat.eq_sqrt.2 ⟨by omega, by omega⟩).symm

theorem le_width_iff {m : ℕ} (hk : k ≤ r) : m ≤ width r k ↔ m * m + k * k ≤ r * r := by
  have hkk := Nat.mul_le_mul hk hk
  rw [width, Nat.le_sqrt]
  omega

theorem inDisc_iff : InDisc r c ↔ c.2.natAbs ≤ r ∧ c.1.natAbs ≤ width r c.2.natAbs := by
  have hsq : InDisc r c ↔ c.1.natAbs * c.1.natAbs + c.2.natAbs * c.2.natAbs ≤ r * r := by
    rw [InDisc, ← Int.natAbs_sq c.1, ← Int.natAbs_sq c.2, pow_two, pow_two, pow_two]
    norm_cast
  rw [hsq]
  constructor
  · intro h
    have hk : c.2.natAbs ≤ r := Nat.mul_self_le_mul_self_iff.1 ((Nat.le_add_left _ _).trans h)
    exact ⟨hk, (le_width_iff hk).2 h⟩
  · rintro ⟨hk, hw⟩
    exact (le_width_iff hk).1 hw

/-! ## The ring -/

theorem InRing.inDisc (h : InRing r c) : InDisc r c := by
  rw [inDisc_iff]
  rcases h with ⟨hk, hx⟩ | ⟨hk, -, hw⟩
  · rw [hk, hx]
    exact ⟨le_rfl, Nat.zero_le _⟩
  · exact ⟨hk.le, hw⟩

theorem InRing.neg_fst (h : InRing r c) : InRing r (-c.1, c.2) := by
  simpa [InRing] using h

theorem InRing.neg_snd (h : InRing r c) : InRing r (c.1, -c.2) := by
  simpa [InRing] using h

theorem InDisc.inRing (h : InDisc r c) (hin : ¬ Inner r c) : InRing r c := by
  obtain ⟨hk, hw⟩ := inDisc_iff.1 h
  rcases hk.eq_or_lt with heq | hlt
  · rw [heq, width_self] at hw
    exact .inl ⟨heq, Int.natAbs_eq_zero.1 (Nat.le_zero.1 hw)⟩
  · exact .inr ⟨hlt, not_lt.1 fun hx => hin ⟨hlt, hx⟩, hw⟩

theorem not_inner_of_king (hc : ¬ InDisc r c) (h : King c d) : ¬ Inner r d := by
  rintro ⟨hk, hx⟩
  obtain ⟨-, h1, h2⟩ := h
  rw [abs_le] at h1 h2
  have hrow : c.2.natAbs ≤ d.2.natAbs + 1 := by omega
  have hcol : c.1.natAbs ≤ d.1.natAbs + 1 := by omega
  have hwidth := width_anti r hrow
  exact hc (inDisc_iff.2 ⟨by omega, by omega⟩)

theorem ring_visited {path : List (ℤ × ℤ)} (hpath : (c :: path).IsChain King) (hc : ¬ InDisc r c)
    (hlast : ∃ d ∈ (c :: path).getLast?, InDisc r d) : ∃ d ∈ c :: path, InRing r d := by
  induction path generalizing c with
  | nil =>
    obtain ⟨d, hd, hin⟩ := hlast
    obtain rfl : c = d := by simpa using hd
    exact absurd hin hc
  | cons e path ih =>
    rw [isChain_cons_cons] at hpath
    by_cases he : InDisc r e
    · exact ⟨e, by simp, he.inRing (not_inner_of_king hc hpath.1)⟩
    · rw [getLast?_cons_cons] at hlast
      obtain ⟨d, hd, hring⟩ := ih hpath.2 he hlast
      exact ⟨d, mem_cons_of_mem c hd, hring⟩

theorem King.sub (h : King c d) (t : ℤ × ℤ) : King (c - t) (d - t) := by
  obtain ⟨hne, h1, h2⟩ := h
  refine ⟨fun heq => hne (sub_left_injective heq), ?_, ?_⟩
  · simpa using h1
  · simpa using h2

theorem ring_crossed {path : List (ℤ × ℤ)} (hpath : path.IsChain King) (hfirst : ∃ c ∈ path.head?, ¬ InDisc r (c - t))
    (hlast : t ∈ path.getLast?) : ∃ d ∈ path, InRing r (d - t) := by
  obtain ⟨c, hc, hout⟩ := hfirst
  obtain ⟨path, rfl⟩ := head?_eq_some_iff.1 (Option.mem_def.1 hc)
  have hchain : ((c :: path).map (· - t)).IsChain King :=
    isChain_map_of_isChain (· - t) (fun _ _ hk => hk.sub t) hpath
  have hcentre : InDisc r 0 := by
    simp only [InDisc, Prod.fst_zero, Prod.snd_zero]
    positivity
  have hmem : (0 : ℤ × ℤ) ∈ ((c :: path).map (· - t)).getLast? := by
    rw [getLast?_map, Option.mem_def.1 hlast]
    simp
  rw [map_cons] at hchain hmem
  obtain ⟨d, hd, hring⟩ := ring_visited hchain hout ⟨0, hmem, hcentre⟩
  rw [← map_cons (f := (· - t))] at hd
  obtain ⟨e, he, rfl⟩ := mem_map.1 hd
  exact ⟨e, he, hring⟩

end Circuit.Framework
