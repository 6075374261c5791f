import Mathlib.Tactic.Linarith
import Mathlib.Tactic.LinearCombination
import Mathlib.Tactic.Positivity
import Mathlib.Tactic.Ring

/-!
# Smallest enclosing circles

A circle is given by its centre and the square of its radius, in any ordered field. `Encloses S B c ρ`: it contains the
points of `S` and passes through those of `B`; `Smallest S B c ρ`: no other such circle is smaller.

The circles between two circles (`blend`) contain what both contain and pass through what both pass through, so that a
point outside a smallest circle may be required on the boundary of the next one (`Smallest.insert_outside`). For circles
through two points the place of the centre on the bisector has a linear bound for each further point (`Encloses.pencil`);
the smallest one is about the middle, or passes through the point with the tightest bound on one side (`smallest_left`,
`smallest_right`).
-/

set_option linter.unusedSectionVars false

namespace Circuit.Framework.Plane

open Set

@[ext]
structure Point (K : Type*) where
  x : K
  y : K

variable {K : Type*} [Field K]

instance : Sub (Point K) := ⟨fun p q => ⟨p.x - q.x, p.y - q.y⟩⟩

@[simp] theorem Point.sub_x (p q : Point K) : (p - q).x = p.x - q.x := rfl

@[simp] theorem Point.sub_y (p q : Point K) : (p - q).y = p.y - q.y := rfl

def Point.cross (p q : Point K) : K := p.x * q.y - p.y * q.x

def Point.norm (p : Point K) : K := p.x * p.x + p.y * p.y

def sqDist (p q : Point K) : K := (p - q).norm

theorem sqDist_eq (p q : Point K) : sqDist p q = (p.x - q.x) * (p.x - q.x) + (p.y - q.y) * (p.y - q.y) := rfl

@[simp] theorem sqDist_self (p : Point K) : sqDist p p = 0 := by
  rw [sqDist_eq]
  ring

theorem sqDist_comm (p q : Point K) : sqDist p q = sqDist q p := by
  rw [sqDist_eq, sqDist_eq]
  ring

variable [LinearOrder K] [IsStrictOrderedRing K]

theorem sqDist_nonneg (p q : Point K) : 0 ≤ sqDist p q := by
  rw [sqDist_eq]
  exact add_nonneg (mul_self_nonneg _) (mul_self_nonneg _)

theorem sqDist_eq_zero {p q : Point K} : sqDist p q = 0 ↔ p = q := by
  rw [sqDist_eq, mul_self_add_mul_self_eq_zero, sub_eq_zero, sub_eq_zero, Point.ext_iff]

theorem sqDist_pos {p q : Point K} (h : p ≠ q) : 0 < sqDist p q :=
  lt_of_le_of_ne (sqDist_nonneg p q) fun h0 => h (sqDist_eq_zero.1 h0.symm)

/-! ## Circles that contain some points and pass through others -/

structure Encloses (S B : Set (Point K)) (c : Point K) (ρ : K) : Prop where
  within : ∀ x ∈ S, sqDist c x ≤ ρ
  through : ∀ x ∈ B, sqDist c x = ρ

structure Smallest (S B : Set (Point K)) (c : Point K) (ρ : K) : Prop extends Encloses S B c ρ where
  least : ∀ c' ρ', Encloses S B c' ρ' → ρ ≤ ρ'

variable {S T B : Set (Point K)} {c d e p q r : Point K} {ρ σ τ t : K}

theorem Encloses.mono (h : Encloses T B c ρ) (hST : S ⊆ T) : Encloses S B c ρ :=
  ⟨fun x hx => h.within x (hST hx), h.through⟩

theorem exists_encloses (l : List (Point K)) (c : Point K) : ∃ ρ, Encloses {x | x ∈ l} ∅ c ρ := by
  induction l with
  | nil => exact ⟨0, fun x hx => absurd hx List.not_mem_nil, fun x hx => hx.elim⟩
  | cons p l ih =>
    obtain ⟨ρ, h⟩ := ih
    refine ⟨max ρ (sqDist c p), fun x hx => ?_, fun x hx => hx.elim⟩
    rcases List.mem_cons.1 hx with rfl | hx
    · exact le_max_right _ _
    · exact (h.within x hx).trans (le_max_left _ _)

theorem smallest_point (p : Point K) : Smallest ∅ {p} p 0 where
  within x hx := hx.elim
  through x hx := by rw [mem_singleton_iff.1 hx, sqDist_self]
  least c' ρ' h := by
    rw [← h.through p rfl]
    exact sqDist_nonneg c' p

/-! ## The circles between two circles -/

def blend (t : K) (d e : Point K) : Point K := ⟨(1 - t) * d.x + t * e.x, (1 - t) * d.y + t * e.y⟩

theorem sqDist_blend (t : K) (d e x : Point K) :
    sqDist (blend t d e) x = (1 - t) * sqDist d x + t * sqDist e x - t * (1 - t) * sqDist d e := by
  simp only [sqDist_eq, blend]
  ring

theorem Encloses.blend (hd : Encloses S B d ρ) (he : Encloses S B e σ) (h0 : 0 ≤ t) (h1 : t ≤ 1) :
    Encloses S B (blend t d e) ((1 - t) * ρ + t * σ - t * (1 - t) * sqDist d e) where
  within x hx := by
    rw [sqDist_blend]
    have hx0 := mul_le_mul_of_nonneg_left (hd.within x hx) (sub_nonneg.2 h1)
    have hx1 := mul_le_mul_of_nonneg_left (he.within x hx) h0
    linarith
  through x hx := by rw [sqDist_blend, hd.through x hx, he.through x hx]

theorem Smallest.unique (hd : Smallest S B d ρ) (he : Smallest S B e σ) : d = e ∧ ρ = σ := by
  have heq : ρ = σ := (hd.least e σ he.toEncloses).antisymm (he.least d ρ hd.toEncloses)
  -- half way between two centres a smaller circle would do
  have hhalf := hd.least _ _ (hd.toEncloses.blend he.toEncloses (t := 1 / 2) (by norm_num) (by norm_num))
  exact ⟨sqDist_eq_zero.1 ((sqDist_nonneg d e).antisymm' (by linarith)), heq⟩

theorem Encloses.exists_insert (hd : Encloses S B d ρ) (he : Encloses (insert p S) B e σ) (hp : ρ < sqDist d p)
    (hle : ρ ≤ σ) : ∃ c τ, Encloses (insert p S) (insert p B) c τ ∧ τ ≤ σ := by
  have hout : 0 < sqDist d p - ρ := sub_pos.2 hp
  have hin : 0 ≤ σ - sqDist e p := sub_nonneg.2 (he.within p (mem_insert p S))
  obtain ⟨t, ht⟩ : ∃ t, t = (sqDist d p - ρ) / ((sqDist d p - ρ) + (σ - sqDist e p)) := ⟨_, rfl⟩
  have h0 : 0 ≤ t := by
    rw [ht]
    positivity
  have h1 : t ≤ 1 := by
    rw [ht]
    exact div_le_one_of_le₀ (le_add_of_nonneg_right hin) (by positivity)
  have hzero : t * ((sqDist d p - ρ) + (σ - sqDist e p)) = sqDist d p - ρ := by
    rw [ht]
    exact div_mul_cancel₀ _ (by positivity)
  have hon : sqDist (Plane.blend t d e) p = (1 - t) * ρ + t * σ - t * (1 - t) * sqDist d e := by
    rw [sqDist_blend]
    linear_combination -hzero
  have hblend := hd.blend (he.mono (subset_insert p S)) h0 h1
  refine ⟨Plane.blend t d e, (1 - t) * ρ + t * σ - t * (1 - t) * sqDist d e, ⟨?_, ?_⟩, ?_⟩
  · rintro x (rfl | hx)
    · exact hon.le
    · exact hblend.within x hx
  · rintro x (rfl | hx)
    · exact hon
    · exact hblend.through x hx
  · have hmix := mul_le_mul_of_nonneg_left hle (sub_nonneg.2 h1)
    have hgap := mul_nonneg (mul_nonneg h0 (sub_nonneg.2 h1)) (sqDist_nonneg d e)
    linarith

theorem Smallest.insert_inside (h : Smallest S B c ρ) (hp : sqDist c p ≤ ρ) : Smallest (insert p S) B c ρ where
  within x hx := by
    rcases hx with rfl | hx
    · exact hp
    · exact h.within x hx
  through := h.through
  least c' ρ' h' := h.least c' ρ' (h'.mono (subset_insert p S))

theorem Smallest.exists_insert (h : Smallest S B d ρ) (hp : ρ < sqDist d p) (he : Encloses (insert p S) B e σ) :
    ∃ c τ, Encloses (insert p S) (insert p B) c τ ∧ τ ≤ σ :=
  h.toEncloses.exists_insert he hp (h.least e σ (he.mono (subset_insert p S)))

theorem Smallest.insert_outside (h : Smallest S B d ρ) (hp : ρ < sqDist d p)
    (hnew : Smallest (insert p S) (insert p B) c τ) : Smallest (insert p S) B c τ where
  within := hnew.within
  through x hx := hnew.through x (mem_insert_of_mem p hx)
  least c' σ h' := by
    obtain ⟨c'', τ', hthrough, hle⟩ := h.exists_insert hp h'
    exact (hnew.least c'' τ' hthrough).trans hle

/-! ## The circles through two points -/

def bisector (p q : Point K) (t : K) : Point K :=
  ⟨(p.x + q.x) / 2 - t * (q.y - p.y), (p.y + q.y) / 2 + t * (q.x - p.x)⟩

def pencil (p q : Point K) (t : K) : K := sqDist p q * (1 / 4 + t * t)

def side (p q r : Point K) : K := (q - p).cross (r - p)

def excess (p q r : Point K) : K := sqDist (bisector p q 0) r - pencil p q 0

def Fits (p q r : Point K) (t : K) : Prop := excess p q r ≤ 2 * t * side p q r

def place (p q r : Point K) : K := excess p q r / (2 * side p q r)

theorem sqDist_bisector_left (p q : Point K) (t : K) : sqDist (bisector p q t) p = pencil p q t := by
  simp only [sqDist_eq, bisector, pencil]
  ring

theorem sqDist_bisector_right (p q : Point K) (t : K) : sqDist (bisector p q t) q = pencil p q t := by
  simp only [sqDist_eq, bisector, pencil]
  ring

theorem side_bisector (p q : Point K) (t : K) : side p q (bisector p q t) = t * sqDist p q := by
  simp only [side, Point.cross, Point.sub_x, Point.sub_y, sqDist_eq, bisector]
  ring

theorem sqDist_bisector (p q r : Point K) (t : K) :
    sqDist (bisector p q t) r = pencil p q t + excess p q r - 2 * t * side p q r := by
  simp only [excess, side, Point.cross, Point.sub_x, Point.sub_y, sqDist_eq, bisector, pencil]
  ring

theorem sqDist_bisector_le : sqDist (bisector p q t) r ≤ pencil p q t ↔ Fits p q r t := by
  rw [sqDist_bisector, Fits]
  constructor <;> intro h <;> linarith

theorem sqDist_middle (p q c : Point K) :
    4 * pencil p q 0 + 4 * sqDist c (bisector p q 0) = 2 * sqDist c p + 2 * sqDist c q := by
  simp only [sqDist_eq, bisector, pencil]
  ring

theorem eq_bisector (hne : p ≠ q) (h : sqDist c p = sqDist c q) : c = bisector p q (side p q c / sqDist p q) := by
  have hpq := (sqDist_pos hne).ne'
  have ht := div_mul_cancel₀ (side p q c) hpq
  generalize side p q c / sqDist p q = t at ht ⊢
  simp only [sqDist_eq, side, Point.cross, Point.sub_x, Point.sub_y] at h hpq ht
  ext
  · apply mul_left_cancel₀ hpq
    simp only [bisector]
    linear_combination (q.x - p.x) / 2 * h + (q.y - p.y) * ht
  · apply mul_left_cancel₀ hpq
    simp only [bisector]
    linear_combination (q.y - p.y) / 2 * h - (q.x - p.x) * ht

theorem encloses_bisector (hfits : ∀ r ∈ S, Fits p q r t) : Encloses S {p, q} (bisector p q t) (pencil p q t) where
  within r hr := sqDist_bisector_le.2 (hfits r hr)
  through x hx := by
    rcases hx with rfl | rfl
    · exact sqDist_bisector_left x q t
    · exact sqDist_bisector_right p x t

theorem Encloses.pencil (hne : p ≠ q) (h : Encloses S {p, q} c ρ) : ∃ t, ρ = pencil p q t ∧ ∀ r ∈ S, Fits p q r t := by
  have hp := h.through p (.inl rfl)
  have hq := h.through q (.inr rfl)
  have hc := eq_bisector hne (hp.trans hq.symm)
  refine ⟨side p q c / sqDist p q, ?_, fun r hr => ?_⟩
  · rw [← hp, ← sqDist_bisector_left, ← hc]
  · rw [← sqDist_bisector_le, ← hc, ← sqDist_bisector_left p q, ← hc, hp]
    exact h.within r hr

theorem pencil_le_iff (hne : p ≠ q) {t t' : K} : pencil p q t ≤ pencil p q t' ↔ |t| ≤ |t'| := by
  rw [pencil, pencil, mul_le_mul_iff_of_pos_left (sqDist_pos hne), add_le_add_iff_left, ← abs_le_iff_mul_self_le]

theorem smallest_bisector (hne : p ≠ q) (hfits : ∀ r ∈ S, Fits p q r t)
    (hleast : ∀ t', (∀ r ∈ S, Fits p q r t') → |t| ≤ |t'|) : Smallest S {p, q} (bisector p q t) (pencil p q t) where
  toEncloses := encloses_bisector hfits
  least c' ρ' h := by
    obtain ⟨t', rfl, hfits'⟩ := h.pencil hne
    exact (pencil_le_iff hne).2 (hleast t' hfits')

theorem smallest_middle (hne : p ≠ q) (hfits : ∀ r ∈ S, Fits p q r 0) :
    Smallest S {p, q} (bisector p q 0) (pencil p q 0) :=
  smallest_bisector hne hfits fun t' _ => by
    rw [abs_zero]
    exact abs_nonneg t'

theorem fits_left (h : 0 < side p q r) : Fits p q r t ↔ place p q r ≤ t := by
  rw [Fits, place, div_le_iff₀ (by positivity)]
  constructor <;> intro h <;> linarith

theorem fits_right (h : side p q r < 0) : Fits p q r t ↔ t ≤ place p q r := by
  rw [Fits, place, le_div_iff_of_neg (by linarith)]
  constructor <;> intro h <;> linarith

theorem Fits.collinear {t' : K} (h : side p q r = 0) (hfits : Fits p q r t) : Fits p q r t' := by
  rw [Fits, h, mul_zero] at hfits ⊢
  exact hfits

def RightBound (S : Set (Point K)) (p q b : Point K) : Prop :=
  b ∈ S ∧ side p q b < 0 ∧ ∀ r ∈ S, side p q r < 0 → place p q b ≤ place p q r

def LeftBound (S : Set (Point K)) (p q a : Point K) : Prop :=
  a ∈ S ∧ 0 < side p q a ∧ ∀ r ∈ S, 0 < side p q r → place p q r ≤ place p q a

theorem exists_bound (hnot : ∃ r ∈ S, ¬ Fits p q r 0) (henc : ∀ r ∈ S, Fits p q r t) :
    (∃ r ∈ S, 0 < side p q r ∧ 0 < place p q r) ∨ ∃ r ∈ S, side p q r < 0 ∧ place p q r < 0 := by
  obtain ⟨r, hr, hmiss⟩ := hnot
  rcases lt_trichotomy (side p q r) 0 with h | h | h
  · exact .inr ⟨r, hr, h, not_le.1 fun hle => hmiss ((fits_right h).2 hle)⟩
  · exact absurd ((henc r hr).collinear h) hmiss
  · exact .inl ⟨r, hr, h, not_le.1 fun hle => hmiss ((fits_left h).2 hle)⟩

variable {a : Point K}

theorem LeftBound.fits (ha : LeftBound S p q a) (henc : ∀ r ∈ S, Fits p q r t) : ∀ r ∈ S, Fits p q r (place p q a) := by
  intro r hr
  rcases lt_trichotomy (side p q r) 0 with h | h | h
  · have hle := (fits_left ha.2.1).1 (henc a ha.1)
    exact (fits_right h).2 (hle.trans ((fits_right h).1 (henc r hr)))
  · exact (henc r hr).collinear h
  · exact (fits_left h).2 (ha.2.2 r hr h)

theorem smallest_left (hne : p ≠ q) (henc : Encloses S {p, q} c ρ) (hnot : ∃ r ∈ S, ¬ Fits p q r 0)
    (ha : LeftBound S p q a)
    (hother : (∀ r ∈ S, ¬ side p q r < 0) ∨ ∃ b, RightBound S p q b ∧ |place p q a| ≤ |place p q b|) :
    Smallest S {p, q} (bisector p q (place p q a)) (pencil p q (place p q a)) := by
  obtain ⟨t, -, hfits⟩ := henc.pencil hne
  refine smallest_bisector hne (ha.fits hfits) fun t' hfits' => ?_
  have hle := (fits_left ha.2.1).1 (hfits' a ha.1)
  rcases le_or_gt 0 (place p q a) with h0 | h0
  · exact abs_le_abs_of_nonneg h0 hle
  · -- no point on the left asks for a centre beyond the middle, so one on the right does
    rcases exists_bound hnot hfits with ⟨r, hr, hside, hpos⟩ | ⟨r, hr, hside, hneg⟩
    · exact absurd (hpos.trans_le (ha.2.2 r hr hside)) h0.not_gt
    · obtain hnone | ⟨b, ⟨hb, hbside, hbleast⟩, hab⟩ := hother
      · exact absurd hside (hnone r hr)
      · have hb0 := (hbleast r hr hside).trans_lt hneg
        exact hab.trans (abs_le_abs_of_nonpos hb0.le ((fits_right hbside).1 (hfits' b hb)))

/-! ## The two points exchanged -/

theorem bisector_swap (p q : Point K) (t : K) : bisector q p (-t) = bisector p q t := by
  ext <;> simp only [bisector] <;> ring

theorem pencil_swap (p q : Point K) (t : K) : pencil q p (-t) = pencil p q t := by
  rw [pencil, pencil, sqDist_comm, neg_mul_neg]

theorem side_swap (p q r : Point K) : side q p r = -side p q r := by
  simp only [side, Point.cross, Point.sub_x, Point.sub_y]
  ring

theorem place_swap (p q r : Point K) : place q p r = -place p q r := by
  have hexcess : excess q p r = excess p q r := by
    rw [excess, excess, ← bisector_swap p q, ← pencil_swap p q, neg_zero]
  rw [place, place, hexcess, side_swap, mul_neg, div_neg]

theorem RightBound.swap {b : Point K} (h : RightBound S p q b) : LeftBound S q p b := by
  refine ⟨h.1, ?_, fun r hr hside => ?_⟩
  · rw [side_swap]
    exact neg_pos.2 h.2.1
  · rw [side_swap, neg_pos] at hside
    rw [place_swap p q, place_swap p q, neg_le_neg_iff]
    exact h.2.2 r hr hside

theorem LeftBound.swap (h : LeftBound S p q a) : RightBound S q p a := by
  refine ⟨h.1, ?_, fun r hr hside => ?_⟩
  · rw [side_swap]
    exact neg_lt_zero.2 h.2.1
  · rw [side_swap, neg_lt_zero] at hside
    rw [place_swap p q, place_swap p q, neg_le_neg_iff]
    exact h.2.2 r hr hside

theorem fits_swap : Fits q p r (-t) ↔ Fits p q r t := by
  rw [← sqDist_bisector_le, ← sqDist_bisector_le, bisector_swap, pencil_swap]

theorem smallest_right {b : Point K} (hne : p ≠ q) (henc : Encloses S {p, q} c ρ) (hnot : ∃ r ∈ S, ¬ Fits p q r 0)
    (hb : RightBound S p q b)
    (hother : (∀ r ∈ S, ¬ 0 < side p q r) ∨ ∃ a, LeftBound S p q a ∧ |place p q b| ≤ |place p q a|) :
    Smallest S {p, q} (bisector p q (place p q b)) (pencil p q (place p q b)) := by
  rw [← bisector_swap, ← pencil_swap, ← place_swap, pair_comm]
  refine smallest_left hne.symm (pair_comm p q ▸ henc) ?_ hb.swap ?_
  · obtain ⟨r, hr, hmiss⟩ := hnot
    refine ⟨r, hr, fun h => hmiss ?_⟩
    rwa [← fits_swap, neg_zero]
  · rcases hother with hnone | ⟨a, ha, hle⟩
    · refine .inl fun r hr hside => hnone r hr ?_
      rwa [side_swap, neg_lt_zero] at hside
    · refine .inr ⟨a, ha.swap, ?_⟩
      rwa [place_swap p q, place_swap p q, abs_neg, abs_neg]

end Circuit.Framework.Plane
