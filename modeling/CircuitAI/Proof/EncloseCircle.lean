import CircuitAI.Spec.SmallestCircle

/-!
# The circle made is the smallest one

* `contains_iff`, `makeDiameter_good`, `makeCircumcircle_of_side`: the circles of the code are circles of the plane;
* `SideIs.replace`, `SideIs.keep`, `formCircumcircle_side`: the loop keeps the tightest circle of either side;
* `makeCircleTwoPoints_good`, `onePointLoop_good`, `circleLoop_good`: the three loops, each with one boundary point less;
* `makeCircle_smallest`: for any order of the points.
-/

set_option linter.unusedSectionVars false

namespace Circuit.Spec.SmallestCircle

open Circuit.Framework List
open Plane
open Impl.EncloseCircle
open Impl.MetalData (AIFloat3)

variable {K : Type*} [Field K] [LinearOrder K] [IsStrictOrderedRing K] {sqrt : K → K} {pts : List (SPoint K)}
  {p q r c : SPoint K} {ρ : K} {B : Set (SPoint K)} {s : SCircle K} {o : Option (SCircle K)}

theorem mem_concat (pts : List (SPoint K)) (q : SPoint K) : {x | x ∈ pts ++ [q]} = insert q {x | x ∈ pts} := by
  ext x
  simp [or_comm]

theorem distance_eq (p q : SPoint K) : distance sqrt p q = sqrt (sqDist p q) := rfl

theorem contains_iff (hsqrt : IsSqrt sqrt) (hr : 0 ≤ s.r) (p : SPoint K) :
    s.contains sqrt 0 p = true ↔ sqDist s.c p ≤ s.r * s.r := by
  rw [SCircle.contains, decide_eq_true_iff, add_zero, distance_eq,
    mul_self_le_mul_self_iff (hsqrt.nonneg _ (sqDist_nonneg _ _)) hr, hsqrt.mul_self _ (sqDist_nonneg _ _)]

theorem contains_eq_false (hsqrt : IsSqrt sqrt) (hr : 0 ≤ s.r) (h : ¬ s.contains sqrt 0 p = true) :
    s.r * s.r < sqDist s.c p := by
  rwa [contains_iff hsqrt hr, not_le] at h

theorem makeDiameter_c (p q : SPoint K) : (makeDiameter sqrt p q).c = bisector p q 0 := by
  simp only [makeDiameter, bisector, zero_mul, sub_zero, add_zero]

theorem makeDiameter_nonneg (hsqrt : IsSqrt sqrt) (p q : SPoint K) : 0 ≤ (makeDiameter sqrt p q).r :=
  div_nonneg (hsqrt.nonneg _ (sqDist_nonneg p q)) zero_le_two

theorem makeDiameter_r (hsqrt : IsSqrt sqrt) (p q : SPoint K) :
    (makeDiameter sqrt p q).r * (makeDiameter sqrt p q).r = pencil p q 0 := by
  have h := hsqrt.mul_self _ (sqDist_nonneg p q)
  simp only [makeDiameter, distance_eq, pencil]
  linear_combination h / 4

theorem makeDiameter_good (hsqrt : IsSqrt sqrt) (hne : p ≠ q)
    (hall : ∀ x ∈ pts, (makeDiameter sqrt p q).contains sqrt 0 x = true) : Good pts {p, q} (makeDiameter sqrt p q) := by
  refine ⟨makeDiameter_nonneg hsqrt p q, ?_⟩
  rw [makeDiameter_c, makeDiameter_r hsqrt]
  refine smallest_middle hne fun x hx => ?_
  have h := (contains_iff hsqrt (makeDiameter_nonneg hsqrt p q) x).1 (hall x hx)
  rwa [makeDiameter_c, makeDiameter_r hsqrt, sqDist_bisector_le] at h

/-! ## Circumcircles -/

def circleAt (sqrt : K → K) (p q : SPoint K) (t : K) : SCircle K := ⟨bisector p q t, sqrt (pencil p q t)⟩

theorem circleAt_swap (sqrt : K → K) (p q r : SPoint K) :
    circleAt sqrt q p (place q p r) = circleAt sqrt p q (place p q r) := by
  rw [circleAt, circleAt, place_swap, bisector_swap, pencil_swap]

theorem makeCircumcircle_of_collinear (h : side p q r = 0) : makeCircumcircle sqrt p q r = none := by
  rw [makeCircumcircle]
  refine if_pos ?_
  simp only [side, Point.cross, Point.sub_x, Point.sub_y] at h
  linear_combination 2 * h

theorem makeCircumcircle_of_side (h : side p q r ≠ 0) :
    makeCircumcircle sqrt p q r = some (circleAt sqrt p q (place p q r)) := by
  have hd : (p.x * (q.y - r.y) + q.x * (r.y - p.y) + r.x * (p.y - q.y)) * 2 = 2 * side p q r := by
    simp only [side, Point.cross, Point.sub_x, Point.sub_y]
    ring
  have hd0 : 2 * side p q r ≠ 0 := mul_ne_zero two_ne_zero h
  have hc : (⟨(p.norm * (q.y - r.y) + q.norm * (r.y - p.y) + r.norm * (p.y - q.y)) / (2 * side p q r),
      (p.norm * (r.x - q.x) + q.norm * (p.x - r.x) + r.norm * (q.x - p.x)) / (2 * side p q r)⟩ : SPoint K) =
      bisector p q (place p q r) := by
    have hplace : place p q r * (2 * side p q r) = excess p q r := div_mul_cancel₀ _ hd0
    simp only [excess, side, Point.cross, Point.sub_x, Point.sub_y, sqDist_eq, bisector, pencil] at hplace
    ext
    · rw [div_eq_iff hd0]
      simp only [bisector, Point.norm, side, Point.cross, Point.sub_x, Point.sub_y]
      linear_combination (q.y - p.y) * hplace
    · rw [div_eq_iff hd0]
      simp only [bisector, Point.norm, side, Point.cross, Point.sub_x, Point.sub_y]
      linear_combination -(q.x - p.x) * hplace
  simp only [makeCircumcircle, hd, if_neg hd0, hc, distance_eq, sqDist_bisector_left]
  rfl

def SideIs (sqrt : K → K) (pts : List (SPoint K)) (p q : SPoint K) (o : Option (SCircle K)) : Prop :=
  (o = none ∧ ∀ r ∈ pts, ¬ 0 < side p q r) ∨
    ∃ a, LeftBound {x | x ∈ pts} p q a ∧ o = some (circleAt sqrt p q (place p q a))

theorem SideIs.skip (h : SideIs sqrt pts p q o) (hr : ¬ 0 < side p q r) : SideIs sqrt (pts ++ [r]) p q o := by
  rcases h with ⟨ho, hnone⟩ | ⟨a, ⟨ha, haside, hmax⟩, ho⟩
  · refine .inl ⟨ho, fun x hx => ?_⟩
    rcases mem_append.1 hx with hx | hx
    · exact hnone x hx
    · rwa [mem_singleton.1 hx]
  · refine .inr ⟨a, ⟨mem_append_left _ ha, haside, fun x hx hside => ?_⟩, ho⟩
    rcases mem_append.1 hx with hx | hx
    · exact hmax x hx hside
    · rw [mem_singleton.1 hx] at hside
      exact absurd hside hr

def Beyond (p q : SPoint K) (s t : SCircle K) : Bool := side p q t.c < side p q s.c

theorem beyond_circleAt (hne : p ≠ q) {t t' : K} :
    Beyond p q (circleAt sqrt p q t) (circleAt sqrt p q t') = true ↔ t' < t := by
  simp only [Beyond, circleAt, side_bisector, decide_eq_true_eq]
  exact mul_lt_mul_iff_of_pos_right (sqDist_pos hne)

theorem beyond_swap (p q : SPoint K) (s t : SCircle K) : Beyond q p s t = Beyond p q t s := by
  rw [Beyond, Beyond, side_swap p q, side_swap p q, decide_eq_decide, neg_lt_neg_iff]

theorem SideIs.replace (hne : p ≠ q) (h : SideIs sqrt pts p q o) (hr : 0 < side p q r)
    (hall : o.all (Beyond p q (circleAt sqrt p q (place p q r))) = true) :
    SideIs sqrt (pts ++ [r]) p q (some (circleAt sqrt p q (place p q r))) := by
  refine .inr ⟨r, ⟨mem_append_right _ (mem_singleton.2 rfl), hr, fun x hx hside => ?_⟩, rfl⟩
  rcases mem_append.1 hx with hx | hx
  · rcases h with ⟨rfl, hnone⟩ | ⟨a, ⟨ha, haside, hmax⟩, rfl⟩
    · exact absurd hside (hnone x hx)
    · rw [Option.all_some, beyond_circleAt hne] at hall
      exact (hmax x hx hside).trans hall.le
  · rw [mem_singleton.1 hx]

theorem SideIs.keep (hne : p ≠ q) (h : SideIs sqrt pts p q o)
    (hall : ¬ o.all (Beyond p q (circleAt sqrt p q (place p q r))) = true) : SideIs sqrt (pts ++ [r]) p q o := by
  rcases h with ⟨rfl, hnone⟩ | ⟨a, ⟨ha, haside, hmax⟩, rfl⟩
  · exact absurd rfl hall
  · rw [Option.all_some, beyond_circleAt hne, not_lt] at hall
    refine .inr ⟨a, ⟨mem_append_left _ ha, haside, fun x hx hside => ?_⟩, rfl⟩
    rcases mem_append.1 hx with hx | hx
    · exact hmax x hx hside
    · rwa [mem_singleton.1 hx]

theorem formCircumcircle_side (hne : p ≠ q) {s : Sides K} (hleft : SideIs sqrt pts p q s.left)
    (hright : SideIs sqrt pts q p s.right) (r : SPoint K) :
    SideIs sqrt (pts ++ [r]) p q (formCircumcircle sqrt p q s r).left ∧
      SideIs sqrt (pts ++ [r]) q p (formCircumcircle sqrt p q s r).right := by
  have hcross : (q - p).cross (r - p) = side p q r := rfl
  have hback : 0 < side q p r ↔ side p q r < 0 := by rw [side_swap p q, neg_pos]
  rcases lt_trichotomy (side p q r) 0 with h | h | h
  · have hleft' := hleft.skip (r := r) h.not_gt
    have hkey : (fun t : SCircle K => decide ((q - p).cross ((circleAt sqrt p q (place p q r)).c - p) <
        (q - p).cross (t.c - p))) = Beyond q p (circleAt sqrt q p (place q p r)) := by
      funext t
      rw [beyond_swap, circleAt_swap]
      rfl
    simp only [formCircumcircle, makeCircumcircle_of_side h.ne, hcross, h.not_gt, false_and, if_false, h, true_and, hkey]
    split
    · rename_i hall
      rw [← circleAt_swap]
      exact ⟨hleft', hright.replace hne.symm (hback.2 h) hall⟩
    · rename_i hall
      exact ⟨hleft', hright.keep hne.symm hall⟩
  · simp only [formCircumcircle, makeCircumcircle_of_collinear h]
    exact ⟨hleft.skip h.le.not_gt, hright.skip (mt hback.1 h.ge.not_gt)⟩
  · have hright' := hright.skip (mt hback.1 h.not_gt)
    have hkey : (fun t : SCircle K => decide ((q - p).cross (t.c - p) <
        (q - p).cross ((circleAt sqrt p q (place p q r)).c - p))) = Beyond p q (circleAt sqrt p q (place p q r)) := rfl
    simp only [formCircumcircle, makeCircumcircle_of_side h.ne', hcross, h, true_and, h.not_gt, false_and, if_false, hkey]
    split
    · rename_i hall
      exact ⟨hleft.replace hne h hall, hright'⟩
    · rename_i hall
      exact ⟨hleft.keep hne hall, hright'⟩

variable (sqrt) in
theorem foldl_formCircumcircle (hne : p ≠ q) (pts : List (SPoint K)) :
    SideIs sqrt pts p q (pts.foldl (formCircumcircle sqrt p q) ⟨none, none⟩).left ∧
      SideIs sqrt pts q p (pts.foldl (formCircumcircle sqrt p q) ⟨none, none⟩).right := by
  induction pts using reverseRecOn with
  | nil =>
    have hempty : ∀ p q : SPoint K, SideIs sqrt [] p q none := fun p q =>
      .inl ⟨rfl, fun r hr => absurd hr not_mem_nil⟩
    exact ⟨hempty p q, hempty q p⟩
  | append_singleton pts r ih =>
    rw [foldl_append]
    exact formCircumcircle_side hne ih.1 ih.2 r

/-! ## Two boundary points -/

section

variable (hsqrt : IsSqrt sqrt)
include hsqrt

theorem circleAt_good {t : K}
    (h : Smallest {x | x ∈ pts} {p, q} (bisector p q t) (pencil p q t)) : Good pts {p, q} (circleAt sqrt p q t) := by
  have hpos : 0 ≤ pencil p q t := by
    rw [← sqDist_bisector_left]
    exact sqDist_nonneg _ _
  refine ⟨hsqrt.nonneg _ hpos, ?_⟩
  simp only [circleAt, hsqrt.mul_self _ hpos]
  exact h

theorem circleAt_le_iff (hne : p ≠ q) {t t' : K} : (circleAt sqrt p q t).r ≤ (circleAt sqrt p q t').r ↔ |t| ≤ |t'| := by
  have hpos : ∀ t, 0 ≤ pencil p q t := fun t => by
    rw [← sqDist_bisector_left]
    exact sqDist_nonneg _ _
  simp only [circleAt]
  rw [mul_self_le_mul_self_iff (hsqrt.nonneg _ (hpos t)) (hsqrt.nonneg _ (hpos t')), hsqrt.mul_self _ (hpos t),
    hsqrt.mul_self _ (hpos t'), pencil_le_iff hne]

theorem exists_not_fits (hall : ¬ (makeDiameter sqrt p q).containsAll sqrt 0 pts = true) :
    ∃ r ∈ {x | x ∈ pts}, ¬ Fits p q r 0 := by
  by_contra hfits
  push Not at hfits
  refine hall (all_eq_true.2 fun x hx => ?_)
  rw [contains_iff hsqrt (makeDiameter_nonneg hsqrt p q), makeDiameter_c, makeDiameter_r hsqrt, sqDist_bisector_le]
  exact hfits x hx

theorem choose_good (hne : p ≠ q) (henc : Encloses {x | x ∈ pts} {p, q} c ρ)
    (hnot : ∃ r ∈ {x | x ∈ pts}, ¬ Fits p q r 0) {s : Sides K} (hleft : SideIs sqrt pts p q s.left)
    (hright : SideIs sqrt pts q p s.right) : Good pts {p, q} s.choose := by
  obtain ⟨left, right⟩ := s
  have hback : (∀ r ∈ pts, ¬ 0 < side q p r) → ∀ r ∈ {x | x ∈ pts}, ¬ side p q r < 0 := by
    intro hnone r hr hside
    refine hnone r hr ?_
    rwa [side_swap p q, neg_pos]
  rcases hleft with ⟨hl, hnoleft⟩ | ⟨a, ha, hl⟩ <;> rcases hright with ⟨hr, hnoright⟩ | ⟨b, hb, hr⟩ <;>
    simp only at hl hr <;> subst hl <;> subst hr
  · -- a point outside the middle circle is on one of the sides
    obtain ⟨t, -, hfits⟩ := henc.pencil hne
    rcases exists_bound hnot hfits with ⟨r, hr, hside, -⟩ | ⟨r, hr, hside, -⟩
    · exact absurd hside (hnoleft r hr)
    · exact absurd hside (hback hnoright r hr)
  · rw [Sides.choose, circleAt_swap]
    exact circleAt_good hsqrt (smallest_right hne henc hnot hb.swap (.inl hnoleft))
  · exact circleAt_good hsqrt (smallest_left hne henc hnot ha (.inl (hback hnoright)))
  · rw [Sides.choose, circleAt_swap sqrt p q b]
    split
    · rename_i hle
      rw [circleAt_le_iff hsqrt hne] at hle
      exact circleAt_good hsqrt (smallest_left hne henc hnot ha (.inr ⟨b, hb.swap, hle⟩))
    · rename_i hle
      rw [circleAt_le_iff hsqrt hne, not_le] at hle
      exact circleAt_good hsqrt (smallest_right hne henc hnot hb.swap (.inr ⟨a, ha, hle.le⟩))

theorem makeCircleTwoPoints_good (hne : p ≠ q) (henc : Encloses {x | x ∈ pts} {p, q} c ρ) :
    Good pts {p, q} (makeCircleTwoPoints sqrt 0 pts p q) := by
  rw [makeCircleTwoPoints]
  split
  · rename_i hall
    exact makeDiameter_good hsqrt hne (all_eq_true.1 hall)
  · rename_i hall
    have hsides := foldl_formCircumcircle sqrt hne pts
    exact choose_good hsqrt hne henc (exists_not_fits hsqrt hall) hsides.1 hsides.2

/-! ## One boundary point -/

theorem Good.inside (h : Good pts B s) (hq : s.contains sqrt 0 q = true) : Good (pts ++ [q]) B s := by
  refine ⟨h.nonneg, ?_⟩
  rw [mem_concat]
  exact h.smallest.insert_inside ((contains_iff hsqrt h.nonneg q).1 hq)

end

theorem Good.outside {s' : SCircle K} (h : Good pts B s) (hq : s.r * s.r < sqDist s.c q)
    (h' : Good (pts ++ [q]) (insert q B) s') : Good (pts ++ [q]) B s' := by
  refine ⟨h'.nonneg, ?_⟩
  have hsmallest := h'.smallest
  rw [mem_concat] at hsmallest ⊢
  exact h.smallest.insert_outside hq hsmallest

theorem Good.eq_of_zero (h : Good pts {p} s) (hr : s.r = 0) : ∀ x ∈ pts, x = p := by
  intro x hx
  have hwithin := h.smallest.within x hx
  have hthrough := h.smallest.through p rfl
  rw [hr, mul_zero] at hwithin hthrough
  rw [← sqDist_eq_zero.1 hthrough]
  exact (sqDist_eq_zero.1 (le_antisymm hwithin (sqDist_nonneg s.c x))).symm

theorem makeDiameter_contains (hsqrt : IsSqrt sqrt) (p q : SPoint K) {x : SPoint K} (hx : x = p ∨ x = q) :
    (makeDiameter sqrt p q).contains sqrt 0 x = true := by
  rw [contains_iff hsqrt (makeDiameter_nonneg hsqrt p q), makeDiameter_c, makeDiameter_r hsqrt]
  rcases hx with rfl | rfl
  · exact (sqDist_bisector_left x q 0).le
  · exact (sqDist_bisector_right p x 0).le

theorem onePointLoop_good (hsqrt : IsSqrt sqrt) (before : List (SPoint K)) (h : Good before {p} s)
    (henc : Encloses {x | x ∈ before ++ pts} {p} c ρ) :
    Good (before ++ pts) {p} (onePointLoop sqrt 0 p before s pts) := by
  induction pts generalizing before s with
  | nil => rwa [append_nil, onePointLoop]
  | cons q pts ih =>
    rw [append_cons] at henc ⊢
    rw [onePointLoop]
    refine ih (before ++ [q]) ?_ henc
    split
    · rename_i hq
      exact h.inside hsqrt hq
    · rename_i hq
      have hout := contains_eq_false hsqrt h.nonneg hq
      have hne : p ≠ q := by
        rintro rfl
        exact hout.ne (h.smallest.through p rfl).symm
      refine h.outside hout ?_
      rw [Set.pair_comm]
      split
      · rename_i hr
        refine makeDiameter_good hsqrt hne fun x hx => makeDiameter_contains hsqrt p q ?_
        rcases mem_append.1 hx with hx | hx
        · exact .inl (h.eq_of_zero hr x hx)
        · exact .inr (mem_singleton.1 hx)
      · -- some circle through both points contains the others: one between the last circle and a known one
        have hmono : insert q {x | x ∈ before} ⊆ {x | x ∈ before ++ [q] ++ pts} := by
          rw [← mem_concat]
          exact fun x hx => mem_append_left pts hx
        obtain ⟨c', ρ', henc', -⟩ := h.smallest.exists_insert hout (henc.mono hmono)
        rw [← mem_concat, Set.pair_comm] at henc'
        exact makeCircleTwoPoints_good hsqrt hne henc'

theorem makeCircleOnePoint_good (hsqrt : IsSqrt sqrt) (henc : Encloses {x | x ∈ pts} {p} c ρ) :
    Good pts {p} (makeCircleOnePoint sqrt 0 pts p) := by
  refine onePointLoop_good hsqrt [] ⟨le_rfl, ?_⟩ henc
  have hempty : {x : SPoint K | x ∈ []} = ∅ := by
    ext x
    simp
  rw [hempty, mul_zero]
  exact smallest_point p

/-! ## No boundary point -/

theorem circleLoop_good (hsqrt : IsSqrt sqrt) (before : List (SPoint K)) (h : Good before ∅ s) :
    Good (before ++ pts) ∅ (circleLoop sqrt 0 before s pts) := by
  induction pts generalizing before s with
  | nil => rwa [append_nil, circleLoop]
  | cons p pts ih =>
    rw [append_cons, circleLoop]
    refine ih (before ++ [p]) ?_
    split
    · rename_i hp
      exact h.inside hsqrt hp
    · rename_i hp
      have hout := contains_eq_false hsqrt h.nonneg hp
      obtain ⟨σ, hsome⟩ := exists_encloses (before ++ [p]) p
      rw [mem_concat] at hsome
      obtain ⟨c, ρ, henc, -⟩ := h.smallest.exists_insert hout hsome
      rw [← mem_concat, insert_empty_eq] at henc
      refine h.outside hout ?_
      rw [insert_empty_eq]
      exact makeCircleOnePoint_good hsqrt henc

theorem point_good (p : SPoint K) : Good [p] ∅ ⟨p, 0⟩ where
  nonneg := le_rfl
  smallest :=
    { within := fun x hx => by rw [mem_singleton.1 hx, sqDist_self, mul_zero]
      through := fun x hx => hx.elim
      least := fun c' ρ' h => by
        rw [mul_zero]
        exact (sqDist_nonneg c' p).trans (h.within p (mem_singleton.2 rfl)) }

theorem pair_good (hsqrt : IsSqrt sqrt) (p q : SPoint K) : Good [p, q] ∅ (makeDiameter sqrt p q) where
  nonneg := makeDiameter_nonneg hsqrt p q
  smallest :=
    { within := fun x hx => by
        have hx : x = p ∨ x = q := by simpa using hx
        exact (contains_iff hsqrt (makeDiameter_nonneg hsqrt p q) x).1 (makeDiameter_contains hsqrt p q hx)
      through := fun x hx => hx.elim
      least := fun c' ρ' h => by
        rw [makeDiameter_r hsqrt]
        have hp := h.within p mem_cons_self
        have hq := h.within q (mem_cons_of_mem p mem_cons_self)
        have hmiddle := sqDist_middle p q c'
        have hpos := sqDist_nonneg c' (bisector p q 0)
        linarith }

theorem makeCircleOnePoint_self (hsqrt : IsSqrt sqrt) (p : SPoint K) : makeCircleOnePoint sqrt 0 [p] p = ⟨p, 0⟩ := by
  have hself : (⟨p, 0⟩ : SCircle K).contains sqrt 0 p = true := by
    rw [contains_iff hsqrt le_rfl, sqDist_self, mul_zero]
  simp only [makeCircleOnePoint, onePointLoop, hself, if_true]

theorem Good.perm {pts' : List (SPoint K)} (h : Good pts B s) (hperm : pts.Perm pts') : Good pts' B s := by
  have hset : {x | x ∈ pts} = {x | x ∈ pts'} := by
    ext x
    exact hperm.mem_iff
  exact ⟨h.nonneg, hset ▸ h.smallest⟩

theorem circleOf_good (hsqrt : IsSqrt sqrt) {shuffle : List (SPoint K) → List (SPoint K)} (hne : pts ≠ [])
    (hshuffle : (shuffle pts).Perm pts) : Good pts ∅ (circleOf sqrt 0 shuffle pts) := by
  rw [circleOf.eq_def]
  split
  · exact absurd rfl hne
  · exact point_good _
  · exact pair_good hsqrt _ _
  · split
    · rename_i hnil
      rw [hnil] at hshuffle
      exact absurd hshuffle.nil_eq.symm hne
    · rename_i first rest hcons
      rw [hcons] at hshuffle
      rw [makeCircleOnePoint_self hsqrt]
      exact (circleLoop_good hsqrt [first] (point_good first)).perm hshuffle

/-! ## Real numbers -/

theorem isSqrt_real : IsSqrt Real.sqrt := ⟨fun x _ => Real.sqrt_nonneg x, fun _ hx => Real.mul_self_sqrt hx⟩

theorem covers_iff (points : List (AIFloat3 ℝ)) (x z : ℝ) {r : ℝ} (hr : 0 ≤ r) :
    Covers points x z r ↔ Encloses {p | p ∈ points.map point} ∅ ⟨x, z⟩ (r * r) := by
  have hle : ∀ p : AIFloat3 ℝ, Real.sqrt ((x - p.x) ^ 2 + (z - p.z) ^ 2) ≤ r ↔ sqDist ⟨x, z⟩ (point p) ≤ r * r := by
    intro p
    rw [Real.sqrt_le_left hr, sqDist_eq, pow_two, pow_two, pow_two]
    rfl
  constructor
  · intro h
    refine ⟨fun p hp => ?_, fun p hp => hp.elim⟩
    obtain ⟨pos, hpos, rfl⟩ := mem_map.1 hp
    exact (hle pos).1 (h pos hpos)
  · exact fun h pos hpos => (hle pos).2 (h.within (point pos) (mem_map_of_mem hpos))

/-- `MakeCircle` gives the smallest circle around the points, whatever order they are shuffled into. -/
theorem makeCircle_smallest (points : List (AIFloat3 ℝ)) (hne : points ≠ [])
    (shuffle : List (SPoint ℝ) → List (SPoint ℝ)) (hshuffle : ∀ pts, (shuffle pts).Perm pts) :
    IsSmallest points (makeCircle Real.sqrt 0 shuffle points) := by
  have hmap : points.map point ≠ [] := fun h => hne (map_eq_nil_iff.1 h)
  have hgood := circleOf_good isSqrt_real hmap (hshuffle (points.map point))
  refine ⟨(covers_iff points _ _ hgood.nonneg).2 hgood.smallest.toEncloses, fun x z r hcovers => ?_⟩
  -- a circle that contains a point has a radius
  have hr : 0 ≤ r := by
    obtain ⟨pos, hpos⟩ := exists_mem_of_ne_nil points hne
    exact (Real.sqrt_nonneg _).trans (hcovers pos hpos)
  have hle := hgood.smallest.least _ _ ((covers_iff points x z hr).1 hcovers)
  exact (mul_self_le_mul_self_iff hgood.nonneg hr).2 hle

/-- Three points on a line and one of them twice. -/
theorem makeCircle_smallest_line : IsSmallest [⟨0, 0, 0⟩, ⟨2, 5, 0⟩, ⟨1, 0, 0⟩, ⟨2, 0, 0⟩]
      (makeCircle Real.sqrt 0 reverse [⟨0, 0, 0⟩, ⟨2, 5, 0⟩, ⟨1, 0, 0⟩, ⟨2, 0, 0⟩]) :=
  makeCircle_smallest _ (cons_ne_nil _ _) reverse reverse_perm

theorem Good.unique {s' : SCircle K} (h : Good pts B s) (h' : Good pts B s') : s = s' := by
  obtain ⟨c, r⟩ := s
  obtain ⟨c', r'⟩ := s'
  obtain ⟨rfl, hsq⟩ := h.smallest.unique h'.smallest
  have hr : r = r' := (mul_self_inj h.nonneg h'.nonneg).1 hsq
  rw [hr]

/-- The circle depends on nothing but which points there are: not on their order, repetitions or heights, nor on the
shuffle. -/
theorem makeCircle_eq (points points' : List (AIFloat3 ℝ)) (hne : points ≠ [])
    (hsame : {p | p ∈ points.map point} = {p | p ∈ points'.map point})
    (shuffle shuffle' : List (SPoint ℝ) → List (SPoint ℝ)) (hshuffle : ∀ pts, (shuffle pts).Perm pts)
    (hshuffle' : ∀ pts, (shuffle' pts).Perm pts) :
    makeCircle Real.sqrt 0 shuffle points = makeCircle Real.sqrt 0 shuffle' points' := by
  have hmap : points.map point ≠ [] := fun h => hne (map_eq_nil_iff.1 h)
  have hmap' : points'.map point ≠ [] := by
    intro h
    rw [h] at hsame
    exact hmap (eq_nil_iff_forall_not_mem.2 fun p hp => not_mem_nil (hsame.subset hp))
  have hgood := circleOf_good isSqrt_real hmap (hshuffle _)
  have hgood' := circleOf_good isSqrt_real hmap' (hshuffle' _)
  have heq := hgood.unique ⟨hgood'.nonneg, hsame ▸ hgood'.smallest⟩
  simp only [makeCircle, heq]

theorem makeCircle_eq_reverse : makeCircle Real.sqrt 0 id [⟨0, 0, 0⟩, ⟨2, 5, 0⟩, ⟨1, 0, 0⟩] =
    makeCircle Real.sqrt 0 reverse [⟨1, 0, 0⟩, ⟨2, 0, 0⟩, ⟨0, 3, 0⟩] :=
  makeCircle_eq _ _ (cons_ne_nil _ _) (by ext; simp [point]; tauto) id reverse (fun _ => .refl _) reverse_perm

end Circuit.Spec.SmallestCircle
