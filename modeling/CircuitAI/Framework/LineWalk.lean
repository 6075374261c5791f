import Mathlib.Algebra.Order.Ring.Abs
import Mathlib.Tactic.Linarith
import Mathlib.Tactic.Ring

/-!
# Walks along a line on a grid

The walk from one cell to another with an error value that says on which side of the line it is. A turn moves by one in
one or both directions (`Line.step`), and the walk stops at the end in that direction. With `a` columns and `b` rows from
end to end, after `i` and `j` moves the error is `a * (1 + j) - b * (1 + i)` (`On`). If `b ≤ a` it never falls below
`-b / 2`, so that every turn moves along the columns, and otherwise it never rises above `a / 2`, and every turn moves
along the rows (`On.step`). So the walk ends after `max a b` turns, at the end of the line (`Line.walked`).
-/

namespace Circuit.Framework

open List

structure Line where
  x0 : ℤ
  y0 : ℤ
  x1 : ℤ
  y1 : ℤ

/-- Where a walk is, and its error value. -/
@[ext]
structure Place where
  x : ℤ
  y : ℤ
  err : ℤ

structure Walk where
  visited : List (ℤ × ℤ)
  clear : Bool
  deriving DecidableEq, Repr

namespace Line

variable (l : Line)

def dx : ℤ := |l.x1 - l.x0|

def dy : ℤ := -|l.y1 - l.y0|

def sx : ℤ := if l.x0 < l.x1 then 1 else -1

def sy : ℤ := if l.y0 < l.y1 then 1 else -1

def start : Place := ⟨l.x0, l.y0, l.dx + l.dy⟩

def step (p : Place) : Option Place :=
  let e2 := 2 * p.err
  if e2 ≥ l.dy ∧ p.x = l.x1 then none
  else
    let q : Place := if e2 ≥ l.dy then { p with err := p.err + l.dy, x := p.x + l.sx } else p
    if e2 ≤ l.dx then
      if q.y = l.y1 then none else some { q with err := q.err + l.dx, y := q.y + l.sy }
    else some q

def walkFrom (accepts : ℤ × ℤ → Bool) : ℕ → Place → Option Walk
  | 0, _ => none
  | fuel + 1, p =>
    match l.step p with
    | none => some ⟨[], true⟩
    | some q =>
      if accepts (q.x, q.y) then (walkFrom accepts fuel q).map fun w => ⟨(q.x, q.y) :: w.visited, w.clear⟩
      else some ⟨[(q.x, q.y)], false⟩

def walk (accepts : ℤ × ℤ → Bool) (fuel : ℕ) : Option Walk := l.walkFrom accepts fuel l.start

def turns : ℕ := (max l.dx (-l.dy)).toNat

def InBox (c : ℤ × ℤ) : Prop :=
  (min l.x0 l.x1 ≤ c.1 ∧ c.1 ≤ max l.x0 l.x1) ∧ min l.y0 l.y1 ≤ c.2 ∧ c.2 ≤ max l.y0 l.y1

end Line

def King (c d : ℤ × ℤ) : Prop := c ≠ d ∧ |d.1 - c.1| ≤ 1 ∧ |d.2 - c.2| ≤ 1

structure Line.StraightFrom (l : Line) (c : ℤ × ℤ) (turns : ℕ) (cells : List (ℤ × ℤ)) : Prop where
  length : cells.length = turns
  king : (c :: cells).IsChain King
  last : (c :: cells).getLast? = some (l.x1, l.y1)

structure Line.WalkedFrom (l : Line) (accepts : ℤ × ℤ → Bool) (c : ℤ × ℤ) (turns : ℕ) (w : Walk) : Prop where
  straight : w.clear = true → l.StraightFrom c turns w.visited
  accepted : w.clear = true → ∀ d ∈ w.visited, accepts d = true
  rejected : w.clear = false → ∃ d ∈ w.visited, accepts d = false
  box : ∀ d ∈ w.visited, l.InBox d

def Line.Straight (l : Line) (cells : List (ℤ × ℤ)) : Prop := l.StraightFrom (l.x0, l.y0) l.turns cells

def Line.Walked (l : Line) (accepts : ℤ × ℤ → Bool) (w : Walk) : Prop :=
  l.WalkedFrom accepts (l.x0, l.y0) l.turns w

variable {l : Line} {n : ℕ} {p : Place} {a b i j err : ℤ}

/-! ## The error value -/

theorem rows_done (herr : err = a * (1 + j) - b * (1 + a)) (ha : 0 ≤ a) (hj : 0 ≤ j) (hjb : j ≤ b) (hle : -b ≤ 2 * err) :
    j = b := by
  by_contra hne
  have hrow : a * (1 + j) ≤ a * b := mul_le_mul_of_nonneg_left (by omega) ha
  have hsmall : err ≤ -b := by linarith
  omega

theorem columns_done (herr : err = a * (1 + b) - b * (1 + i)) (hb : 0 ≤ b) (hi : 0 ≤ i) (hia : i ≤ a)
    (hle : 2 * err ≤ a) : i = a := by
  by_contra hne
  have hcolumn : b * (1 + i) ≤ b * a := mul_le_mul_of_nonneg_left (by omega) hb
  have hlarge : a ≤ err := by linarith
  omega

/-! ## One turn -/

structure On (l : Line) (n : ℕ) (p : Place) (i j : ℤ) : Prop where
  i_nonneg : 0 ≤ i
  i_le : i ≤ l.dx
  j_nonneg : 0 ≤ j
  j_le : j ≤ -l.dy
  x : p.x = l.x0 + l.sx * i
  y : p.y = l.y0 + l.sy * j
  err : p.err = l.dx * (1 + j) - -l.dy * (1 + i)
  wide : -l.dy ≤ l.dx → i = n ∧ l.dy ≤ 2 * p.err
  tall : l.dx < -l.dy → j = n ∧ 2 * p.err ≤ l.dx

theorem dx_nonneg (l : Line) : 0 ≤ l.dx := abs_nonneg _

theorem dy_nonpos (l : Line) : l.dy ≤ 0 := neg_nonpos.2 (abs_nonneg _)

theorem x0_add (l : Line) : l.x0 + l.sx * l.dx = l.x1 := by
  unfold Line.sx Line.dx
  split
  · rw [abs_of_pos (by omega)]
    omega
  · rw [abs_of_nonpos (by omega)]
    omega

theorem y0_add (l : Line) : l.y0 + l.sy * -l.dy = l.y1 := by
  unfold Line.sy Line.dy
  split
  · rw [abs_of_pos (by omega)]
    omega
  · rw [abs_of_nonpos (by omega)]
    omega

theorem sx_eq (l : Line) : l.sx = 1 ∨ l.sx = -1 := by
  unfold Line.sx
  split
  · exact .inl rfl
  · exact .inr rfl

theorem sy_eq (l : Line) : l.sy = 1 ∨ l.sy = -1 := by
  unfold Line.sy
  split
  · exact .inl rfl
  · exact .inr rfl

theorem On.x_eq_iff (h : On l n p i j) : p.x = l.x1 ↔ i = l.dx := by
  rw [h.x, ← x0_add]
  rcases sx_eq l with hs | hs <;> rw [hs] <;> constructor <;> intro <;> omega

theorem On.y_eq_iff (h : On l n p i j) : p.y = l.y1 ↔ j = -l.dy := by
  rw [h.y, ← y0_add]
  rcases sy_eq l with hs | hs <;> rw [hs] <;> constructor <;> intro <;> omega

theorem On.start (l : Line) : On l 0 l.start 0 0 where
  i_nonneg := le_rfl
  i_le := dx_nonneg l
  j_nonneg := le_rfl
  j_le := neg_nonneg.2 (dy_nonpos l)
  x := by simp [Line.start]
  y := by simp [Line.start]
  err := by simp [Line.start]
  wide h := ⟨rfl, by simp only [Line.start]; have := dx_nonneg l; omega⟩
  tall h := ⟨rfl, by simp only [Line.start]; have := dx_nonneg l; omega⟩

def Line.moved (l : Line) (p : Place) (ci cj : ℤ) : Place :=
  ⟨p.x + l.sx * ci, p.y + l.sy * cj, p.err + l.dy * ci + l.dx * cj⟩

theorem Line.step_both (hx : p.x ≠ l.x1) (hy : p.y ≠ l.y1) (hlow : l.dy ≤ 2 * p.err) (hhigh : 2 * p.err ≤ l.dx) :
    l.step p = some (l.moved p 1 1) := by
  simp [Line.step, Line.moved, hx, hy, hlow, hhigh]

theorem Line.step_column (hx : p.x ≠ l.x1) (hlow : l.dy ≤ 2 * p.err) (hhigh : ¬ 2 * p.err ≤ l.dx) :
    l.step p = some (l.moved p 1 0) := by
  simp [Line.step, Line.moved, hx, hlow, hhigh]

theorem Line.step_row (hy : p.y ≠ l.y1) (hlow : ¬ l.dy ≤ 2 * p.err) (hhigh : 2 * p.err ≤ l.dx) :
    l.step p = some (l.moved p 0 1) := by
  simp [Line.step, Line.moved, hy, hlow, hhigh]

theorem Line.step_stop (hx : p.x = l.x1) (hy : p.y = l.y1) (h : l.dy ≤ 2 * p.err ∨ 2 * p.err ≤ l.dx) :
    l.step p = none := by
  by_cases hlow : l.dy ≤ 2 * p.err
  · simp [Line.step, hx, hlow]
  · have hhigh : 2 * p.err ≤ l.dx := h.resolve_left hlow
    simp [Line.step, hy, hlow, hhigh]

theorem On.moved (h : On l n p i j) {ci cj : ℤ} (hci : 0 ≤ ci) (hcj : 0 ≤ cj) (hi : i + ci ≤ l.dx) (hj : j + cj ≤ -l.dy)
    (hwide : -l.dy ≤ l.dx → ci = 1 ∧ l.dy ≤ 2 * (l.moved p ci cj).err)
    (htall : l.dx < -l.dy → cj = 1 ∧ 2 * (l.moved p ci cj).err ≤ l.dx) :
    On l (n + 1) (l.moved p ci cj) (i + ci) (j + cj) where
  i_nonneg := add_nonneg h.i_nonneg hci
  i_le := hi
  j_nonneg := add_nonneg h.j_nonneg hcj
  j_le := hj
  x := by simp only [Line.moved, h.x]; ring
  y := by simp only [Line.moved, h.y]; ring
  err := by simp only [Line.moved, h.err]; ring
  wide hw := ⟨by rw [(h.wide hw).1, (hwide hw).1]; push_cast; rfl, (hwide hw).2⟩
  tall ht := ⟨by rw [(h.tall ht).1, (htall ht).1]; push_cast; rfl, (htall ht).2⟩

theorem On.moves (h : On l n p i j) : l.dy ≤ 2 * p.err ∨ 2 * p.err ≤ l.dx := by
  rcases le_or_gt (-l.dy) l.dx with hw | ht
  · exact .inl (h.wide hw).2
  · exact .inr (h.tall ht).2

theorem On.i_eq_iff (h : On l n p i j) : (i = l.dx ∧ l.dy ≤ 2 * p.err) ∨ (j = -l.dy ∧ 2 * p.err ≤ l.dx) ↔
    i = l.dx ∧ j = -l.dy := by
  constructor
  · rintro (⟨hi, hlow⟩ | ⟨hj, hhigh⟩)
    · have herr := h.err
      rw [hi] at herr
      exact ⟨hi, rows_done herr (dx_nonneg l) h.j_nonneg h.j_le (by omega)⟩
    · have herr := h.err
      rw [hj] at herr
      exact ⟨columns_done herr (neg_nonneg.2 (dy_nonpos l)) h.i_nonneg h.i_le hhigh, hj⟩
  · rintro ⟨hi, hj⟩
    exact h.moves.imp (⟨hi, ·⟩) (⟨hj, ·⟩)

theorem On.step (h : On l n p i j) : (l.step p = none ∧ i = l.dx ∧ j = -l.dy) ∨
    ∃ ci cj : ℤ, (ci = 0 ∨ ci = 1) ∧ (cj = 0 ∨ cj = 1) ∧ (ci = 1 ∨ cj = 1) ∧
      l.step p = some (l.moved p ci cj) ∧ On l (n + 1) (l.moved p ci cj) (i + ci) (j + cj) := by
  by_cases hend : i = l.dx ∧ j = -l.dy
  · exact .inl ⟨Line.step_stop (h.x_eq_iff.2 hend.1) (h.y_eq_iff.2 hend.2) h.moves, hend⟩
  refine .inr ?_
  have hgo := mt h.i_eq_iff.1 hend
  have hi := h.i_le
  have hj := h.j_le
  by_cases hlow : l.dy ≤ 2 * p.err
  · have hx : i ≠ l.dx := fun heq => hgo (.inl ⟨heq, hlow⟩)
    by_cases hhigh : 2 * p.err ≤ l.dx
    · have hy : j ≠ -l.dy := fun heq => hgo (.inr ⟨heq, hhigh⟩)
      refine ⟨1, 1, .inr rfl, .inr rfl, .inl rfl,
        Line.step_both (mt h.x_eq_iff.1 hx) (mt h.y_eq_iff.1 hy) hlow hhigh, ?_⟩
      refine h.moved zero_le_one zero_le_one (by omega) (by omega) (fun _ => ⟨rfl, ?_⟩) (fun _ => ⟨rfl, ?_⟩)
      · simp only [Line.moved]
        omega
      · simp only [Line.moved]
        omega
    · refine ⟨1, 0, .inr rfl, .inl rfl, .inl rfl, Line.step_column (mt h.x_eq_iff.1 hx) hlow hhigh, ?_⟩
      refine h.moved zero_le_one le_rfl (by omega) (by omega) (fun _ => ⟨rfl, ?_⟩)
        (fun ht => absurd (h.tall ht).2 hhigh)
      simp only [Line.moved]
      omega
  · have hhigh : 2 * p.err ≤ l.dx := h.moves.resolve_left hlow
    have hy : j ≠ -l.dy := fun heq => hgo (.inr ⟨heq, hhigh⟩)
    refine ⟨0, 1, .inl rfl, .inr rfl, .inr rfl, Line.step_row (mt h.y_eq_iff.1 hy) hlow hhigh, ?_⟩
    refine h.moved le_rfl zero_le_one (by omega) (by omega) (fun hw => absurd (h.wide hw).2 hlow) (fun _ => ⟨rfl, ?_⟩)
    simp only [Line.moved]
    omega

/-! ## The whole walk -/

theorem king_moved (p : Place) {ci cj : ℤ} (hci : ci = 0 ∨ ci = 1) (hcj : cj = 0 ∨ cj = 1) (hmove : ci = 1 ∨ cj = 1) :
    King (p.x, p.y) ((l.moved p ci cj).x, (l.moved p ci cj).y) := by
  simp only [King, Line.moved, Prod.mk.injEq, ne_eq]
  rcases sx_eq l with hx | hx <;> rcases sy_eq l with hy | hy <;> rcases hci with rfl | rfl <;>
    rcases hcj with rfl | rfl <;> simp_all

theorem On.inBox (h : On l n p i j) : l.InBox (p.x, p.y) := by
  have hx := x0_add l
  have hy := y0_add l
  have hi := h.i_nonneg
  have hi' := h.i_le
  have hj := h.j_nonneg
  have hj' := h.j_le
  simp only [Line.InBox, h.x, h.y]
  constructor
  · rcases sx_eq l with hs | hs <;> rw [hs] at hx ⊢ <;> omega
  · rcases sy_eq l with hs | hs <;> rw [hs] at hy ⊢ <;> omega

theorem On.turns (h : On l n p i j) : n ≤ l.turns ∧ (i = l.dx → j = -l.dy → n = l.turns) := by
  have hi := h.i_le
  have hj := h.j_le
  unfold Line.turns
  rcases le_or_gt (-l.dy) l.dx with hw | ht
  · rw [max_eq_left hw]
    have hn := (h.wide hw).1
    omega
  · rw [max_eq_right ht.le]
    have hn := (h.tall ht).1
    omega

theorem Line.StraightFrom.cons {k : ℕ} {ci cj : ℤ} {cells : List (ℤ × ℤ)} (hci : ci = 0 ∨ ci = 1) (hcj : cj = 0 ∨ cj = 1)
    (hmove : ci = 1 ∨ cj = 1) (h : l.StraightFrom ((l.moved p ci cj).x, (l.moved p ci cj).y) k cells) :
    l.StraightFrom (p.x, p.y) (k + 1) (((l.moved p ci cj).x, (l.moved p ci cj).y) :: cells) where
  length := congrArg (· + 1) h.length
  king := .cons_cons (king_moved p hci hcj hmove) h.king
  last := by
    rw [getLast?_cons_cons]
    exact h.last

theorem On.walkFrom (accepts : ℤ × ℤ → Bool) {k : ℕ} (h : On l n p i j) (hk : n + k = l.turns) :
    ∃ w, l.WalkedFrom accepts (p.x, p.y) k w ∧ ∀ fuel, k < fuel → l.walkFrom accepts fuel p = some w := by
  induction k generalizing n p i j with
  | zero =>
    rcases h.step with ⟨hstop, hi, hj⟩ | ⟨ci, cj, -, -, -, -, hon⟩
    · refine ⟨⟨[], true⟩, ⟨fun _ => ⟨rfl, .singleton _, ?_⟩, by simp, by simp, by simp⟩, ?_⟩
      · simp [h.x_eq_iff.2 hi, h.y_eq_iff.2 hj]
      · rintro (_ | fuel) hfuel
        · exact absurd hfuel (lt_irrefl 0)
        · simp [Line.walkFrom, hstop]
    · have hle := hon.turns.1
      omega
  | succ k ih =>
    rcases h.step with ⟨-, hi, hj⟩ | ⟨ci, cj, hci, hcj, hmove, hstep, hon⟩
    · have heq := h.turns.2 hi hj
      omega
    · set q := l.moved p ci cj with hq
      by_cases hacc : accepts (q.x, q.y) = true
      · obtain ⟨w, hw, hrun⟩ := ih hon (by omega)
        refine ⟨⟨(q.x, q.y) :: w.visited, w.clear⟩, ⟨?_, ?_, ?_, ?_⟩, ?_⟩
        · exact fun hclear => (hw.straight hclear).cons hci hcj hmove
        · exact fun hclear => forall_mem_cons.2 ⟨hacc, hw.accepted hclear⟩
        · intro hclear
          obtain ⟨d, hd, hrej⟩ := hw.rejected hclear
          exact ⟨d, mem_cons_of_mem _ hd, hrej⟩
        · exact forall_mem_cons.2 ⟨hon.inBox, hw.box⟩
        · rintro (_ | fuel) hfuel
          · exact absurd hfuel (Nat.not_lt_zero _)
          · simp [Line.walkFrom, hstep, hacc, hrun fuel (by omega)]
      · refine ⟨⟨[(q.x, q.y)], false⟩, ⟨by simp, by simp, ?_, ?_⟩, ?_⟩
        · exact fun _ => ⟨_, mem_singleton_self _, Bool.eq_false_iff.2 hacc⟩
        · exact forall_mem_singleton.2 hon.inBox
        · rintro (_ | fuel) hfuel
          · exact absurd hfuel (Nat.not_lt_zero _)
          · simp [Line.walkFrom, hstep, hacc]

theorem Line.walked (l : Line) (accepts : ℤ × ℤ → Bool) :
    ∃ w, l.Walked accepts w ∧ ∀ fuel, l.turns < fuel → l.walk accepts fuel = some w :=
  (On.start l).walkFrom accepts (Nat.zero_add l.turns)

end Circuit.Framework
