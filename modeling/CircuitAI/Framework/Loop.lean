import Mathlib.Data.List.Forall2

/-!
# Loops

The rule for a loop `for (k = 0; k < n; ++k)` written as a fold over `List.range n` (`foldl_range_inv`). Nested loops over
a table that is kept row by row update every entry once (`foldl_modify_grid`, `foldl_set_grid`). A loop that overwrites
some entries in each turn leaves an entry as it was, or as one of the turns that hit it wrote it
(`foldl_overwrite_cases`). For a loop that walks several lists in step, what relates each of them to a list of keys
relates them to each other (`forall₂_join`) and to the list the loop makes (`forall₂_zipWith`). A loop that may fail is
`mapM`: it ends if each turn ends (`exists_mapM`), and each result comes from an element (`exists_of_mem_mapM`).
-/

namespace Circuit.Framework

open List Option

theorem foldl_range_inv {β : Type*} {f : β → ℕ → β} {b : β} (P : ℕ → β → Prop) (n : ℕ) (h0 : P 0 b)
    (hstep : ∀ k < n, ∀ b, P k b → P (k + 1) (f b k)) : P n ((range n).foldl f b) := by
  induction n with
  | zero => exact h0
  | succ n ih =>
    rw [range_succ, foldl_append]
    exact hstep n (Nat.lt_succ_self n) _ (ih fun k hk => hstep k (Nat.lt_succ_of_lt hk))

section Grid

variable {β : Type*} {n : ℕ}

theorem foldl_modify_row (f : ℕ → β → β) (start : ℕ) (l : List β) (i : ℕ) :
    ((range n).foldl (fun l x => l.modify (start + x) (f x)) l)[i]? =
      if start ≤ i ∧ i < start + n then l[i]?.map (f (i - start)) else l[i]? := by
  refine foldl_range_inv (fun x (l' : List β) =>
    l'[i]? = if start ≤ i ∧ i < start + x then l[i]?.map (f (i - start)) else l[i]?) n ?_ fun x _ l' h => ?_
  · rw [if_neg (by omega)]
  · by_cases hi : start + x = i
    · subst hi
      rw [getElem?_modify_eq, h, if_neg (by omega), if_pos (by omega), Nat.add_sub_cancel_left]
      rfl
    · rw [getElem?_modify_ne _ _ hi, h]
      by_cases hin : start ≤ i ∧ i < start + x
      · rw [if_pos hin, if_pos (by omega)]
      · rw [if_neg hin, if_neg (by omega)]

theorem foldl_modify_grid (f : ℕ → ℕ → β → β) {l : List β} (hl : l.length = n * n) :
    (range n).foldl (fun l y => (range n).foldl (fun l x => l.modify (y * n + x) (f x y)) l) l =
      l.mapIdx fun i => f (i % n) (i / n) := by
  have hrows : ∀ i, ((range n).foldl (fun l y =>
      (range n).foldl (fun l x => l.modify (y * n + x) (f x y)) l) l)[i]? =
        if i < n * n then l[i]?.map (f (i % n) (i / n)) else l[i]? := fun i => by
    refine foldl_range_inv (fun y (l' : List β) =>
      l'[i]? = if i < y * n then l[i]?.map (f (i % n) (i / n)) else l[i]?) n ?_ fun y _ l' h => ?_
    · rw [if_neg (by omega)]
    · rw [foldl_modify_row (fun x => f x y), h, Nat.succ_mul]
      by_cases hrow : y * n ≤ i ∧ i < y * n + n
      · -- the entry lies in this row
        have hx : i - y * n < n := by omega
        have hi : i = i - y * n + y * n := by omega
        have hmod : i % n = i - y * n := by
          rw [hi, Nat.add_mul_mod_self_right, Nat.add_sub_cancel, Nat.mod_eq_of_lt hx]
        have hdiv : i / n = y := by
          rw [hi, Nat.add_mul_div_right _ _ (by omega), Nat.div_eq_of_lt hx, Nat.zero_add]
        rw [if_pos hrow, if_neg (by omega), if_pos hrow.2, hmod, hdiv]
      · rw [if_neg hrow]
        by_cases hi : i < y * n
        · rw [if_pos hi, if_pos (by omega)]
        · rw [if_neg hi, if_neg (by omega)]
  refine ext_getElem? fun i => ?_
  rw [hrows i, getElem?_mapIdx]
  by_cases hi : i < n * n
  · rw [if_pos hi]
  · rw [if_neg hi, getElem?_eq_none (by omega), map_none]

theorem foldl_set_grid (g : ℕ → ℕ → β) {l : List β} (hl : l.length = n * n) :
    (range n).foldl (fun l y => (range n).foldl (fun l x => l.set (y * n + x) (g x y)) l) l =
      (range (n * n)).map fun i => g (i % n) (i / n) := by
  simp only [set_eq_modify]
  rw [foldl_modify_grid (fun x y _ => g x y) hl]
  refine ext_getElem? fun i => ?_
  rw [getElem?_mapIdx, getElem?_map]
  by_cases hi : i < n * n
  · rw [getElem?_range hi, getElem?_eq_getElem (by omega)]
    rfl
  · rw [getElem?_eq_none (by omega), getElem?_eq_none (by rw [length_range]; omega)]
    rfl

end Grid

theorem foldl_overwrite_cases {ι β : Type*} (hit : ℕ → ι → Prop) [∀ k i, Decidable (hit k i)] (f : ℕ → β) (b : ι → β)
    (n : ℕ) (i : ι) : ((range n).foldl (fun b k i => if hit k i then f k else b i) b i = b i ∧ ∀ k < n, ¬ hit k i) ∨
      ∃ k < n, (range n).foldl (fun b k i => if hit k i then f k else b i) b i = f k ∧ hit k i := by
  refine foldl_range_inv (fun n (b' : ι → β) => (b' i = b i ∧ ∀ k < n, ¬ hit k i) ∨ ∃ k < n, b' i = f k ∧ hit k i) n
    (.inl ⟨rfl, fun k hk => absurd hk (Nat.not_lt_zero k)⟩) fun n hn b' h => ?_
  by_cases hi : hit n i
  · exact .inr ⟨n, Nat.lt_succ_self n, if_pos hi, hi⟩
  · rw [if_neg hi]
    refine h.imp (fun ⟨hsame, hall⟩ => ⟨hsame, fun k hk => ?_⟩) fun ⟨k, hk, hik⟩ => ⟨k, Nat.lt_succ_of_lt hk, hik⟩
    rcases Nat.lt_succ_iff_lt_or_eq.1 hk with hk | rfl
    · exact hall k hk
    · exact hi

section MapM

variable {α : Type*} {f : α → Option α} {l t : List α}

theorem exists_of_mem_mapM (h : l.mapM f = some t) {b : α} (hb : b ∈ t) : ∃ a ∈ l, f a = some b := by
  induction l generalizing t with
  | nil =>
    cases h
    cases hb
  | cons a l ih =>
    rw [mapM_cons] at h
    obtain ⟨b', hb', h⟩ := bind_eq_some_iff.mp h
    obtain ⟨t', ht', h⟩ := bind_eq_some_iff.mp h
    cases h
    rcases mem_cons.mp hb with rfl | hb
    · exact ⟨a, mem_cons_self, hb'⟩
    · obtain ⟨c, hc, hcb⟩ := ih ht' hb
      exact ⟨c, mem_cons_of_mem a hc, hcb⟩

theorem exists_mapM {g : ℕ → α → Option α} (h : ∀ a ∈ l, ∃ n, ∀ m, n ≤ m → ∃ b, g m a = some b) :
    ∃ n, ∀ m, n ≤ m → ∃ t, l.mapM (g m) = some t := by
  induction l with
  | nil => exact ⟨0, fun m _ => ⟨[], rfl⟩⟩
  | cons a l ih =>
    obtain ⟨n, hn⟩ := h a mem_cons_self
    obtain ⟨n', hn'⟩ := ih fun b hb => h b (mem_cons_of_mem a hb)
    refine ⟨max n n', fun m hm => ?_⟩
    obtain ⟨b, hb⟩ := hn m (by omega)
    obtain ⟨t, ht⟩ := hn' m (by omega)
    exact ⟨b :: t, by rw [mapM_cons, hb, ht]; rfl⟩

end MapM

section Forall₂

variable {α β γ δ : Type*} {R : α → β → Prop} {S : α → γ → Prop} {ks : List α} {as : List β} {bs : List γ}

theorem forall₂_join {T : β → γ → Prop} (ha : List.Forall₂ R ks as) (hb : List.Forall₂ S ks bs)
    (h : ∀ k a b, R k a → S k b → T a b) : List.Forall₂ T as bs := by
  induction ha generalizing bs with
  | nil =>
    cases hb
    exact .nil
  | cons hr _ ih =>
    cases hb with
    | cons hs hb => exact .cons (h _ _ _ hr hs) (ih hb)

theorem forall₂_zipWith {T : α → δ → Prop} {f : β → γ → δ} (ha : List.Forall₂ R ks as)
    (hb : List.Forall₂ S ks bs) (h : ∀ k ∈ ks, ∀ a b, R k a → S k b → T k (f a b)) :
    List.Forall₂ T ks (zipWith f as bs) := by
  induction ha generalizing bs with
  | nil =>
    cases hb
    exact .nil
  | cons hr _ ih =>
    cases hb with
    | cons hs hb =>
      exact .cons (h _ mem_cons_self _ _ hr hs) (ih hb fun k hk => h k (mem_cons_of_mem _ hk))

theorem exists_of_mem_zipWith {f : β → γ → δ} {x : δ} (hx : x ∈ zipWith f as bs) : ∃ a ∈ as, ∃ b ∈ bs, f a b = x := by
  induction as generalizing bs with
  | nil => exact absurd hx (by simp)
  | cons a as ih =>
    cases bs with
    | nil => exact absurd hx (by simp)
    | cons b bs =>
      rcases mem_cons.1 hx with rfl | hx
      · exact ⟨a, mem_cons_self, b, mem_cons_self, rfl⟩
      · obtain ⟨a', ha', b', hb', hf⟩ := ih hx
        exact ⟨a', mem_cons_of_mem a ha', b', mem_cons_of_mem b hb', hf⟩

end Forall₂

end Circuit.Framework
