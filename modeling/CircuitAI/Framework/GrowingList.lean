import Mathlib.Algebra.Order.Ring.Nat
import Mathlib.Data.List.Nodup

/-!
# A list walked while it grows

A loop goes through a list again and again, and elements are added at its end at any time. When the loop comes to an
element in the round `f`, the element takes its turn: it leaves something in its log, and stays in the list, maybe changed,
or goes. `Walked` says that every element has taken its turn in all rounds that have ended since it was added, and in the
round under way if the loop has passed it.
-/

namespace Circuit.Framework.GrowingList

open List

variable {D R : Type*}

/-- What is known of the elements: how they were added, the rounds that have ended since, and their logs. -/
@[ext]
structure Book (D R : Type*) where
  added : ℕ → Option D
  rounds : ℕ → List ℤ
  log : ℕ → List R

namespace Book

def add (B : Book D R) (n : ℕ) (d : D) : Book D R := { B with added := Function.update B.added n (some d) }

def note (B : Book D R) (n : ℕ) (r : List R) : Book D R := { B with log := Function.update B.log n (B.log n ++ r) }

def endRound (B : Book D R) (f : ℤ) : Book D R :=
  { B with rounds := fun n => B.rounds n ++ if (B.added n).isSome then [f] else [] }

theorem note_nil (B : Book D R) (n : ℕ) : B.note n [] = B := by simp [note]

def seen (B : Book D R) (a : List (ℕ × D)) (now : Option ℤ) (n : ℕ) : List ℤ :=
  B.rounds n ++ if n ∈ a.map Prod.fst then [] else now.toList

end Book

variable (turn : ℤ → D → Option D × List R)

def step (x : Option D × List R) (f : ℤ) : Option D × List R :=
  match x.1 with
  | none => x
  | some d => ((turn f d).1, x.2 ++ (turn f d).2)

def turns (d : D) (fs : List ℤ) : Option D × List R := fs.foldl (step turn) (some d, [])

theorem turns_concat (d : D) (fs : List ℤ) (f : ℤ) : turns turn d (fs ++ [f]) = step turn (turns turn d fs) f := by
  simp [turns]

structure Walked (B : Book D R) (nodes : ℕ) (b a : List (ℕ × D)) (now : Option ℤ) : Prop where
  fresh : ∀ n, nodes ≤ n → B.added n = none
  unborn : ∀ n, B.added n = none → B.log n = [] ∧ B.rounds n = []
  nodup : ((b ++ a).map Prod.fst).Nodup
  here : ∀ x ∈ b ++ a, ∃ d, B.added x.1 = some d ∧ (turns turn d (B.seen a now x.1)).1 = some x.2
  gone : ∀ n d e, B.added n = some d → (turns turn d (B.seen a now n)).1 = some e → n ∈ (b ++ a).map Prod.fst
  log : ∀ n d, B.added n = some d → B.log n = (turns turn d (B.seen a now n)).2

variable {turn} {B : Book D R} {nodes : ℕ} {b a : List (ℕ × D)} {now : Option ℤ} {f : ℤ}

theorem Walked.new : Walked turn ⟨fun _ => none, fun _ => [], fun _ => []⟩ 0 [] [] none := by
  constructor <;> simp

theorem Walked.mono (h : Walked turn B nodes b a now) : Walked turn B (nodes + 1) b a now :=
  { h with fresh := fun n hn => h.fresh n (by omega) }

theorem Walked.ne_nodes (h : Walked turn B nodes b a now) {x : ℕ × D} (hx : x ∈ b ++ a) : x.1 ≠ nodes := by
  rintro heq
  obtain ⟨d, hd, -⟩ := h.here x hx
  simp [heq, h.fresh] at hd

theorem Walked.push (h : Walked turn B nodes b a now) (d : D) :
    Walked turn (B.add nodes d) (nodes + 1) b (a ++ [(nodes, d)]) now := by
  have hnone := h.fresh nodes le_rfl
  have hseen : ∀ n, n ≠ nodes → (B.add nodes d).seen (a ++ [(nodes, d)]) now n = B.seen a now n := by
    intro n hn
    simp only [Book.seen, Book.add, map_append, map_cons, map_nil, mem_append, mem_singleton,
      hn, or_false]
  have hnew : (B.add nodes d).seen (a ++ [(nodes, d)]) now nodes = [] := by
    simp [Book.seen, Book.add, (h.unborn nodes hnone).2]
  have hadded : ∀ n, (B.add nodes d).added n = if n = nodes then some d else B.added n := fun n =>
    Function.update_apply ..
  refine ⟨fun n hn => ?_, fun n hn => ?_, ?_, fun x hx => ?_, fun n d' e hn he => ?_, fun n d' hn => ?_⟩
  · rw [hadded, if_neg (by omega), h.fresh n (by omega)]
  · rw [hadded] at hn
    split_ifs at hn
    exact h.unborn n hn
  · rw [← append_assoc, map_append, nodup_append]
    refine ⟨h.nodup, by simp, ?_⟩
    simp only [mem_map, map_cons, map_nil, mem_singleton]
    rintro _ ⟨x, hx, rfl⟩ _ rfl
    exact h.ne_nodes hx
  · rw [← append_assoc, mem_append, mem_singleton] at hx
    rcases hx with hx | rfl
    · rw [hadded, if_neg (h.ne_nodes hx), hseen _ (h.ne_nodes hx)]
      exact h.here x hx
    · exact ⟨d, by rw [hadded, if_pos rfl], by rw [hnew]; rfl⟩
  · rw [← append_assoc, map_append, mem_append]
    rw [hadded] at hn
    split_ifs at hn with heq
    · simp [heq]
    · rw [hseen n heq] at he
      exact .inl (h.gone n d' e hn he)
  · rw [hadded] at hn
    split_ifs at hn with heq
    · obtain rfl := Option.some.inj hn
      rw [heq, hnew]
      exact (h.unborn nodes hnone).1
    · rw [hseen n heq]
      exact h.log n d' hn

theorem Walked.begin (h : Walked turn B nodes [] a none) (f : ℤ) : Walked turn B nodes [] a (some f) := by
  have hturns : ∀ n d, B.added n = some d → turns turn d (B.seen a (some f) n) = turns turn d (B.seen a none n) := by
    intro n d hn
    by_cases hmem : n ∈ a.map Prod.fst
    · simp [Book.seen, hmem]
    · have hgone : (turns turn d (B.seen a none n)).1 = none := by
        rw [Option.eq_none_iff_forall_ne_some]
        exact fun e he => hmem (by simpa using h.gone n d e hn he)
      simp only [Book.seen, hmem, if_false, Option.toList_none, append_nil, Option.toList_some] at hgone ⊢
      rw [turns_concat, step, hgone]
  refine ⟨h.fresh, h.unborn, h.nodup, fun x hx => ?_, fun n d e hn he => ?_, fun n d hn => ?_⟩
  · obtain ⟨d, hd, hx'⟩ := h.here x hx
    exact ⟨d, hd, by rw [hturns _ d hd, hx']⟩
  · exact h.gone n d e hn (by rw [← hturns n d hn, he])
  · rw [hturns n d hn]
    exact h.log n d hn

theorem Walked.visit {n : ℕ} {d : D} (h : Walked turn B nodes b ((n, d) :: a) (some f)) :
    Walked turn (B.note n (turn f d).2) nodes (b ++ (turn f d).1.toList.map (n, ·)) a (some f) := by
  obtain ⟨d₀, hd₀, hturn⟩ := h.here (n, d) (by simp)
  have hnodup := h.nodup
  rw [map_append, map_cons, nodup_middle, nodup_cons, mem_append, not_or] at hnodup
  obtain ⟨⟨hb, ha⟩, hrest⟩ := hnodup
  have hself : turns turn d₀ ((B.note n (turn f d).2).seen a (some f) n) =
      ((turn f d).1, (turns turn d₀ (B.seen ((n, d) :: a) (some f) n)).2 ++ (turn f d).2) := by
    simp only [Book.seen, Book.note, ha, if_false, Option.toList_some, map_cons, mem_cons, true_or, if_true,
      append_nil] at hturn ⊢
    rw [turns_concat, step, hturn]
  have hother : ∀ m, m ≠ n → (B.note n (turn f d).2).seen a (some f) m = B.seen ((n, d) :: a) (some f) m := by
    intro m hm
    simp only [Book.seen, Book.note, map_cons, mem_cons, hm, false_or]
  have hmem : ∀ x : ℕ × D, x ∈ b ++ (turn f d).1.toList.map (n, ·) ++ a ↔
      (x ∈ b ++ (n, d) :: a ∧ x.1 ≠ n) ∨ x.1 = n ∧ (turn f d).1 = some x.2 := by
    rintro ⟨m, e⟩
    have hb' : (m, e) ∈ b → m ≠ n := fun hm heq => hb (mem_map.2 ⟨_, hm, heq⟩)
    have ha' : (m, e) ∈ a → m ≠ n := fun hm heq => ha (mem_map.2 ⟨_, hm, heq⟩)
    simp only [mem_append, mem_map, Option.mem_toList, mem_cons, Prod.mk.injEq]
    grind
  refine ⟨h.fresh, fun m hm => ?_, ?_, fun x hx => ?_, fun m d' e hm he => ?_, fun m d' hm => ?_⟩
  · have hne : m ≠ n := by
      rintro rfl
      exact absurd (hd₀.symm.trans hm) (Option.some_ne_none _)
    simpa [Book.note, hne] using h.unborn m hm
  · cases (turn f d).1 with
    | none => simpa using hrest
    | some e =>
      simp only [Option.toList_some, map_cons, map_nil, append_assoc, singleton_append]
      rw [map_append, map_cons, nodup_middle, nodup_cons, mem_append, not_or]
      exact ⟨⟨hb, ha⟩, hrest⟩
  · rcases (hmem x).1 hx with ⟨hx, hne⟩ | ⟨hxn, hx⟩
    · rw [hother _ hne]
      exact h.here x hx
    · exact ⟨d₀, by rw [hxn]; exact hd₀, by rw [hxn, hself]; exact hx⟩
  · by_cases heq : m = n
    · subst heq
      obtain rfl := Option.some.inj (hd₀.symm.trans hm)
      rw [hself] at he
      exact mem_map.2 ⟨(m, e), (hmem _).2 (.inr ⟨rfl, he⟩), rfl⟩
    · rw [hother m heq] at he
      obtain ⟨x, hx, rfl⟩ := mem_map.1 (h.gone m d' e hm he)
      exact mem_map.2 ⟨x, (hmem x).2 (.inl ⟨hx, heq⟩), rfl⟩
  · by_cases heq : m = n
    · subst heq
      obtain rfl := Option.some.inj (hd₀.symm.trans hm)
      rw [hself, ← h.log m _ hm]
      simp [Book.note]
    · rw [hother m heq, ← h.log m d' hm]
      simp [Book.note, heq]

theorem Walked.endRound (h : Walked turn B nodes b [] (some f)) : Walked turn (B.endRound f) nodes [] b none := by
  have hseen : ∀ n d, B.added n = some d → (B.endRound f).seen b none n = B.seen [] (some f) n := by
    intro n d hn
    simp [Book.seen, Book.endRound, hn]
  refine ⟨h.fresh, fun n hn => ?_, by simpa using h.nodup, fun x hx => ?_, fun n d e hn he => ?_, fun n d hn => ?_⟩
  · have hn' : B.added n = none := hn
    simpa [Book.endRound, hn'] using h.unborn n hn
  · obtain ⟨d, hd, hx'⟩ := h.here x (by simpa using hx)
    exact ⟨d, hd, by rw [hseen _ d hd, hx']⟩
  · simpa using h.gone n d e hn (by rw [← hseen n d hn, he])
  · rw [hseen n d hn]
    exact h.log n d hn

end Circuit.Framework.GrowingList
