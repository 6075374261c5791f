import Mathlib.Algebra.Order.Ring.Nat
import Mathlib.Data.List.Nodup

/-!
# Merges of two sorted lists

A loop that walks a list of new and a list of old elements in step, both sorted by a key. `edits` is what it finds, in
order: every new element (`filterMap_new_edits`), every old one (`filterMap_old_edits`), with elements of one key paired
(`key_eq_of_keep`). If both lists are sorted there is one edit for a key (`pairwise_edits`), so that what is added has no
old element of its key (`ne_of_add`), and what is dropped no new one (`ne_of_drop`).
-/

namespace Circuit.Framework

open List

inductive Edit (α β : Type*)
  | add (a : α)
  | keep (a : α) (b : β)
  | drop (b : β)

namespace Edit

variable {α β : Type*}

def new : Edit α β → Option α
  | add a => some a
  | keep a _ => some a
  | drop _ => none

def old : Edit α β → Option β
  | add _ => none
  | keep _ b => some b
  | drop b => some b

def key {K : Type*} (key : α → K) (key' : β → K) : Edit α β → K
  | add a => key a
  | keep a _ => key a
  | drop b => key' b

end Edit

section Merge

variable {α β K : Type*} [LinearOrder K] (key : α → K) (key' : β → K) {a : α} {b : β}

def edits : List α → List β → List (Edit α β)
  | [], bs => bs.map .drop
  | a :: as, [] => .add a :: edits as []
  | a :: as, b :: bs =>
    if key a < key' b then .add a :: edits as (b :: bs)
    else if key' b < key a then .drop b :: edits (a :: as) bs
    else .keep a b :: edits as bs
termination_by as bs => as.length + bs.length

variable {key key'} {as : List α} {bs : List β}

theorem edits_nil (as : List α) : edits key key' as [] = as.map .add := by
  induction as with
  | nil => rw [edits]; rfl
  | cons a as ih => rw [edits, ih]; rfl

theorem filterMap_new_edits : (edits key key' as bs).filterMap Edit.new = as := by
  fun_induction edits key key' as bs with
  | case1 bs =>
    rw [filterMap_map]
    exact filterMap_eq_nil_iff.2 fun b _ => rfl
  | case2 a as ih => exact (filterMap_cons_some (f := Edit.new) rfl).trans (congrArg (a :: ·) ih)
  | case3 a as b bs hlt ih => exact (filterMap_cons_some (f := Edit.new) rfl).trans (congrArg (a :: ·) ih)
  | case4 a as b bs _ hlt ih => exact (filterMap_cons_none (f := Edit.new) rfl).trans ih
  | case5 a as b bs _ _ ih => exact (filterMap_cons_some (f := Edit.new) rfl).trans (congrArg (a :: ·) ih)

theorem filterMap_old_edits : (edits key key' as bs).filterMap Edit.old = bs := by
  fun_induction edits key key' as bs with
  | case1 bs =>
    rw [filterMap_map]
    exact filterMap_some
  | case2 a as ih => exact (filterMap_cons_none (f := Edit.old) rfl).trans ih
  | case3 a as b bs hlt ih => exact (filterMap_cons_none (f := Edit.old) rfl).trans ih
  | case4 a as b bs _ hlt ih => exact (filterMap_cons_some (f := Edit.old) rfl).trans (congrArg (b :: ·) ih)
  | case5 a as b bs _ _ ih => exact (filterMap_cons_some (f := Edit.old) rfl).trans (congrArg (b :: ·) ih)

variable (key key') in
theorem exists_of_new (bs : List β) (ha : a ∈ as) : ∃ e ∈ edits key key' as bs, e.new = some a := by
  rwa [← mem_filterMap, filterMap_new_edits]

variable (key key') in
theorem exists_of_old (as : List α) (hb : b ∈ bs) : ∃ e ∈ edits key key' as bs, e.old = some b := by
  rwa [← mem_filterMap, filterMap_old_edits]

variable {e : Edit α β}

theorem mem_of_new (he : e ∈ edits key key' as bs) (h : e.new = some a) : a ∈ as := by
  have := mem_filterMap.2 ⟨e, he, h⟩
  rwa [filterMap_new_edits] at this

theorem mem_of_old (he : e ∈ edits key key' as bs) (h : e.old = some b) : b ∈ bs := by
  have := mem_filterMap.2 ⟨e, he, h⟩
  rwa [filterMap_old_edits] at this

theorem key_eq_of_keep (h : .keep a b ∈ edits key key' as bs) : key a = key' b := by
  fun_induction edits key key' as bs with
  | case1 bs => simp at h
  | case2 a' as ih =>
    rcases mem_cons.1 h with h | h
    · cases h
    · exact ih h
  | case3 a' as b' bs hlt ih =>
    rcases mem_cons.1 h with h | h
    · cases h
    · exact ih h
  | case4 a' as b' bs _ hlt ih =>
    rcases mem_cons.1 h with h | h
    · cases h
    · exact ih h
  | case5 a' as b' bs hle hle' ih =>
    rcases mem_cons.1 h with h | h
    · cases h
      exact le_antisymm (not_lt.1 hle') (not_lt.1 hle)
    · exact ih h

/-! ## Sorted lists -/

theorem lt_key (he : e ∈ edits key key' as bs) {k : K} (has : ∀ a ∈ as, k < key a)
    (hbs : ∀ b ∈ bs, k < key' b) : k < e.key key key' := by
  cases e with
  | add a => exact has a (mem_of_new he rfl)
  | keep a b => exact has a (mem_of_new he rfl)
  | drop b => exact hbs b (mem_of_old he rfl)

variable (has : as.Pairwise fun a a' => key a < key a') (hbs : bs.Pairwise fun b b' => key' b < key' b')
include has hbs

theorem pairwise_edits : (edits key key' as bs).Pairwise fun e e' => e.key key key' < e'.key key key' := by
  fun_induction edits key key' as bs with
  | case1 bs => exact pairwise_map.2 hbs
  | case2 a as ih =>
    have ⟨ha, has⟩ := pairwise_cons.1 has
    exact .cons (fun e he => lt_key he ha fun b hb => absurd hb not_mem_nil) (ih has hbs)
  | case3 a as b bs hlt ih =>
    have ⟨ha, has⟩ := pairwise_cons.1 has
    have ⟨hb, _⟩ := pairwise_cons.1 hbs
    exact .cons (fun e he => lt_key he ha (forall_mem_cons.2 ⟨hlt, fun b' hb' => hlt.trans (hb b' hb')⟩))
      (ih has hbs)
  | case4 a as b bs _ hlt ih =>
    have ⟨ha, _⟩ := pairwise_cons.1 has
    have ⟨hb, hbs⟩ := pairwise_cons.1 hbs
    exact .cons (fun e he => lt_key he (forall_mem_cons.2 ⟨hlt, fun a' ha' => hlt.trans (ha a' ha')⟩) hb)
      (ih has hbs)
  | case5 a as b bs hle hle' ih =>
    have heq : key a = key' b := le_antisymm (not_lt.1 hle') (not_lt.1 hle)
    have ⟨ha, has⟩ := pairwise_cons.1 has
    have ⟨hb, hbs⟩ := pairwise_cons.1 hbs
    exact .cons (fun e he => lt_key he ha (by rw [← heq] at hb; exact hb)) (ih has hbs)

theorem edit_eq {e' : Edit α β} (he : e ∈ edits key key' as bs) (he' : e' ∈ edits key key' as bs)
    (h : e.key key key' = e'.key key key') : e = e' := by
  have hnodup : ((edits key key' as bs).map (Edit.key key key')).Nodup :=
    pairwise_map.2 ((pairwise_edits has hbs).imp ne_of_lt)
  exact inj_on_of_nodup_map hnodup he he' h

theorem ne_of_add (h : .add a ∈ edits key key' as bs) : ∀ b ∈ bs, key' b ≠ key a := by
  intro b hb heq
  obtain ⟨e, he, hold⟩ := exists_of_old key key' as hb
  cases e with
  | add _ => cases hold
  | keep a' b' =>
    cases hold
    cases edit_eq has hbs he h ((key_eq_of_keep he).trans heq)
  | drop b' =>
    cases hold
    cases edit_eq has hbs he h heq

theorem ne_of_drop (h : .drop b ∈ edits key key' as bs) : ∀ a ∈ as, key a ≠ key' b := by
  intro a ha heq
  obtain ⟨e, he, hnew⟩ := exists_of_new key key' bs ha
  cases e with
  | drop _ => cases hnew
  | keep a' b' =>
    cases hnew
    cases edit_eq has hbs he h heq
  | add a' =>
    cases hnew
    cases edit_eq has hbs he h heq

end Merge

end Circuit.Framework
