import Mathlib.Init

/-!
# Memo tables that answer as if they were empty

A state with memo tables is emptied by `core`. A computation answers at a state as it does with the tables emptied
(`AsEmptied`) when its answer is that of the emptied state, what it writes are table entries only, and the states it
leaves still satisfy the invariant `V` that says which entries are right. The rules follow the computation, with
`AsEmptied.memo` for a lookup that falls back on a computation and stores its result.
-/

namespace Circuit.Framework

open List

universe u

variable {σ α β : Type u} {f : StateM σ α}

def reads (f : σ → α) : StateM σ α := fun d => (f d, d)

theorem bind_of_eq {g : α → StateM σ β} {a : α} {d d' : σ} (h : f d = (a, d')) : (f >>= g) d = g a d' := by
  show g (f d).1 (f d).2 = g a d'
  rw [h]

structure Emptying (core : σ → σ) (V : σ → Prop) : Prop where
  core_core : ∀ d, core (core d) = core d
  valid : ∀ d, V d → V (core d)

structure AsEmptied (core : σ → σ) (V : σ → Prop) (f : StateM σ α) (d : σ) : Prop where
  answer : (f d).1 = (f (core d)).1
  core_eq : core (f d).2 = core d
  valid : V (f d).2

namespace AsEmptied

variable {core : σ → σ} {V : σ → Prop} {d d' : σ}

theorem congr (h : AsEmptied core V f d) (h' : AsEmptied core V f d') (hd : core d = core d') :
    (f d).1 = (f d').1 := by rw [h.answer, h'.answer, hd]

theorem of_eq {f' : StateM σ α} (hd : f d = f' d) (hc : f (core d) = f' (core d)) (h : AsEmptied core V f' d) :
    AsEmptied core V f d :=
  ⟨by rw [hd, hc]; exact h.answer, by rw [hd]; exact h.core_eq, by rw [hd]; exact h.valid⟩

theorem pure (hV : V d) (a : α) : AsEmptied core V (Pure.pure a : StateM σ α) d := ⟨rfl, rfl, hV⟩

theorem read (hV : V d) {f : σ → α} (hf : f d = f (core d)) : AsEmptied core V (reads f) d :=
  ⟨hf, rfl, hV⟩

theorem bind (hE : Emptying core V) {g : α → StateM σ β} (hV : V d)
    (hf : ∀ s, V s → core s = core d → AsEmptied core V f s)
    (hg : ∀ s, V s → core s = core d → AsEmptied core V (g (f d).1) s) : AsEmptied core V (f >>= g) d := by
  have hd := hf d hV rfl
  have hc := hf (core d) (hE.valid d hV) (hE.core_core d)
  have hgd := hg (f d).2 hd.valid hd.core_eq
  have hgc := hg (f (core d)).2 hc.valid (hc.core_eq.trans (hE.core_core d))
  refine ⟨?_, hgd.core_eq.trans hd.core_eq, hgd.valid⟩
  show (g (f d).1 (f d).2).1 = (g (f (core d)).1 (f (core d)).2).1
  rw [← hd.answer]
  exact hgd.congr hgc (hd.core_eq.trans (hc.core_eq.trans (hE.core_core d)).symm)

theorem foldlM (hE : Emptying core V) {f : β → α → StateM σ β} {l : List α}
    (hf : ∀ b, ∀ a ∈ l, ∀ s, V s → core s = core d → AsEmptied core V (f b a) s) (hV : V d) (b : β) :
    AsEmptied core V (l.foldlM f b) d := by
  induction l generalizing b d with
  | nil => exact pure hV b
  | cons a l ih =>
    rw [foldlM_cons]
    refine bind hE hV (fun s hs hc => hf b a mem_cons_self s hs hc) fun s hs hc => ?_
    exact ih (fun b a' ha' s' hs' hc' => hf b a' (mem_cons_of_mem a ha') s' hs' (hc'.trans hc)) hs _

end AsEmptied

def memo (get : σ → Option α) (put : α → σ → σ) (f : StateM σ α) : StateM σ α := fun d =>
  match get d with
  | some r => (r, d)
  | none => ((f d).1, put (f d).1 (f d).2)

theorem AsEmptied.memo {core : σ → σ} {V : σ → Prop} {d : σ} {get : σ → Option α} {put : α → σ → σ}
    (hV : V d) (hf : get d = none → AsEmptied core V f d) (hnone : get (core d) = none)
    (hget : ∀ r, get d = some r → r = (f (core d)).1)
    (hput : get d = none → core (put (f d).1 (f d).2) = core (f d).2 ∧ V (put (f d).1 (f d).2)) :
    AsEmptied core V (Framework.memo get put f) d := by
  have hempty : (Framework.memo get put f (core d)).1 = (f (core d)).1 := by
    rw [Framework.memo, hnone]
  cases hd : get d with
  | some r =>
    have hm : Framework.memo get put f d = (r, d) := by rw [Framework.memo, hd]
    exact ⟨by rw [hm, hempty, ← hget r hd], by rw [hm], by rwa [hm]⟩
  | none =>
    have hm : Framework.memo get put f d = ((f d).1, put (f d).1 (f d).2) := by rw [Framework.memo, hd]
    obtain ⟨hcore, hvalid⟩ := hput hd
    exact ⟨by rw [hm, hempty, (hf hd).answer], by rw [hm]; exact hcore.trans (hf hd).core_eq, by rwa [hm]⟩

end Circuit.Framework
