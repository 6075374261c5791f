import Mathlib.Logic.Basic

/-!
# Procedures that call each other

A `Procedure ω σ α` runs from a state of type `σ` and returns a value and the state after it, or does not return. What it
cannot know it takes from a list of answers of type `ω` (`Procedure.ask`). `Ensures m s Q` is partial correctness:
whatever the procedure returns from `s`, for any answers, satisfies `Q`. Its rules follow the program text.

Procedures that call each other through a table of entry points are run by `Procedure.recurse`, to a bounded depth.
`Ensures.recurse`: a contract for every entry point holds once every body keeps its own whenever the calls keep theirs.
-/

namespace Circuit.Framework

universe u

abbrev Procedure (ω σ α : Type u) := StateT σ (StateT (List ω) Option) α

variable {ω σ α β : Type u} {ι : Type*}

namespace Procedure

def ask (f : ω → Option α) : Procedure ω σ α := fun s answers =>
  match answers with
  | [] => none
  | x :: rest => (f x).map fun a => ((a, s), rest)

def when (c : Bool) (m : Procedure ω σ PUnit) : Procedure ω σ PUnit :=
  if c then m else pure ⟨⟩

def forEach (f : ι → Procedure ω σ PUnit) : List ι → Procedure ω σ PUnit
  | [] => pure ⟨⟩
  | i :: l => do
    f i
    forEach f l

def recurse (body : (ι → Procedure ω σ α) → ι → Procedure ω σ α) : Nat → ι → Procedure ω σ α
  | 0, _ => failure
  | n + 1, i => body (recurse body n) i

end Procedure

def Ensures (m : Procedure ω σ α) (s : σ) (Q : α → σ → Prop) : Prop :=
  ∀ answers a t rest, m s answers = some ((a, t), rest) → Q a t

namespace Ensures

variable {m : Procedure ω σ α} {f : α → Procedure ω σ β} {s : σ} {Q : β → σ → Prop}

theorem mono {P Q : α → σ → Prop} (hm : Ensures m s P) (hPQ : ∀ a t, P a t → Q a t) : Ensures m s Q :=
  fun answers a t rest h => hPQ a t (hm answers a t rest h)

theorem ret {a : α} {Q : α → σ → Prop} (h : Q a s) : Ensures (pure a : Procedure ω σ α) s Q := by
  intro answers b t rest hb
  cases hb
  exact h

theorem fail {Q : α → σ → Prop} : Ensures (failure : Procedure ω σ α) s Q := by
  intro answers b t rest hb
  cases hb

theorem write {g : σ → σ} {Q : PUnit → σ → Prop} (h : Q ⟨⟩ (g s)) : Ensures (modify g : Procedure ω σ PUnit) s Q := by
  intro answers b t rest hb
  cases hb
  exact h

theorem ask {f : ω → Option α} {Q : α → σ → Prop} (h : ∀ x a, f x = some a → Q a s) :
    Ensures (Procedure.ask f) s Q := by
  intro answers b t rest hb
  cases answers with
  | nil => cases hb
  | cons x xs =>
    obtain ⟨a, ha, hat⟩ := Option.map_eq_some_iff.mp hb
    cases hat
    exact h x b ha

theorem seq {P : α → σ → Prop} (hm : Ensures m s P)
    (hf : ∀ a t, P a t → Ensures (f a) t Q) : Ensures (m >>= f) s Q := by
  intro answers b t rest h
  obtain ⟨⟨⟨a, r⟩, l⟩, hr, ht⟩ := Option.bind_eq_some_iff.mp h
  exact hf a r (hm answers a r l hr) l b t rest ht

theorem read_seq {k : σ → Procedure ω σ β} (h : Ensures (k s) s Q) : Ensures (get >>= k) s Q :=
  h

theorem write_seq {g : σ → σ} {k : PUnit → Procedure ω σ β} (h : Ensures (k ⟨⟩) (g s) Q) :
    Ensures (modify g >>= k) s Q :=
  h

theorem ask_seq {r : ω → Option α} (h : ∀ x a, r x = some a → Ensures (f a) s Q) :
    Ensures (Procedure.ask r >>= f) s Q :=
  seq (P := fun a t => Ensures (f a) t Q) (ask h) fun _ _ ht => ht

theorem when {c : Bool} {m : Procedure ω σ PUnit} {Q : PUnit → σ → Prop}
    (hm : c = true → Ensures m s Q) (hskip : c = false → Q ⟨⟩ s) : Ensures (Procedure.when c m) s Q := by
  cases c with
  | true => exact hm rfl
  | false => exact ret (hskip rfl)

theorem forEach {f : ι → Procedure ω σ PUnit} {I : List ι → σ → Prop}
    (hf : ∀ i l t, I (i :: l) t → Ensures (f i) t fun _ r => I l r) :
    ∀ {l : List ι} {s : σ}, I l s → Ensures (Procedure.forEach f l) s fun _ t => I [] t
  | [], _, h => ret h
  | i :: l, s, h => seq (hf i l s h) fun _ _ ht => forEach hf ht

theorem recurse {body : (ι → Procedure ω σ α) → ι → Procedure ω σ α} {P : ι → σ → Prop} {Q : ι → σ → α → σ → Prop}
    (hbody : ∀ call : ι → Procedure ω σ α, (∀ i s, P i s → Ensures (call i) s (Q i s)) →
      ∀ i s, P i s → Ensures (body call i) s (Q i s)) :
    ∀ (n : Nat) (i : ι) (s : σ), P i s → Ensures (Procedure.recurse body n i) s (Q i s)
  | 0, _, _, _ => fail
  | n + 1, i, s, h => hbody _ (recurse hbody n) i s h

end Ensures
end Circuit.Framework
