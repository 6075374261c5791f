import Mathlib.Data.List.Nodup
import Mathlib.Tactic.Abel
import Mathlib.Tactic.Linarith

/-!
# Best-first search

A search for cheap walks from a start in a graph whose edges cost something, guided by a consistent estimate of what is
left to pay, and blind to walks that cost `big` or more. Its state is its `Labels`: the cost and the parent of each vertex
and the vertices still open. `Inv` holds whenever the search picks the next vertex, `Expanding` while it looks along the
edges of the one it picked; `Inv.closed_le`, `Inv.pop_goal` and `Inv.exhausted` are what the labels say of all walks.
-/

namespace Circuit.Framework.BestFirst

open Function List

variable {V K : Type*} [AddCommGroup K] [LinearOrder K] {l : List V} {v w u : V} {c a : K}

structure Problem (V K : Type*) [AddCommGroup K] [LinearOrder K] where
  edge : V → V → K → Prop
  start : V
  est : V → K
  big : K
  nonneg : ∀ {u v c}, edge u v c → 0 ≤ c
  consistent : ∀ {u v c}, edge u v c → est u ≤ c + est v
  big_pos : 0 < big

inductive Walk (P : Problem V K) : List V → V → K → Prop
  | nil : Walk P [P.start] P.start 0
  | snoc {p : List V} {u v : V} {a c : K} : Walk P p u a → P.edge u v c → Walk P (p ++ [v]) v (a + c)

inductive Trace (parent : V → Option V) (s : V) : List V → V → Prop
  | root : parent s = none → Trace parent s [s] s
  | step {p : List V} {u v : V} : Trace parent s p u → parent v = some u → Trace parent s (p ++ [v]) v

theorem Trace.congr {parent parent' : V → Option V} {s : V} (h : Trace parent s l v)
    (he : ∀ w ∈ l, parent' w = parent w) : Trace parent' s l v := by
  induction h with
  | root e => exact .root ((he _ (by simp)).trans e)
  | step _ e ih => exact .step (ih fun w hw => he w (by simp [hw])) ((he _ (by simp)).trans e)

theorem Trace.exists_cons {parent : V → Option V} {s : V} (h : Trace parent s l v) : ∃ t, l = s :: t := by
  induction h with
  | root => exact ⟨[], rfl⟩
  | step _ _ ih =>
    obtain ⟨t, rfl⟩ := ih
    exact ⟨_, rfl⟩

@[ext]
structure Labels (V K : Type*) where
  g : V → K
  parent : V → Option V
  opn : Set V

def Labels.remove (L : Labels V K) (u : V) : Labels V K := { L with opn := L.opn \ {u} }

def Labels.relabel [DecidableEq V] (L : Labels V K) (v u : V) (a : K) : Labels V K where
  g := update L.g v a
  parent := update L.parent v (some u)
  opn := insert v L.opn

def Labels.Closed (L : Labels V K) (P : Problem V K) (v : V) : Prop := L.g v < P.big ∧ v ∉ L.opn

def Labels.f (L : Labels V K) (P : Problem V K) (v : V) : K := L.g v + P.est v

structure Inv (P : Problem V K) (L : Labels V K) (D : V → V → K → Prop) : Prop where
  start : L.g P.start = 0
  le_big : ∀ v, L.g v ≤ P.big
  open_lt : ∀ v ∈ L.opn, L.g v < P.big
  trace : ∀ v, L.g v < P.big → ∃ l, Trace L.parent P.start l v ∧ Walk P l v (L.g v) ∧
    (∀ w ∈ l, w = v ∨ L.Closed P w) ∧ l.Nodup
  relaxed : ∀ u v c, L.Closed P u → P.edge u v c → D u v c → L.g v ≤ L.g u + c
  order : ∀ u v, L.Closed P u → v ∈ L.opn → L.f P u ≤ L.f P v
  closed_le : ∀ u, L.Closed P u → ∀ l a, Walk P l u a → L.g u ≤ a

structure Expanding (P : Problem V K) (L : Labels V K) (u : V) (D : V → V → K → Prop) : Prop extends Inv P L D where
  closed : L.Closed P u
  top : ∀ w, L.Closed P w → L.f P w ≤ L.f P u

structure Least (P : Problem V K) (L : Labels V K) (u : V) : Prop where
  mem : u ∈ L.opn
  le : ∀ v ∈ L.opn, L.f P u ≤ L.f P v

variable {P : Problem V K} {L : Labels V K} {D : V → V → K → Prop}

theorem Inv.init [DecidableEq V] (hg : ∀ v, L.g v = if v = P.start then 0 else P.big)
    (hp : L.parent P.start = none) (ho : L.opn = {P.start}) : Inv P L D := by
  have hs : ∀ v, L.g v < P.big → v = P.start := fun v h => by
    by_contra hv
    rw [hg, if_neg hv] at h
    exact lt_irrefl _ h
  have hc : ∀ v, ¬ L.Closed P v := fun v ⟨h, hn⟩ => hn (by rw [ho]; exact hs v h)
  refine ⟨by rw [hg, if_pos rfl], fun v => ?_, fun v hv => ?_, fun v hv => ?_, fun u _ _ h => absurd h (hc u),
    fun u _ h => absurd h (hc u), fun u h => absurd h (hc u)⟩
  · rw [hg]; split
    exacts [P.big_pos.le, le_rfl]
  · rw [ho, Set.mem_singleton_iff] at hv
    rw [hg, if_pos hv]; exact P.big_pos
  · obtain rfl := hs v hv
    rw [hg, if_pos rfl]
    exact ⟨_, .root hp, .nil, by simp, by simp⟩

omit [AddCommGroup K] [LinearOrder K] in
@[simp]
theorem Labels.relabel_g_self [DecidableEq V] (v u : V) (a : K) : (L.relabel v u a).g v = a :=
  update_self _ _ _

omit [AddCommGroup K] [LinearOrder K] in
theorem Labels.relabel_g_of_ne [DecidableEq V] (h : w ≠ v) (u : V) (a : K) : (L.relabel v u a).g w = L.g w :=
  update_of_ne h _ _

omit [AddCommGroup K] [LinearOrder K] in
@[simp]
theorem Labels.relabel_parent_self [DecidableEq V] (v u : V) (a : K) : (L.relabel v u a).parent v = some u :=
  update_self _ _ _

omit [AddCommGroup K] [LinearOrder K] in
theorem Labels.relabel_parent_of_ne [DecidableEq V] (h : w ≠ v) (u : V) (a : K) :
    (L.relabel v u a).parent w = L.parent w :=
  update_of_ne h _ _

theorem Labels.closed_remove (hu : L.g u < P.big) (v : V) : (L.remove u).Closed P v ↔ L.Closed P v ∨ v = u := by
  by_cases e : v = u
  · subst e
    simp [Labels.Closed, Labels.remove, hu]
  · simp [Labels.Closed, Labels.remove, e]

theorem Expanding.skip (I : Expanding P L u D) (hle : L.g v ≤ L.g u + c) :
    Expanding P L u fun w x d => D w x d ∨ w = u ∧ x = v ∧ d = c :=
  { I with
    relaxed := by
      rintro w x d hw e (h | ⟨rfl, rfl, rfl⟩)
      exacts [I.relaxed w x d hw e h, hle] }

theorem Expanding.not_closed (I : Expanding P L u D) (e : P.edge u v c) (hlt : L.g u + c < L.g v) : ¬ L.Closed P v := by
  intro h
  obtain ⟨l, -, hw, -⟩ := I.trace u I.closed.1
  exact not_lt.mpr (I.closed_le v h _ _ (hw.snoc e)) hlt

theorem Labels.closed_relabel [DecidableEq V] (hv : ¬ L.Closed P v) (w : V) :
    (L.relabel v u a).Closed P w ↔ L.Closed P w := by
  by_cases h : w = v
  · subst h
    exact iff_of_false (fun hw => hw.2 (Set.mem_insert _ _)) hv
  · simp [Labels.Closed, Labels.relabel, h]

theorem Inv.trace_relabel [DecidableEq V] (I : Inv P L D) (hu : L.Closed P u)
    (hv : ¬ L.Closed P v) (e : P.edge u v c) (hw : (L.relabel v u (L.g u + c)).g w < P.big) :
    ∃ l, Trace (L.relabel v u (L.g u + c)).parent P.start l w ∧ Walk P l w ((L.relabel v u (L.g u + c)).g w) ∧
      (∀ x ∈ l, x = w ∨ L.Closed P x) ∧ l.Nodup := by
  have hne : ∀ x, L.Closed P x → x ≠ v := fun x hx h => hv (h ▸ hx)
  have hp : ∀ x, x ≠ v → (L.relabel v u (L.g u + c)).parent x = L.parent x := fun x hx =>
    Labels.relabel_parent_of_ne hx _ _
  by_cases h : w = v
  · subst h
    obtain ⟨l, ht, hwk, hm, hn⟩ := I.trace u hu.1
    have hc : ∀ x ∈ l, L.Closed P x := fun x hx => (hm x hx).elim (· ▸ hu) id
    refine ⟨l ++ [w], (ht.congr fun x hx => hp x (hne x (hc x hx))).step (Labels.relabel_parent_self _ _ _), ?_,
      fun x hx => ?_, nodup_append.mpr ⟨hn, by simp, fun x hx y hy => ?_⟩⟩
    · simpa using hwk.snoc e
    · rcases mem_append.mp hx with hx | hx
      exacts [.inr (hc x hx), .inl (mem_singleton.mp hx)]
    · rw [mem_singleton.mp hy]
      exact hne x (hc x hx)
  · rw [Labels.relabel_g_of_ne h] at hw ⊢
    obtain ⟨l, ht, hwk, hm, hn⟩ := I.trace w hw
    exact ⟨l, ht.congr fun x hx => hp x ((hm x hx).elim (· ▸ h) (hne x)), hwk, hm, hn⟩

theorem Expanding.mono (I : Expanding P L u D) {D' : V → V → K → Prop}
    (h : ∀ w x c, P.edge w x c → D' w x c → D w x c) : Expanding P L u D' :=
  { I with relaxed := fun w x c hw e hD => I.relaxed w x c hw e (h w x c e hD) }

theorem Expanding.finish (I : Expanding P L u D) (h : ∀ w x c, P.edge w x c → D w x c) : Inv P L P.edge :=
  (I.mono fun w x c e _ => h w x c e).toInv

variable [IsOrderedAddMonoid K]

theorem Walk.nonneg {p : List V} (h : Walk P p v a) : 0 ≤ a := by
  induction h with
  | nil => exact le_rfl
  | snoc _ e ih => exact add_nonneg ih (P.nonneg e)

theorem Inv.frontier (I : Inv P L P.edge) (w : Walk P l v a) (ha : a < P.big) :
    L.Closed P v ∧ L.g v ≤ a ∨ ∃ x ∈ L.opn, L.f P x ≤ a + P.est v := by
  -- along the walk; a vertex after a closed one is labelled, since the edge has been looked along
  induction w with
  | nil =>
    by_cases ho : P.start ∈ L.opn
    · exact .inr ⟨_, ho, by rw [Labels.f, I.start]⟩
    · exact .inl ⟨⟨by rw [I.start]; exact ha, ho⟩, I.start.le⟩
  | @snoc p u v a c w e ih =>
    have hc := P.nonneg e
    rcases ih (lt_of_le_of_lt (le_add_of_nonneg_right hc) ha) with ⟨hu, hg⟩ | ⟨x, hx, hf⟩
    · have hv : L.g v ≤ a + c := (I.relaxed u v c hu e e).trans (by gcongr)
      by_cases ho : v ∈ L.opn
      · exact .inr ⟨v, ho, by rw [Labels.f]; gcongr⟩
      · exact .inl ⟨⟨lt_of_le_of_lt hv ha, ho⟩, hv⟩
    · refine .inr ⟨x, hx, hf.trans ?_⟩
      rw [add_assoc]
      exact add_le_add_right (P.consistent e) a

theorem Inv.least_le (I : Inv P L P.edge) (hu : Least P L u) (w : Walk P l u a) : L.g u ≤ a := by
  by_cases ha : a < P.big
  · rcases I.frontier w ha with ⟨⟨-, hn⟩, -⟩ | ⟨x, hx, hf⟩
    · exact absurd hu.mem hn
    · exact le_of_add_le_add_right ((hu.le x hx).trans hf)
  · exact (I.open_lt u hu.mem).le.trans (not_lt.mp ha)

theorem Inv.pop_goal (I : Inv P L P.edge) (hu : Least P L u) (hv : ¬ L.Closed P v)
    (w : Walk P l v a) (ha : a < P.big) : L.f P u ≤ a + P.est v := by
  rcases I.frontier w ha with ⟨hc, -⟩ | ⟨x, hx, hf⟩
  · exact absurd hc hv
  · exact (hu.le x hx).trans hf

theorem Inv.exhausted (I : Inv P L P.edge) (ho : ∀ v, v ∉ L.opn)
    (w : Walk P l v a) (ha : a < P.big) : L.Closed P v := by
  rcases I.frontier w ha with ⟨hc, -⟩ | ⟨x, hx, -⟩
  · exact hc
  · exact absurd hx (ho x)

theorem Inv.pop (I : Inv P L P.edge) (hu : Least P L u) : Expanding P (L.remove u) u fun w _ _ => w ≠ u := by
  have hc := Labels.closed_remove (I.open_lt u hu.mem)
  have htop : ∀ w, (L.remove u).Closed P w → L.f P w ≤ L.f P u := by
    intro w hw
    rcases (hc w).mp hw with hw | rfl
    exacts [I.order w u hw hu.mem, le_rfl]
  refine ⟨⟨I.start, I.le_big, fun v hv => I.open_lt v hv.1, fun v hv => ?_, fun w v c hw e hne => ?_,
    fun w v hw hv => (htop w hw).trans (hu.le v hv.1), fun w hw l a wk => ?_⟩, (hc u).mpr (.inr rfl), htop⟩
  · obtain ⟨l, ht, hw, hm, hn⟩ := I.trace v hv
    exact ⟨l, ht, hw, fun x hx => (hm x hx).imp_right fun h => (hc x).mpr (.inl h), hn⟩
  · exact I.relaxed w v c (((hc w).mp hw).resolve_right hne) e e
  · rcases (hc w).mp hw with hw | rfl
    exacts [I.closed_le w hw l a wk, I.least_le hu wk]

theorem Expanding.relax [DecidableEq V] (I : Expanding P L u D) (e : P.edge u v c) (hlt : L.g u + c < L.g v) :
    Expanding P (L.relabel v u (L.g u + c)) u fun w x d => D w x d ∨ w = u ∧ x = v ∧ d = c := by
  have hv := I.not_closed e hlt
  have hc := Labels.closed_relabel (u := u) (a := L.g u + c) hv
  have hgc : ∀ w, L.Closed P w → (L.relabel v u (L.g u + c)).g w = L.g w := fun w hw =>
    Labels.relabel_g_of_ne (by rintro rfl; exact hv hw) _ _
  have hfc : ∀ w, L.Closed P w → (L.relabel v u (L.g u + c)).f P w = L.f P w := fun w hw => by
    rw [Labels.f, Labels.f, hgc w hw]
  have hle : ∀ w, (L.relabel v u (L.g u + c)).g w ≤ L.g w := fun w => by
    by_cases h : w = v
    · rw [h, Labels.relabel_g_self]; exact hlt.le
    · exact (Labels.relabel_g_of_ne h _ _).le
  have htop : ∀ w, (L.relabel v u (L.g u + c)).Closed P w →
      (L.relabel v u (L.g u + c)).f P w ≤ (L.relabel v u (L.g u + c)).f P u := fun w hw => by
    rw [hfc w ((hc w).mp hw), hfc u I.closed]; exact I.top w ((hc w).mp hw)
  refine ⟨⟨?_, fun w => (hle w).trans (I.le_big w), fun w hw => ?_, fun w hw => ?_, fun w x d hw he hD => ?_,
    fun w x hw hx => (htop w hw).trans ?_, fun w hw l a wk => ?_⟩, (hc u).mpr I.closed, htop⟩
  · have hs : P.start ≠ v := by
      rintro rfl
      obtain ⟨l, -, hw, -⟩ := I.trace u I.closed.1
      rw [I.start] at hlt
      exact not_lt.mpr (add_nonneg hw.nonneg (P.nonneg e)) hlt
    exact (Labels.relabel_g_of_ne hs _ _).trans I.start
  · rcases hw with rfl | hw
    · rw [Labels.relabel_g_self]; exact hlt.trans_le (I.le_big _)
    · exact lt_of_le_of_lt (hle w) (I.open_lt w hw)
  · obtain ⟨l, ht, hwk, hm, hn⟩ := I.trace_relabel I.closed hv e hw
    exact ⟨l, ht, hwk, fun x hx => (hm x hx).imp_right (hc x).mpr, hn⟩
  · rw [hgc w ((hc w).mp hw)]
    rcases hD with hD | ⟨rfl, rfl, rfl⟩
    exacts [(hle x).trans (I.relaxed w x d ((hc w).mp hw) he hD), (Labels.relabel_g_self _ _ _).le]
  · rw [hfc u I.closed]
    by_cases h : x = v
    · rw [Labels.f, Labels.f, h, Labels.relabel_g_self, add_assoc]
      exact add_le_add_right (P.consistent e) _
    · have hf : (L.relabel v u (L.g u + c)).f P x = L.f P x := by
        rw [Labels.f, Labels.f, Labels.relabel_g_of_ne h]
      rw [hf]
      exact I.order u x I.closed (hx.resolve_left h)
  · rw [hgc w ((hc w).mp hw)]
    exact I.closed_le w ((hc w).mp hw) l a wk

end Circuit.Framework.BestFirst
