import CircuitAI.Framework.EvenMarks
import CircuitAI.Spec.ClusterGraph
import Mathlib.Analysis.Real.Sqrt
import Mathlib.Data.Finset.Sym

/-!
# Connection after pruning

* `mem_triangulateGraph`: an edge of the triangulation is dropped if and only if it is bad;
* `triangulateGraph_connects`, `replaceable_of_connects`: the clusters stay connected if the bad edges are replaceable, and
  in the plane only then: a triangle with a lost edge has a second one, so that lost edges cut the plane in two;
* `replaceable_of_shorter`, `replaceable_of_flat_once`: they are, if every bad edge is the longest side of one of its
  triangles, and so if no triangle is flat over two of its sides;
* `buildClusterGraph_splits`: two long sides of one thin triangle are both dropped, and nothing replaces them.
-/

set_option linter.unusedSectionVars false

namespace Circuit.Spec.ClusterGraph

open Framework Relation Impl.MetalData List

variable {K : Type*} [Field K] [LinearOrder K] {n : ℕ} {triangles : List (Triangle n)}
  {distance : Fin n → Fin n → K} {a b c : Fin n}

/-! ## The map of edges -/

variable {e : DEdge n} {x : Fin n} {points : List (Fin n)}

theorem IsTriangle.swap (h : IsTriangle triangles a b c) : IsTriangle triangles b a c := by
  obtain ⟨t, ht, hmem⟩ := h
  refine ⟨t, ht, ?_⟩
  simp only [mem_cons, not_mem_nil, or_false] at hmem ⊢
  tauto

theorem IsTriangle.rotate (h : IsTriangle triangles a b c) : IsTriangle triangles b c a := by
  obtain ⟨t, ht, hmem⟩ := h
  refine ⟨t, ht, ?_⟩
  simp only [mem_cons, not_mem_nil, or_false] at hmem ⊢
  tauto

theorem dEdge_eq (e : DEdge n) : e = dEdge a b ↔ e.1 ≤ e.2 ∧ (e = (a, b) ∨ e = (b, a)) := by
  unfold dEdge
  split
  · rename_i h
    constructor
    · rintro rfl
      exact ⟨h.le, .inr rfl⟩
    · rintro ⟨hle, rfl | rfl⟩
      · exact absurd h (not_lt.mpr hle)
      · rfl
  · rename_i h
    have hle := not_lt.mp h
    constructor
    · rintro rfl
      exact ⟨hle, .inl rfl⟩
    · rintro ⟨hle', rfl | rfl⟩
      · rfl
      · have : a = b := le_antisymm hle hle'
        rw [this]

theorem mem_adjacent (edges : EdgeMap n) : x ∈ edges.adjacent a b c e ↔ x ∈ edges e ∨ (e = dEdge a b ∧ x = c) := by
  unfold EdgeMap.adjacent
  by_cases h : e = dEdge a b
  · rw [h, Function.update_self, mem_insert_iff]
    simp [or_comm]
  · rw [Function.update_of_ne h]
    simp [h]

theorem mem_addTriangle (edges : EdgeMap n) (t : Triangle n) :
    x ∈ edges.addTriangle t e ↔ x ∈ edges e ∨ (e.1 ≤ e.2 ∧ IsTriangle [t] e.1 e.2 x) := by
  obtain ⟨a, b, c⟩ := t
  obtain ⟨i, j⟩ := e
  simp only [EdgeMap.addTriangle, mem_adjacent, dEdge_eq, IsTriangle, exists_eq_left, mem_cons,
    not_mem_nil, or_false, Prod.mk.injEq]
  grind

theorem isTriangle_cons {t : Triangle n} :
    IsTriangle (t :: triangles) a b c ↔ IsTriangle [t] a b c ∨ IsTriangle triangles a b c := by
  simp [IsTriangle]

theorem mem_ofTriangles : x ∈ EdgeMap.ofTriangles triangles e ↔ e.1 ≤ e.2 ∧ IsTriangle triangles e.1 e.2 x := by
  have hfold : ∀ edges : EdgeMap n, x ∈ triangles.foldl EdgeMap.addTriangle edges e ↔
      x ∈ edges e ∨ (e.1 ≤ e.2 ∧ IsTriangle triangles e.1 e.2 x) := by
    induction triangles with
    | nil => simp [IsTriangle]
    | cons t triangles ih =>
      intro edges
      rw [foldl_cons, ih, mem_addTriangle, or_assoc, ← and_or_left, ← isTriangle_cons]
  rw [EdgeMap.ofTriangles, hfold]
  simp

theorem mem_keys : e ∈ (EdgeMap.ofTriangles triangles).keys ↔ e.1 ≤ e.2 ∧ Side triangles e.1 e.2 := by
  simp only [EdgeMap.keys, mem_filter, decide_eq_true_eq, ne_eq, eq_nil_iff_forall_not_mem, not_forall,
    not_not, mem_ofTriangles, Side]
  simp [product]

theorem mem_triangulateGraph : e ∈ triangulateGraph (some triangles) points distance ↔
      e.1 ≤ e.2 ∧ Side triangles e.1 e.2 ∧ ¬ Bad distance triangles e.1 e.2 := by
  have hbad : e.1 ≤ e.2 → (badEdge distance e (EdgeMap.ofTriangles triangles e) = true ↔
      Bad distance triangles e.1 e.2) := by
    intro hle
    simp [badEdge, Bad, Flat, mem_ofTriangles, hle]
  simp only [triangulateGraph, mem_filter, mem_keys, Bool.not_eq_true', ← Bool.not_eq_true]
  constructor
  · rintro ⟨⟨hle, hside⟩, h⟩
    exact ⟨hle, hside, fun hb => h ((hbad hle).mpr hb)⟩
  · rintro ⟨hle, hside, h⟩
    exact ⟨⟨hle, hside⟩, fun hb => h ((hbad hle).mp hb)⟩

/-! ## Connection -/

def Kept (distance : Fin n → Fin n → K) (triangles : List (Triangle n)) (points : List (Fin n)) (a b : Fin n) : Prop :=
  (a, b) ∈ triangulateGraph (some triangles) points distance

theorem eqvGen_stays {r : Fin n → Fin n → Prop} {p : Fin n → Prop} (hr : ∀ a b, r a b → (p a ↔ p b))
    (h : EqvGen r a b) : p a ↔ p b := by
  induction h with
  | rel a b hab => exact hr a b hab
  | refl a => rfl
  | symm a b _ ih => exact ih.symm
  | trans a b c _ _ ih ih' => exact ih.trans ih'

section Symmetric

variable (hsymm : ∀ a b, distance a b = distance b a)

include hsymm

theorem Flat.swap (h : Flat distance a b c) : Flat distance b a c := by
  unfold Flat at h ⊢
  rwa [hsymm b a, add_comm]

theorem bad_swap : Bad distance triangles a b ↔ Bad distance triangles b a :=
  ⟨fun ⟨c, hc, h⟩ => ⟨c, hc.swap, h.swap hsymm⟩, fun ⟨c, hc, h⟩ => ⟨c, hc.swap, h.swap hsymm⟩⟩

theorem joined_of_side (hside : Side triangles a b) (hbad : ¬ Bad distance triangles a b) :
    EqvGen (Kept distance triangles points) a b := by
  rcases le_total a b with hle | hle
  · exact .rel _ _ (mem_triangulateGraph.mpr ⟨hle, hside, hbad⟩)
  · obtain ⟨c, hc⟩ := hside
    exact .symm _ _ (.rel _ _ (mem_triangulateGraph.mpr ⟨hle, ⟨c, hc.swap⟩, fun h => hbad ((bad_swap hsymm).mpr h)⟩))

theorem joined_of_spared (h : Spared distance triangles a b) : EqvGen (Kept distance triangles points) a b := by
  induction h with
  | @around a b c hc _ _ ihac ihcb =>
    have hpart : ∀ x y, Side triangles x y → (Bad distance triangles x y → EqvGen (Kept distance triangles points) x y) →
        EqvGen (Kept distance triangles points) x y :=
      fun x y hside ih => (em (Bad distance triangles x y)).elim ih (joined_of_side hsymm hside)
    exact (hpart a c ⟨b, hc.swap.rotate⟩ ihac).trans _ _ _ (hpart c b ⟨a, hc.rotate.swap⟩ ihcb)

theorem triangulateGraph_connects (hsides : Connects (Side triangles)) (h : Replaceable distance triangles) :
    Connects (Kept distance triangles points) := by
  intro a b
  apply (EqvGen.is_equivalence _).eqvGen_iff.mp
  refine EqvGen.mono (fun x y hxy => ?_) _ _ (hsides a b)
  by_cases hbad : Bad distance triangles x y
  · exact joined_of_spared hsymm (h x y hbad)
  · exact joined_of_side hsymm hxy hbad

/-! ## Edges that are lost -/

theorem Spared.swap (h : Spared distance triangles a b) : Spared distance triangles b a := by
  induction h with
  | around c hc _ _ ihac ihcb =>
    exact .around c hc.swap (fun h => ihcb ((bad_swap hsymm).mp h)) fun h => ihac ((bad_swap hsymm).mp h)

def Lost (distance : Fin n → Fin n → K) (triangles : List (Triangle n)) (a b : Fin n) : Prop :=
  Bad distance triangles a b ∧ ¬Spared distance triangles a b

theorem Lost.swap (h : Lost distance triangles a b) : Lost distance triangles b a :=
  ⟨(bad_swap hsymm).mp h.1, fun hs => h.2 (hs.swap hsymm)⟩

omit hsymm in
theorem Lost.exists_other (h : Lost distance triangles a b) (hc : IsTriangle triangles a b c) :
    Lost distance triangles a c ∨ Lost distance triangles c b := by
  by_contra hnone
  obtain ⟨hac, hcb⟩ := not_or.mp hnone
  exact h.2 (.around c hc (fun hb => not_not.mp fun hs => hac ⟨hb, hs⟩) fun hb => not_not.mp fun hs => hcb ⟨hb, hs⟩)

omit hsymm in
theorem exists_third {y z : Fin n} (h : IsTriangle triangles x y z)
    (hab : s(a, b) ∈ ({s(x, y), s(y, z), s(z, x)} : Finset (Sym2 (Fin n)))) :
    ∃ c, IsTriangle triangles a b c ∧ ({s(x, y), s(y, z), s(z, x)} : Finset _) = {s(a, b), s(b, c), s(c, a)} := by
  simp only [Finset.mem_insert, Finset.mem_singleton, Sym2.eq_iff] at hab
  rcases hab with (⟨rfl, rfl⟩ | ⟨rfl, rfl⟩) | (⟨rfl, rfl⟩ | ⟨rfl, rfl⟩) | ⟨rfl, rfl⟩ | ⟨rfl, rfl⟩
  · exact ⟨z, h, rfl⟩
  · exact ⟨z, h.swap, by grind⟩
  · exact ⟨x, h.rotate, by grind⟩
  · exact ⟨x, h.rotate.swap, by grind⟩
  · exact ⟨y, h.rotate.rotate, by grind⟩
  · exact ⟨y, h.rotate.rotate.swap, by grind⟩

section Cut

open scoped Classical

noncomputable def lostEdges (distance : Fin n → Fin n → K) (triangles : List (Triangle n)) : Finset (Sym2 (Fin n)) :=
  Finset.univ.filter fun e => ∃ a b, e = s(a, b) ∧ Lost distance triangles a b

noncomputable def lostTriangles (distance : Fin n → Fin n → K) (triangles : List (Triangle n)) :
    Finset (Finset (Sym2 (Fin n))) :=
  Finset.univ.filter fun t => (∃ a b c, IsTriangle triangles a b c ∧ t = {s(a, b), s(b, c), s(c, a)}) ∧
    ∃ e ∈ lostEdges distance triangles, e ∈ t

theorem mem_lostEdges : s(a, b) ∈ lostEdges distance triangles ↔ Lost distance triangles a b := by
  refine ⟨fun h => ?_, fun h => Finset.mem_filter.mpr ⟨Finset.mem_univ _, a, b, rfl, h⟩⟩
  obtain ⟨x, y, hxy, hlost⟩ := (Finset.mem_filter.mp h).2
  rcases Sym2.eq_iff.mp hxy with ⟨rfl, rfl⟩ | ⟨rfl, rfl⟩
  · exact hlost
  · exact hlost.swap hsymm

omit hsymm in
theorem exists_third_of_lost {t : Finset (Sym2 (Fin n))} (ht : t ∈ lostTriangles distance triangles) (hab : s(a, b) ∈ t) :
    ∃ c, IsTriangle triangles a b c ∧ t = {s(a, b), s(b, c), s(c, a)} := by
  obtain ⟨⟨x, y, z, hxyz, rfl⟩, -⟩ := (Finset.mem_filter.mp ht).2
  exact exists_third hxyz hab

variable (hplanar : Planar triangles)

include hplanar

theorem two_le_lost {t : Finset (Sym2 (Fin n))} (ht : t ∈ lostTriangles distance triangles) :
    2 ≤ ((lostEdges distance triangles).filter (· ∈ t)).card := by
  obtain ⟨-, e, he, het⟩ := (Finset.mem_filter.mp ht).2
  obtain ⟨a, b, rfl, hlost⟩ := (Finset.mem_filter.mp he).2
  obtain ⟨c, hc, rfl⟩ := exists_third_of_lost ht het
  have hbc := hplanar.proper b c a hc.rotate
  have hca := hplanar.proper c a b hc.rotate.rotate
  refine Finset.one_lt_card.mpr ⟨s(a, b), by simp [mem_lostEdges hsymm, hlost], ?_⟩
  rcases hlost.exists_other hc with h | h
  · exact ⟨s(c, a), by simp [mem_lostEdges hsymm, h.swap hsymm], by grind⟩
  · exact ⟨s(b, c), by simp [mem_lostEdges hsymm, h.swap hsymm], by grind⟩

omit hsymm in
theorem lost_le_two {e : Sym2 (Fin n)} (he : e ∈ lostEdges distance triangles) :
    ((lostTriangles distance triangles).filter (e ∈ ·)).card ≤ 2 := by
  obtain ⟨a, b, rfl, -⟩ := (Finset.mem_filter.mp he).2
  by_contra hlt
  obtain ⟨t, ht, t', ht', t'', ht'', hne, hne', hne''⟩ := Finset.two_lt_card.mp (not_le.mp hlt)
  rw [Finset.mem_filter] at ht ht' ht''
  obtain ⟨c, hc, rfl⟩ := exists_third_of_lost ht.1 ht.2
  obtain ⟨c', hc', rfl⟩ := exists_third_of_lost ht'.1 ht'.2
  obtain ⟨c'', hc'', rfl⟩ := exists_third_of_lost ht''.1 ht''.2
  rcases hplanar.twice a b c c' c'' hc hc' hc'' with rfl | rfl | rfl
  · exact hne rfl
  · exact hne' rfl
  · exact hne'' rfl

theorem exists_parts (h : Lost distance triangles a b) : ∃ part : Fin n → ZMod 2,
    (∃ x y, Side triangles x y ∧ part x ≠ part y) ∧
      ∀ x y, Side triangles x y → ¬Lost distance triangles x y → part x = part y := by
  obtain ⟨cross, ⟨e, he⟩, hzero, heven⟩ := exists_even_marks id ⟨s(a, b), (mem_lostEdges hsymm).mpr h⟩
    (fun t => two_le_lost hsymm hplanar) fun e => lost_le_two hplanar
  obtain ⟨part, hpart⟩ := hplanar.gapless cross fun a b c hc => by
    have hab := hplanar.proper a b c hc
    have hbc := hplanar.proper b c a hc.rotate
    have hca := hplanar.proper c a b hc.rotate.rotate
    by_cases hlost : ∃ e ∈ lostEdges distance triangles, e ∈ ({s(a, b), s(b, c), s(c, a)} : Finset (Sym2 (Fin n)))
    · have hsum := heven _ (Finset.mem_filter.mpr ⟨Finset.mem_univ _, ⟨a, b, c, hc, rfl⟩, hlost⟩)
      rw [id, Finset.sum_insert (by grind), Finset.sum_insert (by grind), Finset.sum_singleton] at hsum
      rwa [add_assoc]
    · have hnone : ∀ e ∈ ({s(a, b), s(b, c), s(c, a)} : Finset (Sym2 (Fin n))), cross e = 0 :=
        fun e he => hzero e fun h => hlost ⟨e, h, he⟩
      rw [hnone _ (by simp), hnone _ (by simp), hnone _ (by simp)]
      rfl
  refine ⟨part, ?_, fun x y hside hlost => ?_⟩
  · obtain ⟨x, y, rfl, hlost⟩ := (Finset.mem_filter.mp (not_not.mp fun h => he (hzero e h))).2
    obtain ⟨c, hc, -⟩ := hlost.1
    refine ⟨x, y, ⟨c, hc⟩, fun hxy => he ?_⟩
    rw [hpart x y ⟨c, hc⟩, hxy]
    exact CharTwo.add_self_eq_zero _
  · have hsum := hpart x y hside
    rw [hzero _ fun h => hlost ((mem_lostEdges hsymm).mp h)] at hsum
    exact CharTwo.add_eq_zero.mp hsum.symm

theorem replaceable_of_connects (h : Connects (Kept distance triangles points)) : Replaceable distance triangles := by
  intro a b hbad
  by_contra hspared
  obtain ⟨part, ⟨x, y, -, hne⟩, hpart⟩ := exists_parts hsymm hplanar ⟨hbad, hspared⟩
  have hkept : ∀ u v, Kept distance triangles points u v → (part u = part x ↔ part v = part x) := by
    intro u v huv
    obtain ⟨-, hside, hgood⟩ := mem_triangulateGraph.mp huv
    rw [hpart u v hside fun hlost => hgood hlost.1]
  exact hne ((eqvGen_stays hkept (h x y)).mp rfl).symm

end Cut

end Symmetric

theorem chain_reaches (a : Fin n) (points : List (Fin n)) :
    ∀ b ∈ points, EqvGen (fun x y => (x, y) ∈ (a :: points).zip points) a b := by
  induction points generalizing a with
  | nil => nofun
  | cons c points ih =>
    intro b hb
    have hac : EqvGen (fun x y => (x, y) ∈ (a :: c :: points).zip (c :: points)) a c := .rel _ _ mem_cons_self
    rcases mem_cons.mp hb with rfl | hb
    · exact hac
    · exact hac.trans _ _ _ (EqvGen.mono (fun x y h => mem_cons_of_mem _ h) _ _ (ih c b hb))

theorem makeConvexHull_connects (h : ∀ i, i ∈ points) : Connects fun a b => (a, b) ∈ makeConvexHull points := by
  intro a b
  cases hlast : points.getLast? with
  | none =>
    rw [getLast?_eq_none_iff.mp hlast] at h
    cases h a
  | some last =>
    have hsplit : points = points.dropLast ++ [last] := (dropLast_append_getLast? last hlast).symm
    have hreach : ∀ i, EqvGen (fun x y => (x, y) ∈ makeConvexHull points) last i := by
      intro i
      have hi := h i
      rw [hsplit, mem_append, mem_singleton] at hi
      simp only [makeConvexHull, hlast]
      rcases hi with hi | rfl
      · exact chain_reaches last _ i hi
      · exact .refl i
    exact (hreach a).symm.trans _ _ _ (hreach b)

theorem clusterDistance_comm (sqrt : K → K) (clusters : Fin n → SCluster K) (a b : Fin n) :
    clusterDistance sqrt clusters a b = clusterDistance sqrt clusters b a := by
  unfold clusterDistance AIFloat3.distance
  congr 1
  ring

theorem joined_iff (sqrt : K → K) (clusters : Fin n → SCluster K)
    {delaunator : (Fin n → K × K) → Option (List (Triangle n))} {points : (Fin n → K × K) → List (Fin n)} (hn : 3 ≤ n) :
    Joined (buildClusterGraph sqrt clusters delaunator points) a b ↔
      (a, b) ∈ triangulateGraph (delaunator (clusterCoords clusters)) (points (clusterCoords clusters))
        (clusterDistance sqrt clusters) := by
  unfold buildClusterGraph
  rw [dif_neg (by omega), if_neg (by omega)]
  constructor
  · rintro ⟨e, he, rfl, rfl⟩
    obtain ⟨e', he', rfl⟩ := mem_map.mp he
    exact he'
  · exact fun h => ⟨_, mem_map_of_mem h, rfl, rfl⟩

theorem buildClusterGraph_connects_few (sqrt : K → K) (clusters : Fin n → SCluster K)
    {delaunator : (Fin n → K × K) → Option (List (Triangle n))} {points : (Fin n → K × K) → List (Fin n)} (hn : n < 3) :
    Connects (Joined (buildClusterGraph sqrt clusters delaunator points)) := by
  intro a b
  unfold buildClusterGraph
  split
  · have : a = b := Fin.ext (by omega)
    exact this ▸ .refl a
  · obtain rfl : n = 2 := by omega
    have hreach : ∀ i : Fin 2, EqvGen (Joined [clusterEdge sqrt clusters (0, 1)]) 0 i := by
      intro i
      match i with
      | 0 => exact .refl 0
      | 1 => exact .rel _ _ ⟨_, mem_cons_self, rfl, rfl⟩
    exact (hreach a).symm.trans _ _ _ (hreach b)

/-- The clusters are connected, if those of the triangulation are and its bad edges are replaceable. If the triangulation
is planar they are connected only in this case. -/
theorem buildClusterGraph_connects (sqrt : K → K) (clusters : Fin n → SCluster K)
    (delaunator : (Fin n → K × K) → Option (List (Triangle n))) (points : (Fin n → K × K) → List (Fin n))
    (hpoints : ∀ i, i ∈ points (clusterCoords clusters))
    (hsides : ∀ triangles, delaunator (clusterCoords clusters) = some triangles → Connects (Side triangles)) :
    ((∀ triangles, delaunator (clusterCoords clusters) = some triangles →
      Replaceable (clusterDistance sqrt clusters) triangles) →
        Connects (Joined (buildClusterGraph sqrt clusters delaunator points))) ∧
    ∀ triangles, delaunator (clusterCoords clusters) = some triangles → Planar triangles → 3 ≤ n →
      (Connects (Joined (buildClusterGraph sqrt clusters delaunator points)) ↔
        Replaceable (clusterDistance sqrt clusters) triangles) := by
  have hconnects : (∀ triangles, delaunator (clusterCoords clusters) = some triangles →
      Replaceable (clusterDistance sqrt clusters) triangles) →
        Connects (Joined (buildClusterGraph sqrt clusters delaunator points)) := by
    intro h a b
    by_cases hn : 3 ≤ n
    · have hedges : Connects fun a b => (a, b) ∈ triangulateGraph (delaunator (clusterCoords clusters))
          (points (clusterCoords clusters)) (clusterDistance sqrt clusters) := by
        cases hd : delaunator (clusterCoords clusters) with
        | none => exact makeConvexHull_connects hpoints
        | some triangles => exact triangulateGraph_connects (clusterDistance_comm sqrt clusters) (hsides _ hd) (h _ hd)
      exact EqvGen.mono (fun x y => (joined_iff sqrt clusters hn).mpr) _ _ (hedges a b)
    · exact buildClusterGraph_connects_few sqrt clusters (not_le.mp hn) a b
  refine ⟨hconnects, fun triangles hd hplanar hn => ⟨fun h => ?_, fun h => hconnects fun triangles' hd' => ?_⟩⟩
  · have hkept : Connects (Kept (clusterDistance sqrt clusters) triangles (points (clusterCoords clusters))) := by
      refine fun a b => EqvGen.mono (fun x y hxy => ?_) _ _ (h a b)
      rwa [joined_iff sqrt clusters hn, hd] at hxy
    exact replaceable_of_connects (clusterDistance_comm sqrt clusters) hplanar hkept
  · cases hd.symm.trans hd'
    exact h

/-! ## Replaceable edges -/

theorem replaceable_of_shorter (h : ∀ a b, Bad distance triangles a b → ∃ c, IsTriangle triangles a b c ∧
    distance a c < distance a b ∧ distance c b < distance a b) : Replaceable distance triangles := by
  have hrank : ∀ a b c d : Fin n, distance c d < distance a b →
      (Finset.univ.filter fun e : Fin n × Fin n => distance e.1 e.2 < distance c d).card <
        (Finset.univ.filter fun e : Fin n × Fin n => distance e.1 e.2 < distance a b).card := by
    intro a b c d hlt
    apply Finset.card_lt_card
    refine Finset.ssubset_iff_subset_ne.mpr ⟨fun e he => ?_, fun heq => ?_⟩
    · rw [Finset.mem_filter] at he ⊢
      exact ⟨he.1, he.2.trans hlt⟩
    · have hmem : (c, d) ∈ Finset.univ.filter fun e : Fin n × Fin n => distance e.1 e.2 < distance a b :=
        Finset.mem_filter.mpr ⟨Finset.mem_univ _, hlt⟩
      rw [← heq, Finset.mem_filter] at hmem
      exact absurd hmem.2 (lt_irrefl _)
  intro a b hbad
  induction hk : (Finset.univ.filter fun e : Fin n × Fin n => distance e.1 e.2 < distance a b).card using
    Nat.strongRecOn generalizing a b with
  | _ k ih =>
    obtain ⟨c, hc, hac, hcb⟩ := h a b hbad
    exact .around c hc (fun hb => ih _ (hk ▸ hrank a b a c hac) a c hb rfl)
      fun hb => ih _ (hk ▸ hrank a b c b hcb) c b hb rfl

theorem lt_of_flat_once [IsStrictOrderedRing K] (hsymm : ∀ a b, distance a b = distance b a)
    (hflat : Flat distance a b c) (honce : ¬ Flat distance a c b) : distance a c < distance a b := by
  unfold Flat badFactor at hflat honce
  rw [hsymm c b] at honce
  by_contra hle
  linarith

theorem replaceable_of_flat_once [IsStrictOrderedRing K] (hsymm : ∀ a b, distance a b = distance b a)
    (h : ∀ a b c, IsTriangle triangles a b c → Flat distance a b c → ¬ Flat distance a c b) :
    Replaceable distance triangles := by
  refine replaceable_of_shorter fun a b ⟨c, hc, hflat⟩ => ⟨c, hc, ?_, ?_⟩
  · exact lt_of_flat_once hsymm hflat (h a b c hc hflat)
  · have hback := hflat.swap hsymm
    have hlt := lt_of_flat_once hsymm hback (h b a c hc.swap hback)
    rwa [hsymm b c, hsymm b a] at hlt

/-! ## Three clusters -/

def clusterAt (x z : ℝ) : SCluster ℝ := ⟨⟨x, 0, z⟩, 1, 1⟩

theorem distance_clusterAt {x z x' z' d : ℝ} (hd : 0 ≤ d) (h : (x - x') ^ 2 + (0 - 0) ^ 2 + (z - z') ^ 2 = d ^ 2) :
    (clusterAt x z).position.distance Real.sqrt (clusterAt x' z').position = d := by
  unfold AIFloat3.distance clusterAt
  dsimp only
  rw [h, Real.sqrt_sq hd]

def thin : Fin 3 → SCluster ℝ := ![clusterAt 0 0, clusterAt 684 37, clusterAt 684 (-37)]

theorem thin_distance : clusterDistance Real.sqrt thin 0 1 = 685 ∧ clusterDistance Real.sqrt thin 0 2 = 685 ∧
    clusterDistance Real.sqrt thin 1 2 = 74 :=
  ⟨distance_clusterAt (by norm_num) (by norm_num), distance_clusterAt (by norm_num) (by norm_num),
    distance_clusterAt (by norm_num) (by norm_num)⟩

def flat : Fin 3 → SCluster ℝ := ![clusterAt 0 0, clusterAt 48 0, clusterAt 24 7]

theorem flat_distance : clusterDistance Real.sqrt flat 0 1 = 48 ∧ clusterDistance Real.sqrt flat 0 2 = 25 ∧
    clusterDistance Real.sqrt flat 1 2 = 25 :=
  ⟨distance_clusterAt (by norm_num) (by norm_num), distance_clusterAt (by norm_num) (by norm_num),
    distance_clusterAt (by norm_num) (by norm_num)⟩

theorem clusterDistance_flat : ∀ a b : Fin 3, a ≠ b →
    clusterDistance Real.sqrt flat a b = if a = 2 ∨ b = 2 then 25 else 48 := by
  obtain ⟨h01, h02, h12⟩ := flat_distance
  have hcomm := clusterDistance_comm Real.sqrt flat
  intro a b hab
  match a, b with
  | 0, 1 => exact h01
  | 0, 2 => exact h02
  | 1, 2 => exact h12
  | 1, 0 => exact (hcomm 1 0).trans h01
  | 2, 0 => exact (hcomm 2 0).trans h02
  | 2, 1 => exact (hcomm 2 1).trans h12
  | 0, 0 | 1, 1 | 2, 2 => exact absurd rfl hab

theorem side_iff_ne : ∀ a b : Fin 3, Side [(0, 1, 2)] a b ↔ a ≠ b := by
  unfold Side IsTriangle
  decide

theorem connects_side : Connects (Side [((0, 1, 2) : Triangle 3)]) := by
  intro a b
  by_cases h : a = b
  · exact h ▸ .refl a
  · exact .rel _ _ ((side_iff_ne a b).mpr h)

theorem isTriangle_third : ∀ a b c : Fin 3, IsTriangle [(0, 1, 2)] a b c ↔ a ≠ b ∧ b ≠ c ∧ c ≠ a := by
  unfold IsTriangle
  decide

theorem thin_bad : ∀ b, b ≠ 0 → Bad (clusterDistance Real.sqrt thin) [(0, 1, 2)] 0 b := by
  obtain ⟨h01, h02, h12⟩ := thin_distance
  intro b hb
  match b with
  | 1 =>
    refine ⟨2, (isTriangle_third 0 1 2).mpr (by decide), ?_⟩
    rw [Flat, badFactor, h01, h02, h12]
    norm_num
  | 2 =>
    refine ⟨1, (isTriangle_third 0 2 1).mpr (by decide), ?_⟩
    rw [Flat, badFactor, clusterDistance_comm, h01, h02, h12]
    norm_num

theorem flat_corner {a b c : Fin 3} (h : IsTriangle [(0, 1, 2)] a b c)
    (hflat : Flat (clusterDistance Real.sqrt flat) a b c) : c = 2 := by
  obtain ⟨hab, hbc, hca⟩ := (isTriangle_third a b c).mp h
  have hside : ∀ a b c : Fin 3, a ≠ b → b ≠ c → c ≠ a → c ≠ 2 → a = 2 ∨ b = 2 := by decide
  by_contra hc
  rw [Flat, badFactor, clusterDistance_flat b c hbc, clusterDistance_flat a c hca.symm, clusterDistance_flat a b hab,
    if_pos (hside a b c hab hbc hca hc)] at hflat
  split at hflat <;> split at hflat <;> norm_num at hflat

/-- The two long sides of a thin triangle are both dropped. -/
theorem buildClusterGraph_splits : Connects (Side [((0, 1, 2) : Triangle 3)]) ∧
    ¬ Connects (Joined (buildClusterGraph Real.sqrt thin (fun _ => some [(0, 1, 2)]) fun _ => [0, 1, 2])) := by
  refine ⟨connects_side, fun h => ?_⟩
  have hfar := eqvGen_stays (p := fun i => i = 0) (fun a b hab => ?_) (h 0 1)
  · exact absurd (hfar.mp rfl) (by decide)
  · obtain ⟨e, he, rfl, rfl⟩ := hab
    obtain ⟨⟨a, b⟩, hmem, rfl⟩ := mem_map.mp he
    obtain ⟨hle, hside, hgood⟩ := mem_triangulateGraph.mp hmem
    have hne := (side_iff_ne a b).mp hside
    dsimp only [clusterEdge] at *
    constructor
    · rintro rfl
      exact absurd (thin_bad b hne.symm) hgood
    · rintro rfl
      exact absurd (Fin.le_zero_iff.mp hle) hne

theorem planar_single : Planar [((0, 1, 2) : Triangle 3)] where
  proper a b c h := ((isTriangle_third a b c).mp h).1
  twice a b c c' _ h h' _ := by
    have hthird : ∀ a b c c' : Fin 3, a ≠ b → b ≠ c ∧ c ≠ a → b ≠ c' ∧ c' ≠ a → c = c' := by decide
    obtain ⟨hab, hc⟩ := (isTriangle_third a b c).mp h
    exact .inl (hthird a b c c' hab hc ((isTriangle_third a b c').mp h').2)
  gapless cross h := by
    have hsum := h 0 1 2 ((isTriangle_third 0 1 2).mpr (by decide))
    have hsolve : ∀ x y z : ZMod 2, x + y + z = 0 → y = x + z := by decide
    refine ⟨![0, cross s(0, 1), cross s(2, 0)], fun a b hab => ?_⟩
    match a, b with
    | 0, 1 => exact (zero_add _).symm
    | 2, 0 => exact (add_zero _).symm
    | 1, 2 => exact hsolve _ _ _ hsum
    | 1, 0 => exact (congrArg cross Sym2.eq_swap).trans (add_zero _).symm
    | 0, 2 => exact (congrArg cross Sym2.eq_swap).trans (zero_add _).symm
    | 2, 1 => exact (congrArg cross Sym2.eq_swap).trans ((hsolve _ _ _ hsum).trans (add_comm _ _))
    | 0, 0 | 1, 1 | 2, 2 => exact absurd rfl ((side_iff_ne _ _).mp hab)

/-- The long side of a flat triangle is dropped, and the other two connect the clusters. -/
theorem buildClusterGraph_connects_flat : Planar [((0, 1, 2) : Triangle 3)] ∧
    Connects (Joined (buildClusterGraph Real.sqrt flat (fun _ => some [(0, 1, 2)]) fun _ => [0, 1, 2])) := by
  have hsides : ∀ triangles : List (Triangle 3), some [(0, 1, 2)] = some triangles → Connects (Side triangles) := by
    rintro _ ⟨⟩
    exact connects_side
  obtain ⟨-, h⟩ := buildClusterGraph_connects Real.sqrt flat (fun _ => some [(0, 1, 2)]) (fun _ => [0, 1, 2]) (by decide)
    hsides
  refine ⟨planar_single, (h _ rfl planar_single le_rfl).mpr ?_⟩
  refine replaceable_of_flat_once (clusterDistance_comm Real.sqrt flat) fun a b c hc hflat hflat' => ?_
  have hb := flat_corner hc.swap.rotate hflat'
  exact ((isTriangle_third a b c).mp hc).2.1 (hb.trans (flat_corner hc hflat).symm)

end Circuit.Spec.ClusterGraph
