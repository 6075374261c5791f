import CircuitAI.Spec.Areas
import Mathlib.Data.List.GetD
import Mathlib.Tactic.Positivity

/-!
# Grouping finds the major components

`groupSectors_ok`: with fewer than `MAP_AREA_LIST_SIZE` components that are not minor, the loop that groups sectors into
areas ends, and its areas are exactly these components. `Settled` says what is known of the finished areas `done`, given
the set `R` of sectors that are not finished; `Filling` adds what is known of the area in progress. `R` does not change
while an area is filled: a sector only moves from what remains to the search and from there to the area.
-/

namespace Circuit.Impl.TerrainData

open Framework Relation Spec.Areas List

/-! ## The grid of sectors -/

theorem mem_neighbours {t : Setup} {i j : ℕ} : j ∈ t.neighbours i ↔
    (0 < i % t.sectorXSize ∧ j = i - 1) ∨ (i % t.sectorXSize < t.sectorXSize - 1 ∧ j = i + 1) ∨
    (0 < i / t.sectorXSize ∧ j = i - t.sectorXSize) ∨
    (i / t.sectorXSize < t.sectorZSize - 1 ∧ j = i + t.sectorXSize) := by
  have mem_if {p : Prop} [Decidable p] {k : ℕ} : j ∈ (if p then [k] else []) ↔ p ∧ j = k := by
    split <;> simp [*]
  simp only [Setup.neighbours, mem_append, mem_if, gt_iff_lt, or_assoc]

theorem mem_neighbours_at {t : Setup} {x z j : ℕ} (hx : x < t.sectorXSize) : j ∈ t.neighbours (t.sectorXSize * z + x) ↔
      (0 < x ∧ j = t.sectorXSize * z + (x - 1)) ∨ (x < t.sectorXSize - 1 ∧ j = t.sectorXSize * z + (x + 1)) ∨
      (0 < z ∧ j = t.sectorXSize * (z - 1) + x) ∨ (z < t.sectorZSize - 1 ∧ j = t.sectorXSize * (z + 1) + x) := by
  have hdiv : (t.sectorXSize * z + x) / t.sectorXSize = z := by
    rw [Nat.mul_add_div (by omega), Nat.div_eq_of_lt hx, Nat.add_zero]
  have hmod : (t.sectorXSize * z + x) % t.sectorXSize = x := by
    rw [Nat.mul_add_mod, Nat.mod_eq_of_lt hx]
  have hup : 0 < z → t.sectorXSize * z = t.sectorXSize * (z - 1) + t.sectorXSize := fun hz => by
    rw [← Nat.mul_succ, Nat.succ_eq_add_one, Nat.sub_add_cancel hz]
  rw [mem_neighbours, hdiv, hmod, Nat.mul_succ]
  constructor
  · rintro (⟨h, rfl⟩ | ⟨h, rfl⟩ | ⟨h, rfl⟩ | ⟨h, rfl⟩)
    · exact .inl ⟨h, by omega⟩
    · exact .inr (.inl ⟨h, by omega⟩)
    · exact .inr (.inr (.inl ⟨h, by have := hup h; omega⟩))
    · exact .inr (.inr (.inr ⟨h, by omega⟩))
  · rintro (⟨h, rfl⟩ | ⟨h, rfl⟩ | ⟨h, rfl⟩ | ⟨h, rfl⟩)
    · exact .inl ⟨h, by omega⟩
    · exact .inr (.inl ⟨h, by omega⟩)
    · exact .inr (.inr (.inl ⟨h, by have := hup h; omega⟩))
    · exact .inr (.inr (.inr ⟨h, by omega⟩))

instance (t : Setup) : Std.Symm (Adj t) where
  symm i j := by
    rintro ⟨hi, hj, hij⟩
    refine ⟨hj, hi, ?_⟩
    have hX : 0 < t.sectorXSize := Nat.pos_of_mul_pos_right (Nat.zero_lt_of_lt hi)
    obtain ⟨x, z, hx, hz, rfl⟩ : ∃ x z, x < t.sectorXSize ∧ z < t.sectorZSize ∧ i = t.sectorXSize * z + x :=
      ⟨_, _, Nat.mod_lt i hX, Nat.div_lt_of_lt_mul hi, (Nat.div_add_mod i t.sectorXSize).symm⟩
    rw [mem_neighbours_at hx] at hij
    rcases hij with ⟨h, rfl⟩ | ⟨h, rfl⟩ | ⟨h, rfl⟩ | ⟨h, rfl⟩
    · rw [mem_neighbours_at (by omega)]
      exact .inr (.inl ⟨by omega, by rw [Nat.sub_add_cancel h]⟩)
    · rw [mem_neighbours_at (by omega)]
      exact .inl ⟨by omega, by rw [Nat.add_sub_cancel]⟩
    · rw [mem_neighbours_at hx]
      exact .inr (.inr (.inr ⟨by omega, by rw [Nat.sub_add_cancel h]⟩))
    · rw [mem_neighbours_at hx]
      exact .inr (.inr (.inl ⟨by omega, by rw [Nat.add_sub_cancel]⟩))

/-! ## Minor and major sets of sectors -/

variable {t : Setup} {C D : Finset ℕ}

theorem percentOfMap_mono {m n : ℕ} (h : m ≤ n) : t.percentOfMap m ≤ t.percentOfMap n := by
  unfold Setup.percentOfMap
  gcongr

theorem isMinor_mono (h : C.card ≤ D.card) (hD : isMinor t D) : isMinor t C := by
  simp only [isMinor, Bool.or_eq_true, decide_eq_true_eq] at hD ⊢
  exact hD.imp (fun hle => h.trans hle) fun hle => (percentOfMap_mono h).trans hle

theorem card_lt_of_isMinor (hC : isMinor t C) (hD : isMinor t D = false) : C.card < D.card := by
  refine lt_of_not_ge fun h => ?_
  rw [isMinor_mono h hC] at hD
  exact absurd hD (by decide)

theorem few_of_card {U : Finset ℕ} (h : U.card < mapAreaListSize * (maMinimalSectors + 1)) : Few t U := by
  intro l hl hmaj
  have hle := length_mul_le_card (m := maMinimalSectors) hl fun C hC => by
    obtain ⟨hcomp, hmin⟩ := hmaj C hC
    simp only [isMinor, Bool.or_eq_false_iff, decide_eq_false_iff_not, not_le] at hmin
    exact ⟨hcomp, hmin.1⟩
  exact Nat.lt_of_mul_lt_mul_right (hle.trans_lt h)

/-! ## The search of one area -/

namespace Grouping

theorem foldl_visit (ns : List ℕ) (g : Grouping) : ∃ found, (ns.foldl visit g).sectorSearch = g.sectorSearch ++ found ∧
      (∀ a, a ∈ found ↔ a ∈ ns ∧ a ∈ g.sectorsRemaining) ∧
      (∀ a, a ∈ (ns.foldl visit g).sectorsRemaining ↔ a ∈ g.sectorsRemaining ∧ a ∉ ns) ∧
      (ns.foldl visit g).sectorsRemaining.card + found.length = g.sectorsRemaining.card ∧
      (ns.foldl visit g).area = g.area ∧ (ns.foldl visit g).areaSize = g.areaSize := by
  induction ns generalizing g with
  | nil => exact ⟨[], by simp⟩
  | cons j ns ih =>
    rw [foldl_cons]
    obtain ⟨found, hsearch, hfound, hrem, hcard, harea, hsize⟩ := ih (g.visit j)
    by_cases hj : j ∈ g.sectorsRemaining
    · have hv : g.visit j = { g with
          sectorSearch := g.sectorSearch ++ [j], sectorsRemaining := g.sectorsRemaining.erase j } := if_pos hj
      rw [hv] at hsearch hfound hrem hcard harea hsize ⊢
      refine ⟨j :: found, ?_, fun a => ?_, fun a => ?_, ?_, harea, hsize⟩
      · rw [hsearch, append_assoc, singleton_append]
      · rw [mem_cons, mem_cons, hfound, Finset.mem_erase]
        by_cases haj : a = j <;> simp [haj, hj]
      · rw [hrem, Finset.mem_erase, mem_cons]
        tauto
      · have := Finset.card_erase_add_one hj
        rw [length_cons]
        dsimp only at hcard
        omega
    · have hv : g.visit j = g := if_neg hj
      rw [hv] at hsearch hfound hrem hcard harea hsize ⊢
      refine ⟨found, hsearch, fun a => ?_, fun a => ?_, hcard, harea, hsize⟩
      · rw [hfound, mem_cons]
        by_cases haj : a = j <;> simp [haj, hj]
      · rw [hrem, mem_cons]
        by_cases haj : a = j <;> simp [haj, hj]

theorem addToBack_concat (i : ℕ) (areas : List (Finset ℕ)) (area : Finset ℕ) :
    addToBack i (areas ++ [area]) = areas ++ [insert i area] := by
  induction areas with
  | nil => rfl
  | cons a areas ih =>
    cases areas with
    | nil => rfl
    | cons b areas => exact congrArg (a :: ·) ih

def turns (g : Grouping) : ℕ := 2 * g.sectorsRemaining.card + g.sectorSearch.length

variable {U R : Finset ℕ} {done : List (Finset ℕ)} {cur : Finset ℕ} {g : Grouping} {i : ℕ}

structure Settled (t : Setup) (U : Finset ℕ) (done : List (Finset ℕ)) (R : Finset ℕ) : Prop where
  bound : U ⊆ Finset.range t.sectors
  nodup : done.Nodup
  subset : R ⊆ U
  major : ∀ C ∈ done, Major t U C ∧ Disjoint C R
  rest : ∀ a ∈ U, a ∉ R → ∃ C, IsComponent (Adj t) U C ∧ a ∈ C ∧ Disjoint C R ∧ (C ∈ done ∨ isMinor t C)

structure Filling (t : Setup) (U R : Finset ℕ) (done : List (Finset ℕ)) (cur : Finset ℕ) (g : Grouping) : Prop where
  settled : Settled t U done R
  area : g.area = done ++ [cur]
  areaSize : g.areaSize = g.area.length
  parts : ∀ a, a ∈ R ↔ a ∈ g.sectorsRemaining ∨ a ∈ g.sectorSearch ∨ a ∈ cur
  fresh : ∀ a, a ∈ g.sectorSearch ∨ a ∈ cur → a ∉ g.sectorsRemaining
  connected : ∃ v, (v ∈ g.sectorSearch ∨ v ∈ cur) ∧
    ∀ w, w ∈ g.sectorSearch ∨ w ∈ cur → ReflTransGen (Within (Adj t) U) v w
  closed : ∀ a ∈ cur, ∀ b ∈ U, Adj t a b → b ∈ g.sectorSearch ∨ b ∈ cur

theorem Settled.init (t : Setup) {U : Finset ℕ} (h : U ⊆ Finset.range t.sectors) : Settled t U [] U where
  bound := h
  nodup := nodup_nil
  subset := Finset.Subset.refl U
  major _ hC := absurd hC not_mem_nil
  rest _ ha hna := absurd ha hna

theorem Settled.closed (h : Settled t U done R) {a b : ℕ} (ha : a ∈ R) (hb : b ∈ U) (hab : Adj t a b) : b ∈ R := by
  by_contra hbR
  obtain ⟨C, hC, hbC, hdisj, _⟩ := h.rest b hb hbR
  have haC : a ∈ C := hC.closed hbC (h.subset ha) (Std.Symm.symm _ _ hab)
  exact Finset.disjoint_left.1 hdisj haC ha

theorem Filling.expand (h : Filling t U R done cur g) {rest : List ℕ} (hg : g.sectorSearch = i :: rest) :
    Filling t U R done (insert i cur) (g.expand t i) ∧ (g.expand t i).turns < g.turns := by
  obtain ⟨found, hsearch, hfound, hrem, hcard, harea, hsize⟩ :=
    foldl_visit (t.neighbours i) { g with area := addToBack i g.area }
  dsimp only at hsearch hfound hrem hcard harea hsize
  have hsearch' : (g.expand t i).sectorSearch = rest ++ found := by
    show ((t.neighbours i).foldl visit _).sectorSearch.tail = _
    rw [hsearch, hg, cons_append, tail_cons]
  have hrem' : ∀ a, a ∈ (g.expand t i).sectorsRemaining ↔ a ∈ g.sectorsRemaining ∧ a ∉ t.neighbours i := hrem
  have hiR : i ∈ R := (h.parts i).2 (.inr (.inl (by rw [hg]; exact mem_cons_self)))
  have hlt : ∀ a ∈ U, a < t.sectors := fun a ha => Finset.mem_range.1 (h.settled.bound ha)
  have hold : ∀ a, a ∈ rest ∨ a = i ∨ a ∈ cur ↔ a ∈ g.sectorSearch ∨ a ∈ cur := fun a => by
    rw [hg, mem_cons]
    tauto
  -- what was found so far stays found, and the neighbours that remained are found now
  have hnow : ∀ a, a ∈ (g.expand t i).sectorSearch ∨ a ∈ insert i cur ↔
      (a ∈ g.sectorSearch ∨ a ∈ cur) ∨ (a ∈ t.neighbours i ∧ a ∈ g.sectorsRemaining) := fun a => by
    rw [hsearch', mem_append, hfound, Finset.mem_insert, ← hold a]
    tauto
  refine ⟨⟨h.settled, ?_, ?_, fun a => ?_, fun a ha => ?_, ?_, fun a ha b hb hab => ?_⟩, ?_⟩
  · exact harea.trans (by rw [h.area, addToBack_concat])
  · show ((t.neighbours i).foldl visit _).areaSize = _
    rw [hsize, h.areaSize]
    exact congrArg length harea ▸ (by rw [h.area, addToBack_concat]; simp)
  · rw [h.parts a, hnow a, hrem']
    tauto
  · rw [hrem']
    rcases (hnow a).1 ha with hfound | hnew
    · exact fun hr => h.fresh a hfound hr.1
    · exact fun hr => hr.2 hnew.1
  · obtain ⟨v, hv, hreach⟩ := h.connected
    refine ⟨v, (hnow v).2 (.inl hv), fun w hw => ?_⟩
    rcases (hnow w).1 hw with hfound | ⟨hwi, hwr⟩
    · exact hreach w hfound
    · have hi := hreach i ((hold i).1 (.inr (.inl rfl)))
      have hiU := h.settled.subset hiR
      have hwU := h.settled.subset ((h.parts w).2 (.inl hwr))
      exact hi.tail ⟨hiU, hwU, hlt i hiU, hlt w hwU, hwi⟩
  · rw [hnow b]
    rcases Finset.mem_insert.1 ha with rfl | ha
    · rcases (h.parts b).1 (h.settled.closed hiR hb hab) with hbr | hbf
      · exact .inr ⟨hab.2.2, hbr⟩
      · exact .inl hbf
    · exact .inl (h.closed a ha b hb hab)
  · have hcard' : (g.expand t i).sectorsRemaining.card + found.length = g.sectorsRemaining.card := hcard
    have hlen : g.sectorSearch.length = rest.length + 1 := by rw [hg, length_cons]
    rw [turns, turns, hsearch', length_append]
    omega

/-! ## The end of an area -/

theorem Filling.isComponent (h : Filling t U R done cur g) (hg : g.sectorSearch = []) : IsComponent (Adj t) U cur := by
  have hfound : ∀ a, a ∈ g.sectorSearch ∨ a ∈ cur ↔ a ∈ cur := fun a => by rw [hg]; simp
  obtain ⟨v, hv, hreach⟩ := h.connected
  refine isComponent_of_closed ((hfound v).1 hv) (fun a ha => ?_) (fun w hw => hreach w (.inr hw)) ?_
  · exact h.settled.subset ((h.parts a).2 (.inr (.inr ha)))
  · exact fun a ha b hb hab => (hfound b).1 (h.closed a ha b hb hab)

theorem Settled.next (h : Settled t U done R) (hcur : IsComponent (Adj t) U cur) (hR : cur ⊆ R) :
    Settled t U (if isMinor t cur then done else done ++ [cur]) (R \ cur) := by
  obtain ⟨v, hv⟩ := hcur.nonempty
  have hcurR : Disjoint cur (R \ cur) := Finset.disjoint_sdiff
  have hnew : cur ∉ done := fun hmem => Finset.disjoint_left.1 (h.major cur hmem).2 hv (hR hv)
  have hkeep : ∀ {C}, Disjoint C R → Disjoint C (R \ cur) := fun hd => hd.mono_right Finset.sdiff_subset
  refine ⟨h.bound, ?_, Finset.sdiff_subset.trans h.subset, fun C hC => ?_, fun a ha haR => ?_⟩
  · split
    · exact h.nodup
    · exact h.nodup.append (nodup_singleton cur) (disjoint_singleton.2 hnew)
  · have hold : C ∈ done → Major t U C ∧ Disjoint C (R \ cur) := fun hC =>
      ⟨(h.major C hC).1, hkeep (h.major C hC).2⟩
    split at hC
    · exact hold hC
    · rename_i hmin
      rcases mem_append.1 hC with hC | hC
      · exact hold hC
      · obtain rfl := mem_singleton.1 hC
        exact ⟨⟨hcur, Bool.eq_false_iff.2 hmin⟩, hcurR⟩
  · by_cases hac : a ∈ cur
    · refine ⟨cur, hcur, hac, hcurR, ?_⟩
      split
      · exact .inr ‹_›
      · exact .inl (mem_append_right _ (mem_singleton_self cur))
    · obtain ⟨C, hC, haC, hd, hor⟩ := h.rest a ha fun haR' => haR (Finset.mem_sdiff.2 ⟨haR', hac⟩)
      refine ⟨C, hC, haC, hkeep hd, hor.imp_left fun hC => ?_⟩
      split
      · exact hC
      · exact mem_append_left _ hC

theorem Filling.remaining (h : Filling t U R done cur g) (hg : g.sectorSearch = []) : R \ cur = g.sectorsRemaining := by
  ext a
  rw [Finset.mem_sdiff, h.parts a, hg]
  constructor
  · rintro ⟨hr | hs | hc, hnc⟩
    · exact hr
    · exact absurd hs not_mem_nil
    · exact absurd hc hnc
  · exact fun hr => ⟨.inl hr, fun hc => h.fresh a (.inr hc) hr⟩

theorem Filling.finish (h : Filling t U R done cur g) (hg : g.sectorSearch = []) :
    Settled t U (if isMinor t cur then done else done ++ [cur]) g.sectorsRemaining := by
  rw [← h.remaining hg]
  exact h.settled.next (h.isComponent hg) fun a ha => (h.parts a).2 (.inr (.inr ha))

theorem smallest_lt (area : List (Finset ℕ)) {n : ℕ} (hn : 0 < n) : (range n).foldl
      (fun best k => if (area.getD k ∅).card < (area.getD best ∅).card then k else best) 0 < n := by
  induction n, hn using Nat.le_induction with
  | base => simp
  | succ n _ ih =>
    rw [range_succ, foldl_append, foldl_cons, foldl_nil]
    split
    · exact Nat.lt_succ_self n
    · exact ih.trans (Nat.lt_succ_self n)

theorem smallest_concat (h : ∀ C ∈ done, cur.card < C.card) : smallest (done ++ [cur]) = done.length := by
  unfold smallest
  rw [length_append, length_singleton, range_succ, foldl_append, foldl_cons, foldl_nil]
  cases Nat.eq_zero_or_pos done.length with
  | inl hd => simp [hd]
  | inr hd =>
    have hlt := smallest_lt (done ++ [cur]) hd
    refine if_pos ?_
    rw [getD_append _ _ _ _ hlt, getD_append_right _ _ _ _ le_rfl, getD_eq_getElem _ _ hlt]
    simpa using h _ (getElem_mem hlt)

theorem Filling.eraseSmallest (hfew : Few t U) (h : Filling t U R done cur g) (hg : g.sectorSearch = []) :
    g.eraseSmallest t = { g with
        area := if isMinor t cur then done else done ++ [cur]
        areaSize := (if isMinor t cur then done else done ++ [cur]).length } := by
  have hlast : g.area.getLastD ∅ = cur := by rw [h.area]; simp
  have hlen : g.areaSize = done.length + 1 := by rw [h.areaSize, h.area]; simp
  unfold Grouping.eraseSmallest
  rw [hlast, hlen]
  by_cases hmin : isMinor t cur
  · have hsmall : smallest g.area = done.length := by
      rw [h.area]
      exact smallest_concat fun C hC => card_lt_of_isMinor hmin (h.settled.major C hC).1.2
    rw [if_pos hmin, if_pos (by simp [hmin]), hsmall, h.area]
    congr 1
    rw [eraseIdx_append_of_length_le le_rfl]
    simp
  · -- a full list of major components is excluded
    have hmaj := hfew (done ++ [cur]) ?_ ?_
    · rw [length_append, length_singleton] at hmaj
      have hne : ¬ (done.length + 1 = mapAreaListSize) := hmaj.ne
      rw [if_neg hmin, if_neg (by simp [hmin, hne]), ← h.area, ← h.areaSize]
    · have hfin := (h.finish hg).nodup
      rwa [if_neg hmin] at hfin
    · have hfin := (h.finish hg).major
      rw [if_neg hmin] at hfin
      exact fun C hC => (hfin C hC).1

/-! ## The whole loop -/

structure Between (t : Setup) (U : Finset ℕ) (g : Grouping) : Prop where
  settled : Settled t U g.area g.sectorsRemaining
  areaSize : g.areaSize = g.area.length
  sectorSearch : g.sectorSearch = []

def Inv (t : Setup) (U : Finset ℕ) (g : Grouping) : Prop :=
  Between t U g ∨ ∃ R done cur, Filling t U R done cur g

theorem Filling.between (hfew : Few t U) (h : Filling t U R done cur g) (hg : g.sectorSearch = []) :
    Between t U (g.eraseSmallest t) := by
  rw [h.eraseSmallest hfew hg]
  exact ⟨h.finish hg, rfl, hg⟩

theorem Between.last (h : Between t U g) : ¬ (g.areaSize > 0 ∧ isMinor t (g.area.getLastD ∅)) := by
  rintro ⟨hpos, hmin⟩
  rw [h.areaSize] at hpos
  have hmem : g.area.getLastD ∅ ∈ g.area := by
    rw [getLastD_eq_getLast?, getLast?_eq_getLast_of_ne_nil (ne_nil_of_length_pos hpos)]
    exact getLast_mem _
  rw [(h.settled.major _ hmem).1.2] at hmin
  exact absurd hmin (by decide)

theorem Between.eraseSmallest (hfew : Few t U) (h : Between t U g) : g.eraseSmallest t = g := by
  have hlt : g.area.length < mapAreaListSize :=
    hfew g.area h.settled.nodup fun C hC => (h.settled.major C hC).1
  rw [← h.areaSize] at hlt
  refine if_neg fun hc => ?_
  simp only [gt_iff_lt, Bool.and_eq_true, decide_eq_true_eq, Bool.or_eq_true, beq_iff_eq] at hc
  exact hc.2.elim hlt.ne fun hmin => h.last ⟨hc.1, hmin⟩

theorem Between.openArea (h : Between t U g) (hne : g.sectorsRemaining ≠ ∅) :
    (∃ R done cur, Filling t U R done cur (g.openArea t)) ∧ (g.openArea t).turns < g.turns := by
  obtain ⟨a, ha⟩ := Finset.nonempty_iff_ne_empty.2 hne
  have hex : ((range t.sectors).find? (· ∈ g.sectorsRemaining)).isSome := by
    rw [find?_isSome]
    exact ⟨a, mem_range.2 (Finset.mem_range.1 (h.settled.bound (h.settled.subset ha))), decide_eq_true ha⟩
  obtain ⟨i, hi⟩ := Option.isSome_iff_exists.1 hex
  have hir : i ∈ g.sectorsRemaining := by simpa using find?_some hi
  have hopen : g.openArea t =
      ⟨[i], g.sectorsRemaining.erase i, g.area ++ [∅], g.areaSize + 1⟩ := by
    rw [Grouping.openArea, hi, h.sectorSearch]
    rfl
  rw [hopen]
  refine ⟨⟨g.sectorsRemaining, g.area, ∅, h.settled, rfl, ?_, fun a => ?_, fun a ha => ?_, ⟨i, ?_⟩, ?_⟩, ?_⟩
  · simp [h.areaSize]
  · by_cases hai : a = i <;> simp [hai, hir]
  · simp_all
  · simp only [mem_singleton, Finset.notMem_empty, or_false, true_and]
    rintro w rfl
    exact .refl
  · simp
  · have := Finset.card_erase_add_one hir
    simp only [turns, h.sectorSearch, length_singleton, length_nil]
    omega

theorem Inv.step (hfew : Few t U) (h : Inv t U g) (hg : ¬ (g.sectorsRemaining = ∅ ∧ g.sectorSearch = [])) :
    Inv t U (g.step t) ∧ (g.step t).turns < g.turns := by
  cases hs : g.sectorSearch with
  | cons i rest =>
    have hstep : g.step t = g.expand t i := by rw [Grouping.step, hs]
    rw [hstep]
    rcases h with h | ⟨R, done, cur, h⟩
    · exact absurd (h.sectorSearch.symm.trans hs) (cons_ne_nil i rest).symm
    · exact ⟨.inr ⟨R, done, _, (h.expand hs).1⟩, (h.expand hs).2⟩
  | nil =>
    have hstep : g.step t = (g.eraseSmallest t).openArea t := by rw [Grouping.step, hs]
    have hrem : (g.eraseSmallest t).sectorsRemaining = g.sectorsRemaining := by
      unfold Grouping.eraseSmallest
      split <;> rfl
    have hsearch : (g.eraseSmallest t).sectorSearch = g.sectorSearch := by
      unfold Grouping.eraseSmallest
      split <;> rfl
    have hturns : (g.eraseSmallest t).turns = g.turns := by rw [turns, turns, hrem, hsearch]
    have hbetween : Between t U (g.eraseSmallest t) := by
      rcases h with h | ⟨R, done, cur, h⟩
      · rwa [h.eraseSmallest hfew]
      · exact h.between hfew hs
    have hopen := hbetween.openArea (hrem ▸ fun hr => hg ⟨hr, hs⟩)
    rw [hstep, ← hturns]
    exact ⟨.inr hopen.1, hopen.2⟩

theorem run_ok (hfew : Few t U) {n : ℕ} (h : Inv t U g) (hn : g.turns ≤ n) :
    Inv t U (run t n g) ∧ (run t n g).sectorsRemaining = ∅ ∧ (run t n g).sectorSearch = [] := by
  induction n generalizing g with
  | zero =>
    have hz : g.turns = 0 := Nat.le_zero.1 hn
    rw [turns] at hz
    have hrem : g.sectorsRemaining.card = 0 := by omega
    have hsearch : g.sectorSearch.length = 0 := by omega
    exact ⟨h, Finset.card_eq_zero.1 hrem, length_eq_zero_iff.1 hsearch⟩
  | succ n ih =>
    by_cases hg : g.sectorsRemaining = ∅ ∧ g.sectorSearch = []
    · rw [run, if_pos hg]
      exact ⟨h, hg⟩
    · rw [run, if_neg hg]
      obtain ⟨hstep, hlt⟩ := h.step hfew hg
      exact ih hstep (by omega)

theorem Settled.grouped (h : Settled t U done ∅) : Grouped t U done := by
  refine ⟨h.nodup, fun C => ⟨fun hC => (h.major C hC).1, fun hC => ?_⟩⟩
  obtain ⟨a, ha⟩ := hC.1.nonempty
  obtain ⟨D, hD, haD, _, hor⟩ := h.rest a (hC.1.subset ha) (Finset.notMem_empty a)
  rw [hC.1.eq_of_mem hD ha haD]
  refine hor.resolve_right fun hmin => ?_
  rw [← hC.1.eq_of_mem hD ha haD, hC.2] at hmin
  exact absurd hmin (by decide)

end Grouping

open Grouping in
theorem groupSectors_ok {usable : ℕ → Bool} (hfew : Few t ((Finset.range t.sectors).filter fun i => usable i)) :
    Grouped t ((Finset.range t.sectors).filter fun i => usable i) (groupSectors t usable) := by
  have hsub : ((Finset.range t.sectors).filter fun i => usable i) ⊆ Finset.range t.sectors :=
    Finset.filter_subset _ _
  have hcard := Finset.card_le_card hsub
  rw [Finset.card_range] at hcard
  have hrun := run_ok hfew (g := ⟨[], (Finset.range t.sectors).filter fun i => usable i, [], 0⟩)
    (n := 2 * t.sectors) (.inl ⟨Settled.init t hsub, rfl, rfl⟩) (by simp only [turns, length_nil]; omega)
  unfold groupSectors
  generalize run t (2 * t.sectors) _ = g at hrun
  obtain ⟨h, hrem, hsearch⟩ := hrun
  dsimp only
  -- the test after the loop is the one between two areas, and the last area is the one it drops
  rcases h with h | ⟨R, done, cur, h⟩
  · rw [if_neg (by simpa using h.last)]
    exact (hrem ▸ h.settled).grouped
  · have hfin := h.finish hsearch
    rw [hrem] at hfin
    have hlast : g.area.getLastD ∅ = cur := by rw [h.area]; simp
    have hpos : g.areaSize > 0 := by rw [h.areaSize, h.area]; simp
    rw [hlast, h.area]
    by_cases hmin : isMinor t cur
    · rw [if_pos (by simp [hmin, hpos]), dropLast_concat]
      exact (if_pos hmin ▸ hfin).grouped
    · rw [if_neg (by simp [hmin])]
      exact (if_neg hmin ▸ hfin).grouped

end Circuit.Impl.TerrainData
