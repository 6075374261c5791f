import CircuitAI.Framework.Loop
import CircuitAI.Spec.NearestSites
import CircuitAI.Proof.BlockingMap.BuildSite
import Mathlib.Data.Int.Interval

/-!
# The search returns a nearest site

* `Table.grow`: whatever searches came before, the table holds the square of the largest radius so far, sorted by
  distance;
* `Offsets.countP_le`: at most `4 * r * r` offsets are closer than `r`, so that a search with radius `r` visits all of them
  even in a larger table;
* `Tests`: a step of a search returns the site at an eligible offset and goes on otherwise;
* `Offsets.nearest`: so the first site found is a nearest one.
-/

namespace Circuit.Spec.NearestSites

open Framework Impl.BlockingMap Impl.TerrainManager List

variable {sort : List SSearchOffset → List SSearchOffset} {searchOffsets : List SSearchOffset} {R r : ℕ}

/-! ## Filling the table -/

def entry (r i : ℕ) : SSearchOffset := .new ((i % (r * 2) : ℕ) - r) ((i / (r * 2) : ℕ) - r)

theorem entry_row {y x : ℕ} (hx : x < r * 2) : entry r (y * (r * 2) + x) = .new (x - r) (y - r) := by
  have hpos : 0 < r * 2 := Nat.zero_lt_of_lt hx
  rw [entry, Nat.mul_comm y, Nat.mul_add_mod, Nat.mod_eq_of_lt hx, Nat.mul_add_div hpos, Nat.div_eq_of_lt hx, Nat.add_zero]

theorem fillOffsets_eq {l : List SSearchOffset} (hl : l.length = r * 2 * (r * 2)) :
    fillOffsets r l = (range (r * 2 * (r * 2))).map (entry r) := by
  have hn : ((r : ℤ) * 2).toNat = r * 2 := by omega
  unfold fillOffsets
  dsimp only
  rw [hn]
  exact foldl_set_grid (fun x y => SSearchOffset.new (x - r) (y - r)) hl

structure Table (R : ℕ) (searchOffsets : List SSearchOffset) : Prop where
  perm : searchOffsets.Perm ((List.range (R * 2 * (R * 2))).map (entry R))
  sorted : searchOffsets.Pairwise fun a b => a.qdist ≤ b.qdist

theorem Table.length (h : Table R searchOffsets) : searchOffsets.length = R * 2 * (R * 2) := by
  rw [h.perm.length_eq, length_map, length_range]

theorem take_size (r : ℕ) : ((r : ℤ) * r * 4).toNat = r * 2 * (r * 2) := by
  rw [show (r : ℤ) * r * 4 = ((r * 2 * (r * 2) : ℕ) : ℤ) by push_cast; ring, Int.toNat_natCast]

theorem Table.grow (hsort : Sorts SSearchOffset.qdist sort) (h : Table R searchOffsets) (r : ℕ) :
    Table (max R r) (getSearchOffsetTable sort r searchOffsets) := by
  unfold getSearchOffsetTable
  dsimp only
  rw [take_size, h.length]
  split
  · rename_i hlt
    have hRr : R ≤ r := by
      by_contra hle
      exact absurd (Nat.mul_le_mul (by omega : r * 2 ≤ R * 2) (by omega : r * 2 ≤ R * 2)) (by omega)
    rw [max_eq_right hRr]
    refine ⟨(hsort.perm _).trans (.of_eq (fillOffsets_eq ?_)), hsort.sorted _⟩
    rw [length_append, length_replicate, h.length]
    omega
  · rename_i hge
    have hrR : r ≤ R := by
      by_contra hlt
      exact hge (Nat.mul_lt_mul'' (by omega) (by omega))
    rwa [max_eq_left hrR]

theorem History.table (hsort : Sorts SSearchOffset.qdist sort) (h : History sort searchOffsets) : ∃ R, Table R searchOffsets := by
  induction h with
  | start => exact ⟨0, .refl _, .nil⟩
  | search radius _ ih =>
    obtain ⟨R, hR⟩ := ih
    exact ⟨max R radius, hR.grow hsort radius⟩

/-! ## The offsets of a table -/

structure Offsets (R : ℕ) (l : List (ℤ × ℤ)) : Prop where
  nodup : l.Nodup
  mem_iff : ∀ o, o ∈ l ↔ InSquare R o
  sorted : l.Pairwise fun a b => sqDist a ≤ sqDist b

theorem entry_inSquare {i : ℕ} (hi : i < r * 2 * (r * 2)) : InSquare r ((entry r i).dx, (entry r i).dy) := by
  have hpos : 0 < r * 2 := by
    by_contra hz
    rw [show r * 2 = 0 by omega] at hi
    omega
  have hmod := Nat.mod_lt i hpos
  have hdiv := Nat.div_lt_of_lt_mul hi
  unfold InSquare entry SSearchOffset.new
  generalize i % (r * 2) = x at hmod
  generalize i / (r * 2) = y at hdiv
  dsimp only
  omega

theorem entry_injOn {i j : ℕ} (h : ((entry r i).dx, (entry r i).dy) = ((entry r j).dx, (entry r j).dy)) : i = j := by
  unfold entry SSearchOffset.new at h
  dsimp only at h
  rw [Prod.mk.injEq] at h
  rw [← Nat.div_add_mod i (r * 2), ← Nat.div_add_mod j (r * 2), show i / (r * 2) = j / (r * 2) by omega,
    show i % (r * 2) = j % (r * 2) by omega]

theorem exists_entry {o : ℤ × ℤ} (h : InSquare r o) : ∃ i < r * 2 * (r * 2), ((entry r i).dx, (entry r i).dy) = o := by
  obtain ⟨⟨hx, hx'⟩, hy, hy'⟩ := h
  have hcol : (o.1 + r).toNat < r * 2 := by omega
  refine ⟨(o.2 + r).toNat * (r * 2) + (o.1 + r).toNat, ?_, ?_⟩
  · calc (o.2 + r).toNat * (r * 2) + (o.1 + r).toNat
        < ((o.2 + r).toNat + 1) * (r * 2) := by rw [Nat.succ_mul]; omega
      _ ≤ r * 2 * (r * 2) := Nat.mul_le_mul_right _ (by omega)
  · rw [entry_row hcol]
    refine Prod.ext ?_ ?_ <;> simp only [SSearchOffset.new] <;> omega

theorem Table.offsets (h : Table R searchOffsets) : Offsets R (searchOffsets.map fun o => (o.dx, o.dy)) := by
  have hperm := h.perm.map fun o => (o.dx, o.dy)
  rw [map_map] at hperm
  refine ⟨hperm.nodup_iff.2 (nodup_range.map fun i j hij => entry_injOn hij), fun o => ?_, ?_⟩
  · rw [hperm.mem_iff, mem_map]
    constructor
    · rintro ⟨i, hi, rfl⟩
      exact entry_inSquare (mem_range.1 hi)
    · intro ho
      obtain ⟨i, hi, rfl⟩ := exists_entry ho
      exact ⟨i, mem_range.2 hi, rfl⟩
  · have hqdist : ∀ o ∈ searchOffsets, o.qdist = sqDist (o.dx, o.dy) := by
      intro o ho
      obtain ⟨i, -, rfl⟩ := mem_map.1 (h.perm.mem_iff.1 ho)
      rfl
    rw [pairwise_map]
    refine h.sorted.imp_of_mem fun {a b} ha hb hab => ?_
    rwa [← hqdist a ha, ← hqdist b hb]

namespace Offsets

variable {l : List (ℤ × ℤ)}

theorem inSquare_of_sqDist {o : ℤ × ℤ} (ho : sqDist o < (r : ℤ) * r) : InSquare r o := by
  unfold sqDist at ho
  have hx : o.1 * o.1 < (r : ℤ) * r := by linarith [mul_self_nonneg o.2]
  have hy : o.2 * o.2 < (r : ℤ) * r := by linarith [mul_self_nonneg o.1]
  rw [← abs_lt_iff_mul_self_lt, Nat.abs_cast, abs_lt] at hx hy
  exact ⟨⟨hx.1.le, hx.2⟩, hy.1.le, hy.2⟩

theorem countP_le (h : Offsets R l) (r : ℕ) : (l.countP fun o => sqDist o < (r : ℤ) * r) ≤ r * 2 * (r * 2) := by
  have hsub : (l.filter fun o => sqDist o < (r : ℤ) * r).toFinset ⊆
      Finset.Ico (-(r : ℤ)) r ×ˢ Finset.Ico (-(r : ℤ)) r := by
    intro o ho
    rw [mem_toFinset, mem_filter, decide_eq_true_eq] at ho
    obtain ⟨hx, hy⟩ := inSquare_of_sqDist ho.2
    exact Finset.mem_product.2 ⟨Finset.mem_Ico.2 hx, Finset.mem_Ico.2 hy⟩
  have hcard := Finset.card_le_card hsub
  rw [toFinset_card_of_nodup (h.nodup.filter _), Finset.card_product, Int.card_Ico] at hcard
  rw [countP_eq_length_filter]
  rwa [show ((r : ℤ) - -(r : ℤ)).toNat = r * 2 by omega] at hcard

end Offsets

/-! ## A step of a search -/

structure Tests (probe : ℚ → ℤ × ℤ → Except AIFloat3 ℚ) (eligible : ℤ × ℤ → Bool) (site : ℤ × ℤ → AIFloat3) : Prop where
  pass : ∀ y o, eligible o = true → probe y o = .error (site o)
  fail : ∀ y o, eligible o = false → ∃ y', probe y o = .ok y'

section Probe

variable {env : SiteChecks} {m : SBlockingMap} {q : SiteQuery} {blockInfos : BlockInfos}

def ground (env : SiteChecks) (pos : AIFloat3) : AIFloat3 := { pos with y := env.getElevationAt pos.x pos.z }

theorem accept_eq (henv : Level env) (pos : AIFloat3) : accept env q pos =
    if env.isPossibleToBuildAt q.cdef (ground env pos) q.facing && q.predicate (ground env pos) then
      .error (ground env pos)
    else .ok (if env.isPossibleToBuildAt q.cdef (ground env pos) q.facing then (ground env pos).y else pos.y) := by
  unfold accept
  rw [show env.isPossibleToBuildAt q.cdef (ground env pos) q.facing = env.isPossibleToBuildAt q.cdef pos q.facing from
    henv.isPossibleToBuildAt _ _ _ _]
  cases env.isPossibleToBuildAt q.cdef pos q.facing with
  | false => rfl
  | true =>
    show (if q.predicate (ground env pos) = true then throw (ground env pos) else pure (ground env pos).y) = _
    cases q.predicate (ground env pos) <;> rfl

theorem site_eq_ground (o : ℤ × ℤ) (y : ℚ) : site env q blockInfos o =
    ground env (centre (siteCorner q blockInfos o) (opposite (siteCorner q blockInfos o) (siteSize q blockInfos)) y) := rfl

theorem safe_ground (henv : Level env) (pos : AIFloat3) :
    env.canBeBuiltAtSafe q.cdef (ground env pos) = env.canBeBuiltAtSafe q.cdef pos := henv.canBeBuiltAtSafe _ _ _

theorem tests_of_eq (henv : Level env) {probe : ℚ → ℤ × ℤ → Except AIFloat3 ℚ} (hprobe : ∀ y o, probe y o =
      if m.isInBounds (siteCorner q blockInfos o) (opposite (siteCorner q blockInfos o) (siteSize q blockInfos)) &&
        isOpen m q blockInfos o && env.canBeBuiltAtSafe q.cdef (site env q blockInfos o) then accept env q
          (centre (siteCorner q blockInfos o) (opposite (siteCorner q blockInfos o) (siteSize q blockInfos)) y)
      else pure y) : Tests probe (eligible env m q blockInfos) (site env q blockInfos) := by
  refine ⟨fun y o h => ?_, fun y o h => ?_⟩
  · simp only [eligible, Bool.and_eq_true] at h
    obtain ⟨⟨⟨⟨hin, hopen⟩, hsafe⟩, hposs⟩, hpred⟩ := h
    rw [hprobe, hin, hopen, hsafe, accept_eq henv, ← site_eq_ground, hposs, hpred]
    rfl
  · rw [hprobe, accept_eq henv, ← site_eq_ground]
    split
    · rename_i hfirst
      simp only [eligible, hfirst, Bool.true_and] at h
      rw [h]
      exact ⟨_, rfl⟩
    · exact ⟨y, rfl⟩

theorem probe_tests (henv : Level env) (hinfo : blockInfos q.cdef.id = none) :
    Tests (probe env m q) (eligible env m q blockInfos) (site env q blockInfos) := by
  have hsize : siteSize q blockInfos = q.cdef.size q.facing := by rw [siteSize, hinfo]; rfl
  refine tests_of_eq henv fun y o => ?_
  rw [site_eq_ground o y, safe_ground henv, isOpen, hinfo, siteCorner, hsize, probe]
  dsimp only
  split_ifs <;> simp_all

theorem probeByMask_tests (henv : Level env) {k : IBlockMask} (hinfo : blockInfos q.cdef.id = some k) :
    Tests (probeByMask env m q k) (eligible env m q blockInfos) (site env q blockInfos) := by
  have hsize : siteSize q blockInfos = q.cdef.sizeByMask q.facing := by rw [siteSize, hinfo]; rfl
  refine tests_of_eq henv fun y o => ?_
  rw [site_eq_ground o y, safe_ground henv, isOpen, hinfo, siteCorner, hsize, probeByMask, sub_add_eq_add_sub]
  dsimp only
  split_ifs <;> simp_all

theorem site_x (o : ℤ × ℤ) : (site env q blockInfos o).x =
    (((corner q.pos (siteSize q blockInfos)).1 + o.1) * 2 + (siteSize q blockInfos).1 : ℤ) * 8 := by
  simp only [site, siteCorner, centre, opposite, squareSize, Prod.fst_add]
  push_cast
  ring

theorem site_z (o : ℤ × ℤ) : (site env q blockInfos o).z =
    (((corner q.pos (siteSize q blockInfos)).2 + o.2) * 2 + (siteSize q blockInfos).2 : ℤ) * 8 := by
  simp only [site, siteCorner, centre, opposite, squareSize, Prod.snd_add]
  push_cast
  ring

theorem site_injective : Function.Injective (site env q blockInfos) := by
  intro o o' h
  have hx := congrArg AIFloat3.x h
  have hz := congrArg AIFloat3.z h
  rw [site_x, site_x, mul_left_inj' (by norm_num), Int.cast_inj] at hx
  rw [site_z, site_z, mul_left_inj' (by norm_num), Int.cast_inj] at hz
  exact Prod.ext (by omega) (by omega)

theorem isValid_site (o : ℤ × ℤ) : isValid (site env q blockInfos o) = true := by
  rw [isValid, bne_iff_ne, site_x]
  intro h
  have hint : (((corner q.pos (siteSize q blockInfos)).1 + o.1) * 2 + (siteSize q blockInfos).1) * 8 = (-1 : ℤ) := by
    exact_mod_cast h
  omega

end Probe

/-! ## The search -/

theorem Offsets.nearest {l : List (ℤ × ℤ)} (h : Offsets R l) (hrR : r ≤ R) {probe : ℚ → ℤ × ℤ → Except AIFloat3 ℚ}
    {eligible : ℤ × ℤ → Bool} {site : ℤ × ℤ → AIFloat3} (htests : Tests probe eligible site)
    (hinj : Function.Injective site) (hvalid : ∀ o, isValid (site o) = true) :
    Nearest eligible site r (returned ((l.take (r * 2 * (r * 2))).foldlM probe 0)) := by
  have hsorted : (l.take (r * 2 * (r * 2))).Pairwise fun a b => sqDist a ≤ sqDist b := h.sorted.sublist (take_sublist ..)
  rcases foldlM_find htests.pass htests.fail (l.take (r * 2 * (r * 2))) 0 with ⟨a, ha, hloop⟩ | ⟨hnone, y, hloop⟩
  · rw [hloop]
    have hmem := mem_of_find?_eq_some ha
    refine ⟨fun _ => ⟨a, find?_some ha, rfl⟩, fun o ho o' ho' hel => ?_, fun habs => ?_⟩
    · obtain rfl := hinj ho
      by_contra hlt
      have ho'l : o' ∈ l := (h.mem_iff o').2 (by unfold InSquare at ho' ⊢; omega)
      exact hlt (find_le hsorted ha (mem_take_of_lt h.sorted hmem ho'l (not_le.1 hlt)) hel)
    · exact absurd ((hvalid a).symm.trans habs) (by decide)
  · rw [hloop]
    have hinvalid : ¬isValid (returned (.ok y)) = true := show ¬isValid noPos = true by decide
    refine ⟨fun habs => absurd habs hinvalid, fun o ho => ?_, fun _ o ho => ?_⟩
    · exact absurd (ho ▸ hvalid o) hinvalid
    · have hol : o ∈ l := by
        have hsq := Offsets.inSquare_of_sqDist ho
        refine (h.mem_iff o).2 ?_
        unfold InSquare at hsq ⊢
        omega
      simpa using find?_eq_none.1 hnone o (mem_take_of_countP h.sorted (h.countP_le r) hol ho)

/-- After any searches, the search for a site with or without a mask over the table of offsets returns a nearest site. -/
theorem findBuildSite_nearest (sort : List SSearchOffset → List SSearchOffset) (hsort : Sorts SSearchOffset.qdist sort)
    (searchOffsets : List SSearchOffset) (hhist : History sort searchOffsets) (env : SiteChecks) (henv : Level env)
    (m : SBlockingMap) (q : SiteQuery) (blockInfos : BlockInfos) (hfine : IsFine blockInfos q) (hr : 0 ≤ endr q) :
    Nearest (eligible env m q blockInfos) (site env q blockInfos) (endr q)
      (findBuildSite (env.withTable sort searchOffsets) m q blockInfos) := by
  obtain ⟨R, hR⟩ := hhist.table hsort
  obtain ⟨r, hr⟩ := Int.eq_ofNat_of_zero_le hr
  have hoffsets := (hR.grow hsort r).offsets
  have henv' : Level (env.withTable sort searchOffsets) := ⟨henv.canBeBuiltAtSafe, henv.isPossibleToBuildAt⟩
  have hsearch : ∀ {probe : ℚ → ℤ × ℤ → Except AIFloat3 ℚ},
      Tests probe (eligible env m q blockInfos) (site env q blockInfos) →
      Nearest (eligible env m q blockInfos) (site env q blockInfos) (endr q)
        (searchFine (env.withTable sort searchOffsets) q probe) := by
    intro probe htests
    rw [searchFine, hr, take_size]
    exact hoffsets.nearest (le_max_right R r) htests site_injective isValid_site
  cases hinfo : blockInfos q.cdef.id with
  | none =>
    rw [findBuildSite, hinfo]
    dsimp only
    rw [if_neg (not_lt.2 hfine.1)]
    exact hsearch (probe_tests henv' hinfo)
  | some k =>
    rw [findBuildSite, hinfo]
    dsimp only
    rw [findBuildSiteByMask, if_neg (not_or.2 ⟨not_lt.2 hfine.1, not_lt.2 (hfine.2 k hinfo)⟩)]
    exact hsearch (probeByMask_tests henv' hinfo)

def usedTable : List SSearchOffset := getSearchOffsetTable (sortBy (·.qdist)) 3 []

def takenMap : SBlockingMap :=
  addBlocker Buildings.sample.blockInfos Buildings.sample.start (Buildings.sampleBuilding 1 3 3)

/-- A second generator goes next to the first. -/
theorem findBuildSite_nearest_generator : endr Buildings.generatorQuery = 2 ∧
    Nearest (eligible Buildings.openGround takenMap Buildings.generatorQuery Buildings.sample.blockInfos)
      (site Buildings.openGround Buildings.generatorQuery Buildings.sample.blockInfos) (endr Buildings.generatorQuery)
      (findBuildSite (Buildings.openGround.withTable (sortBy (·.qdist)) usedTable) takenMap Buildings.generatorQuery
        Buildings.sample.blockInfos) ∧
    findBuildSite (Buildings.openGround.withTable (sortBy (·.qdist)) usedTable) takenMap Buildings.generatorQuery
      Buildings.sample.blockInfos = site Buildings.openGround Buildings.generatorQuery Buildings.sample.blockInfos (0, -1) :=
  ⟨by decide +kernel, findBuildSite_nearest (sortBy (·.qdist)) (sorts_sortBy _) usedTable (.search 3 .start)
    Buildings.openGround ⟨fun _ _ _ => rfl, fun _ _ _ _ => rfl⟩ takenMap Buildings.generatorQuery Buildings.sample.blockInfos
    ⟨by decide +kernel, fun k hk => by cases hk; decide⟩ (by decide +kernel), by decide +kernel⟩

end Circuit.Spec.NearestSites
