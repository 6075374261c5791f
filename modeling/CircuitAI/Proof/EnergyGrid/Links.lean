import CircuitAI.Proof.EnergyGrid.Graph
import CircuitAI.Framework.Loop
import CircuitAI.Framework.Steps

/-!
# Links report their connections

From the neighbours of an endpoint a search reaches the other endpoint if and only if they are connected (`reaches_iff`);
hence a check ends, and leaves a link that reports its connection (`exists_checkConnection`, `reports_checkConnection`).
Between checks a grid keeps `Checked`: a link that is in neither set of the grid is as its last check left it. So after
any run a check of the grid ends, and leaves every link right (`links_report`).
-/

set_option linter.unusedSectionVars false

namespace Circuit.Spec.EnergyLinks

open Framework Relation Impl.EnergyGrid CEnergyLink Option List Bool
open Impl.TerrainManager (AIFloat3)

variable {ι : Type*} [DecidableEq ι] {l l' : CEnergyLink ι} {distance2D : AIFloat3 → AIFloat3 → ℚ} {it : SetOrder}
  {fuel : ℕ} {unitId : ι} {pos : AIFloat3} {range : ℚ}

/-! ## What a search reaches -/

theorem covers_iff_adjacent (hl : Graph l) {i : Bool} {addr : ℕ} :
    Covers l i addr ↔ Registered l addr ∧ Adjacent l.memory (.vertex i) (.pylon addr) := by
  unfold Covers Adjacent
  rw [hl.point, zero_add]
  simp

theorem mem_neighbors_vertex (hl : Graph l) {i : Bool} {q : Ref} :
    q ∈ (l.memory (.vertex i)).neighbors ↔ ∃ addr, q = .pylon addr ∧ Covers l i addr := by
  rw [hl.mem_neighbors (.vertex i) q trivial]
  constructor
  · rintro ⟨hq, hadj⟩
    cases q with
    | vertex j => exact absurd rfl (hadj.1 i j rfl)
    | pylon addr => exact ⟨addr, rfl, (covers_iff_adjacent hl).mpr ⟨hq, hadj⟩⟩
  · rintro ⟨addr, rfl, hcov⟩
    exact (covers_iff_adjacent hl).mp hcov

theorem mem_neighbors_pylon (hl : Graph l) {a : ℕ} (ha : Registered l a) {q : Ref}
    (hq : q ∈ (l.memory (.pylon a)).neighbors) :
    (∃ i, q = .vertex i ∧ Covers l i a) ∨ ∃ b, q = .pylon b ∧ Overlap l a b := by
  obtain ⟨hknown, hadj⟩ := (hl.mem_neighbors (.pylon a) q ha).mp hq
  cases q with
  | vertex i => exact .inl ⟨i, rfl, (covers_iff_adjacent hl).mpr ⟨ha, hadj.symm⟩⟩
  | pylon b => exact .inr ⟨b, rfl, ha, hknown, hadj.2.2⟩

theorem mem_neighbors_of_overlap (hl : Graph l) {a b : ℕ} (h : Overlap l a b) (hne : a ≠ b) :
    Ref.pylon b ∈ (l.memory (.pylon a)).neighbors := by
  obtain ⟨ha, hb, hlt⟩ := h
  exact (hl.mem_neighbors (.pylon a) _ ha).mpr ⟨hb, nofun, by simpa using hne, hlt⟩

def ChainTo (l : CEnergyLink ι) (i : Bool) (b : ℕ) : Prop := ∃ a, Covers l i a ∧ ReflTransGen (Overlap l) a b

theorem ChainTo.registered {i : Bool} {b : ℕ} (h : ChainTo l i b) : Registered l b := by
  obtain ⟨a, ha, hab⟩ := h
  cases hab with
  | refl => exact ha.1
  | tail _ hcb => exact hcb.2.1

theorem reachesFrom_side (hl : Graph l) {i : Bool} {r : Ref} (h : ReachesFrom l it i r) :
    Chain l i (!i) ∨ r = .vertex i ∨ ∃ b, r = .pylon b ∧ ChainTo l i b := by
  refine h.rule (P := fun r => Chain l i (!i) ∨ r = .vertex i ∨ ∃ b, r = .pylon b ∧ ChainTo l i b) ?_ ?_
  · intro u hu
    obtain ⟨a, rfl, ha⟩ := (mem_neighbors_vertex hl).mp (it.mem_order.mp hu)
    exact .inr (.inr ⟨a, rfl, a, ha, .refl⟩)
  · intro u w hu hw
    have hw' := it.mem_order.mp hw
    rcases hu with hconn | rfl | ⟨b, rfl, a, ha, hab⟩
    · exact .inl hconn
    · obtain ⟨a, rfl, ha⟩ := (mem_neighbors_vertex hl).mp hw'
      exact .inr (.inr ⟨a, rfl, a, ha, .refl⟩)
    · have hb : ChainTo l i b := ⟨a, ha, hab⟩
      rcases mem_neighbors_pylon hl hb.registered hw' with ⟨j, rfl, hj⟩ | ⟨c, rfl, hbc⟩
      · by_cases hij : j = i
        · exact .inr (.inl (by rw [hij]))
        · have hother : j = !i := eq_not.mpr hij
          exact .inl ⟨a, b, ha, hab, hother ▸ hj⟩
      · exact .inr (.inr ⟨c, rfl, a, ha, hab.tail hbc⟩)

theorem reachesFrom_chainTo (hl : Graph l) {i : Bool} {b : ℕ} (h : ChainTo l i b) : ReachesFrom l it i (.pylon b) := by
  obtain ⟨a, ha, hab⟩ := h
  induction hab with
  | refl => exact .of_mem (it.mem_order.mpr ((mem_neighbors_vertex hl).mpr ⟨a, rfl, ha⟩))
  | @tail b c _ hbc ih =>
    by_cases heq : b = c
    · exact heq ▸ ih
    · exact ih.tail (it.mem_order.mpr (mem_neighbors_of_overlap hl hbc heq))

theorem reaches_iff (hl : Graph l) {i : Bool} : ReachesFrom l it i (.vertex !i) ↔ Chain l i (!i) := by
  constructor
  · intro h
    rcases reachesFrom_side hl h with hconn | heq | ⟨b, heq, _⟩
    · exact hconn
    · cases i <;> cases heq
    · cases heq
  · rintro ⟨a, b, ha, hab, hb⟩
    have hreach : ReachesFrom l it i (.pylon b) := reachesFrom_chainTo hl ⟨a, ha, hab⟩
    have hback : Ref.vertex (!i) ∈ (l.memory (.pylon b)).neighbors :=
      (hl.symm (r := .vertex !i) trivial ((mem_neighbors_vertex hl).mpr ⟨b, rfl, hb⟩)).2
    exact hreach.tail (it.mem_order.mpr hback)

/-! ## The check of a link -/

def refs (l : CEnergyLink ι) : Finset Ref :=
  (.vertex false :: .vertex true :: l.pylons.map (.pylon ·.2)).toFinset

theorem mem_refs {r : Ref} : r ∈ refs l ↔ Known l r := by
  cases r with
  | vertex i => cases i <;> simp [refs, Known]
  | pylon addr => simp [refs, Known, Registered]

theorem exists_searchFrom (hl : Graph l) (distance2D : AIFloat3 → AIFloat3 → ℚ) (it : SetOrder) (i : Bool)
    (stop : Ref → Bool) (p1 : AIFloat3) : ∃ n r, ∀ m, n ≤ m → l.searchFrom distance2D it m i stop p1 = some r := by
  have hclosed : ∀ r ∈ refs l, ∀ q ∈ it.order (l.memory r).neighbors, q ∈ refs l := fun r hr q hq =>
    mem_refs.mpr (hl.symm (mem_refs.mp hr) (it.mem_order.mp hq)).1
  have hsearch : ∃ n r, l.searchFrom distance2D it n i stop p1 = some r :=
    exists_search (refs l) hclosed (hclosed (.vertex i) (mem_refs.mpr trivial)) none
  obtain ⟨n, r, hr⟩ := hsearch
  exact ⟨n, r, fun m hm => search_mono hm hr⟩

theorem nearer_mem (m : Memory) (p1 : AIFloat3) (best : Option (ℚ × Ref)) (q : Ref) {x : ℚ × Ref}
    (h : nearer distance2D m p1 best q = some x) : x.2 = q ∨ best = some x := by
  unfold nearer at h
  dsimp only at h
  split at h
  · cases h
    exact .inl rfl
  · exact .inr h

theorem headOf_searchFrom {i : Bool} {stop : Ref → Bool} {p1 : AIFloat3} {best : Option (ℚ × Ref)}
    (h : l.searchFrom distance2D it fuel i stop p1 = some (some best)) :
    headOf best i = .vertex i ∨ ReachesFrom l it i (headOf best i) := by
  have hbest : ∀ x, best = some x → ReachesFrom l it i x.2 := by
    refine search_result (Q := fun best => ∀ x, best = some x → ReachesFrom l it i x.2) nofun ?_ h
    intro best v hQ hv _ x hx
    rcases nearer_mem _ _ _ _ hx with heq | heq
    · exact heq ▸ hv
    · exact hQ x heq
  cases best with
  | none => exact .inl rfl
  | some x => exact .inr (hbest x rfl)

theorem head_known (hl : Graph l) {i : Bool} {r : Ref} (hconn : ¬ Chain l i (!i))
    (h : r = .vertex i ∨ ReachesFrom l it i r) : r = .vertex i ∨ ∃ addr, Registered l addr ∧ r = .pylon addr := by
  rcases h with h | h
  · exact .inl h
  · rcases reachesFrom_side hl h with hc | hc | ⟨b, hb, hchain⟩
    · exact absurd hc hconn
    · exact .inl hc
    · exact .inr ⟨b, hchain.registered, hb⟩

theorem exists_checkConnection (hl : Graph l) (distance2D : AIFloat3 → AIFloat3 → ℚ) (it : SetOrder) :
    ∃ n l', ∀ m, n ≤ m → l.checkConnection distance2D it m = some l' := by
  obtain ⟨n, r, hr⟩ := exists_searchFrom hl distance2D it l.source (· = .vertex l.target)
    (l.memory (.vertex l.target)).pos
  cases r with
  | none =>
    exact ⟨n, _, fun m hm => by rw [checkConnection, hr m hm]⟩
  | some best =>
    obtain ⟨n', r', hr'⟩ := exists_searchFrom hl distance2D it l.target (fun _ => false)
      (l.memory (headOf best l.source)).pos
    cases r' with
    | none =>
      obtain ⟨_, _, hstop⟩ := search_sound (hr' n' (Nat.le_refl n'))
      cases hstop
    | some best' =>
      refine ⟨max n n', l.setHeads distance2D (headOf best l.source) (headOf best' l.target),
        fun m hm => ?_⟩
      rw [checkConnection, hr m (by omega)]
      dsimp only
      rw [hr' m (by omega)]

theorem checkConnection_cases (hl : Graph l) (h : l.checkConnection distance2D it fuel = some l') :
    (Connected l ∧ l' = { l with isFinished := true, costMod := minCostMod }) ∨
    ¬ Connected l ∧ ∃ sourceHead targetHead, l' = l.setHeads distance2D sourceHead targetHead ∧
      (sourceHead = .vertex l.source ∨ ReachesFrom l it l.source sourceHead) ∧
      (targetHead = .vertex l.target ∨ ReachesFrom l it l.target targetHead) := by
  have hiff : ReachesFrom l it l.source (.vertex l.target) ↔ Connected l := reaches_iff hl
  rw [checkConnection] at h
  split at h
  · cases h
  · rename_i hfirst
    cases h
    obtain ⟨v, hv, hstop⟩ := search_sound hfirst
    have hv' : v = .vertex l.target := by simpa using hstop
    exact .inl ⟨hiff.mp (hv' ▸ hv), rfl⟩
  · rename_i best hfirst
    dsimp only at h
    split at h
    · rename_i best' hsecond
      cases h
      refine .inr ⟨fun hconn => ?_, _, _, rfl, headOf_searchFrom hfirst, headOf_searchFrom hsecond⟩
      have := search_complete hfirst (hiff.mpr hconn)
      simp at this
    · cases h

theorem checkConnection_frame (hl : Graph l) (h : l.checkConnection distance2D it fuel = some l') :
    l'.memory = l.memory ∧ l'.pylons = l.pylons ∧ l'.nextPylon = l.nextPylon ∧ l'.source = l.source := by
  rcases checkConnection_cases hl h with ⟨_, rfl⟩ | ⟨_, _, _, rfl, _⟩ <;> exact ⟨rfl, rfl, rfl, rfl⟩

theorem Graph.congr (hl : Graph l) (hm : l'.memory = l.memory) (hp : l'.pylons = l.pylons)
    (hn : l'.nextPylon = l.nextPylon) : Graph l' := by
  have hreg : Registered l' = Registered l := by
    funext addr
    rw [Registered, Registered, hp]
  have hknown : Known l' = Known l := by
    funext r
    cases r with
    | vertex i => rfl
    | pylon addr => exact congrFun hreg addr
  refine ⟨hp ▸ hl.ids, hp ▸ hl.addrs, ?_, ?_, ?_⟩
  · rw [hreg, hn]
    exact hl.allocated
  · rw [hm]
    exact hl.point
  · rw [hknown, hm]
    exact hl.mem_neighbors

theorem Chain.congr (hm : l'.memory = l.memory) (hp : l'.pylons = l.pylons) {i j : Bool} :
    Chain l' i j ↔ Chain l i j := by
  constructor
  · refine Chain.mono (fun addr h => ?_) fun r _ => ⟨by rw [hm], by rw [hm]⟩
    rwa [Registered, ← hp]
  · refine Chain.mono (fun addr h => ?_) fun r _ => ⟨by rw [hm], by rw [hm]⟩
    rwa [Registered, hp]

theorem graph_checkConnection (hl : Graph l) (h : l.checkConnection distance2D it fuel = some l') : Graph l' := by
  obtain ⟨hm, hp, hn, _⟩ := checkConnection_frame hl h
  exact hl.congr hm hp hn

theorem reports_checkConnection (hl : Graph l) (h : l.checkConnection distance2D it fuel = some l') : Reports l' := by
  have hl' := graph_checkConnection hl h
  refine ⟨?_, fun r q hr hq => hl'.symm hr hq, ?_⟩
  · rcases checkConnection_cases hl h with ⟨hconn, rfl⟩ | ⟨hconn, _, _, rfl, _⟩
    · exact ⟨fun _ => (Chain.congr rfl rfl).mpr hconn, fun _ => rfl⟩
    · exact ⟨nofun, fun h => absurd ((Chain.congr rfl rfl).mp h) hconn⟩
  · intro hfin i
    rcases checkConnection_cases hl h with ⟨_, rfl⟩ | ⟨hconn, s, t, rfl, hs, ht⟩
    · cases hfin
    · have hback : ¬ Chain l l.target (!l.target) := fun h => hconn (by
        have := h.symm
        rwa [target, Bool.not_not] at this)
      by_cases hi : i = l.source
      · simp only [setHeads, hi, if_true]
        exact head_known hl hconn hs
      · have hi' : i = l.target := Bool.eq_not.mpr hi
        simp only [setHeads, if_neg hi]
        rw [hi']
        exact head_known hl hback ht

/-! ## The grid between checks -/

structure Checked (e : GridLink ι) : Prop where
  graph : Graph e.link
  connected : e.inUnlinkPylons = false → e.link.isFinished = true → Connected e.link
  heads : e.inUnlinkPylons = false → e.link.isFinished = false → HeadsKnown e.link
  finished : e.inUnlinkPylons = false → e.inLinkPylons = false → Connected e.link → e.link.isFinished = true

theorem checked_of_reports {b : Bool} (hl : Graph l) (h : Reports l) : Checked ⟨l, b, false⟩ :=
  ⟨hl, fun _ => h.finished.mp, fun _ => h.heads, fun _ _ => h.finished.mpr⟩

theorem Checked.reports {e : GridLink ι} (he : Checked e) (hu : e.inUnlinkPylons = false)
    (hlink : e.inLinkPylons = false ∨ e.link.isFinished = true) : Reports e.link := by
  refine ⟨⟨he.connected hu, fun hconn => ?_⟩, fun r q hr hq => he.graph.symm hr hq, he.heads hu⟩
  rcases hlink with hlink | hfin
  · exact he.finished hu hlink hconn
  · exact hfin

theorem checked_init (distance2D : AIFloat3 → AIFloat3 → ℚ) (idx0 idx1 : ℤ) (p0 p1 : AIFloat3) :
    Checked (⟨.new distance2D idx0 p0 idx1 p1, false, false⟩ : GridLink ι) := by
  refine ⟨graph_new .., fun _ h => ?_, fun _ _ i => ?_, ?_⟩
  · cases h
  · cases i <;> exact .inl rfl
  · rintro _ _ ⟨a, _, ha, _⟩
    cases ha.1

theorem checked_addPylon {e : GridLink ι} (he : Checked e) :
    Checked { e with link := e.link.addPylon unitId pos range, inLinkPylons := true } := by
  by_cases hid : unitId ∈ e.link.pylons.map (·.1)
  · rw [addPylon, if_pos hid]
    exact ⟨he.graph, he.connected, he.heads, by simp⟩
  · have hreg : ∀ addr, Registered e.link addr → Registered (e.link.addPylon unitId pos range) addr :=
      fun addr h => (registered_addPylon hid).mpr (.inr h)
    have hsame : (e.link.addPylon unitId pos range).vertex = e.link.vertex ∧
        (e.link.addPylon unitId pos range).source = e.link.source ∧
        (e.link.addPylon unitId pos range).isFinished = e.link.isFinished := by
      rw [addPylon, if_neg hid]
      exact ⟨rfl, rfl, rfl⟩
    obtain ⟨hvertex, hsource, hfin⟩ := hsame
    refine ⟨graph_addPylon he.graph, fun hu h => ?_, fun hu h i => ?_, by simp⟩
    · have hconn := he.connected hu (hfin ▸ h)
      rw [Connected, target, hsource]
      refine Chain.mono hreg (fun r hr => ?_) hconn
      have hshape : SameShape (allocate e.link pos range) (e.link.addPylon unitId pos range).memory :=
        sameShape_addPylon hid
      have hr' := hshape r
      rwa [allocate_known he.graph hr] at hr'
    · rw [hvertex]
      rcases he.heads hu (hfin ▸ h) i with hhead | ⟨addr, haddr, hhead⟩
      · exact .inl hhead
      · exact .inr ⟨addr, hreg addr haddr, hhead⟩

theorem checked_removePylon {e : GridLink ι} (he : Checked e) :
    Checked { e with
      link := (e.link.removePylon unitId).1
      inUnlinkPylons := e.inUnlinkPylons || (e.link.removePylon unitId).2 } := by
  cases h : e.link.pylons.lookup unitId with
  | none =>
    rw [removePylon_none h, Bool.or_false]
    exact he
  | some addr =>
    rw [removePylon_removed h, Bool.or_true]
    exact ⟨graph_removePylon he.graph, nofun, nofun, nofun⟩

theorem connected_setSource {index : ℤ} : Connected (l.setSource index) ↔ Connected l := by
  unfold setSource
  split
  · have hiff : Connected { l with source := l.target } ↔ Chain l l.target (!l.target) := Chain.congr rfl rfl
    rw [hiff, Connected, target, Bool.not_not]
    exact ⟨.symm, .symm⟩
  · rfl

theorem checked_setSource {e : GridLink ι} (he : Checked e) (index : ℤ) :
    Checked { e with link := e.link.setSource index } := by
  have hfin : (e.link.setSource index).isFinished = e.link.isFinished := by
    unfold setSource
    split <;> rfl
  have hheads : HeadsKnown (e.link.setSource index) ↔ HeadsKnown e.link := by
    unfold setSource
    split <;> rfl
  refine ⟨?_, fun hu h => ?_, fun hu h => ?_, fun hu hl h => ?_⟩
  · refine he.graph.congr ?_ ?_ ?_ <;>
    · dsimp only [setSource]
      split <;> rfl
  · exact connected_setSource.mpr (he.connected hu (hfin ▸ h))
  · exact hheads.mpr (he.heads hu (hfin ▸ h))
  · exact hfin.trans (he.finished hu hl (connected_setSource.mp h))

theorem reports_checkLink {e e' : GridLink ι} (he : Checked e)
    (h : CEnergyGrid.checkLink distance2D it fuel e = some e') : Checked e' ∧ Reports e'.link := by
  unfold CEnergyGrid.checkLink at h
  dsimp only at h
  obtain ⟨link', hlink', rfl⟩ := map_eq_some_iff.mp h
  obtain ⟨link, hlink, hunlink⟩ := bind_eq_some_iff.mp hlink'
  have hfirst : Graph link ∧ (e.inUnlinkPylons = false → Reports link) := by
    split at hlink
    · exact ⟨graph_checkConnection he.graph hlink, fun _ => reports_checkConnection he.graph hlink⟩
    · rename_i hskip
      cases hlink
      refine ⟨he.graph, fun hu => he.reports hu ?_⟩
      cases hl : e.inLinkPylons with
      | false => exact .inl rfl
      | true => exact .inr (by simpa [hl] using hskip)
  have hsecond : Graph link' ∧ Reports link' := by
    split at hunlink
    · exact ⟨graph_checkConnection hfirst.1 hunlink, reports_checkConnection hfirst.1 hunlink⟩
    · rename_i hskip
      cases hunlink
      exact ⟨hfirst.1, hfirst.2 (by simpa using hskip)⟩
  exact ⟨checked_of_reports hsecond.1 hsecond.2, hsecond.2⟩

theorem exists_checkLink {e : GridLink ι} (he : Checked e) (distance2D : AIFloat3 → AIFloat3 → ℚ) (it : SetOrder) :
    ∃ n, ∀ m, n ≤ m → ∃ e', CEnergyGrid.checkLink distance2D it m e = some e' := by
  have hif : ∀ (c : Bool) (l : CEnergyLink ι), Graph l → ∃ n l', Graph l' ∧
      ∀ m, n ≤ m → (if c then l.checkConnection distance2D it m else some l) = some l' := by
    intro c l hl
    cases c with
    | false => exact ⟨0, l, hl, fun _ _ => rfl⟩
    | true =>
      obtain ⟨n, l', hl'⟩ := exists_checkConnection hl distance2D it
      exact ⟨n, l', graph_checkConnection hl (hl' n (Nat.le_refl n)), hl'⟩
  obtain ⟨n, link, hlink, hn⟩ := hif (e.inLinkPylons && !e.link.isFinished) e.link he.graph
  obtain ⟨n', link', _, hn'⟩ := hif e.inUnlinkPylons link hlink
  refine ⟨max n n', fun m hm => ⟨⟨link', false, false⟩, ?_⟩⟩
  unfold CEnergyGrid.checkLink
  dsimp only
  rw [hn m (by omega), bind_some, hn' m (by omega), map_some]

/-! ## Runs -/

theorem checked_step {g t : CEnergyGrid ι} (hg : ∀ e ∈ g, Checked e) (hst : Step distance2D g t) :
    ∀ e ∈ t, Checked e := by
  intro e' he'
  cases hst with
  | addPylon unitId pos range =>
    obtain ⟨e, he, rfl⟩ := mem_map.mp he'
    split
    · exact checked_addPylon (hg e he)
    · exact hg e he
  | removePylon unitId =>
    obtain ⟨e, he, rfl⟩ := mem_map.mp he'
    exact checked_removePylon (hg e he)
  | checkGrid it fuel h =>
    obtain ⟨e, he, hcheck⟩ := exists_of_mem_mapM h he'
    exact (reports_checkLink (hg e he) hcheck).1
  | setSource edgeIdx index =>
    obtain ⟨i, hi, rfl⟩ := mem_iff_getElem.mp he'
    rw [CEnergyGrid.setSource, length_modify] at hi
    simp only [CEnergyGrid.setSource, getElem_modify]
    split
    · exact checked_setSource (hg _ (getElem_mem hi)) index
    · exact hg _ (getElem_mem hi)

theorem Run.checked {edges : List (Endpoint × Endpoint)} {g : CEnergyGrid ι} (h : Run distance2D edges g) :
    ∀ e ∈ g, Checked e := by
  refine invariant_of_steps (P := fun g => ∀ e ∈ g, Checked e) (fun g t => checked_step) ?_ h
  intro e he
  obtain ⟨edge, _, rfl⟩ := mem_map.mp he
  exact checked_init ..

/-- After any run a check of the grid ends, and leaves every link of it right. -/
theorem links_report {edges : List (Endpoint × Endpoint)} {g : CEnergyGrid ι} (h : Run distance2D edges g)
    (it : SetOrder) : (∃ fuel t, g.checkGrid distance2D it fuel = some t) ∧
      ∀ fuel t, g.checkGrid distance2D it fuel = some t → ∀ e ∈ t, Reports e.link := by
  constructor
  · obtain ⟨n, hn⟩ := exists_mapM fun e he => exists_checkLink (h.checked e he) distance2D it
    obtain ⟨t, ht⟩ := hn n (Nat.le_refl n)
    exact ⟨n, t, ht⟩
  · intro fuel t ht e' he'
    obtain ⟨e, he, hcheck⟩ := exists_of_mem_mapM ht he'
    exact (reports_checkLink (h.checked e he) hcheck).2

/-- Two pylons join the endpoints, and a third one is gone before the check. -/
theorem links_report_chain : let edge : Endpoint × Endpoint := ((0, ⟨0, 0, 0⟩), (1, ⟨10, 0, 0⟩))
    let g : CEnergyGrid ℕ := ((((init (fun _ _ => 10) [edge]).addPylon (fun _ _ => 10) 7 ⟨2, 0, 0⟩ 3).addPylon
      (fun _ _ => 10) 8 ⟨8, 0, 0⟩ 4).addPylon (fun _ _ => 10) 9 ⟨5, 0, 0⟩ 6).removePylon 9
    ∃ t, g.checkGrid (fun _ _ => 10) ⟨id, Iff.rfl⟩ 9 = some t ∧ ∀ e ∈ t, e.link.pylons.length = 2 ∧ Connected e.link := by
  intro edge g
  have hrun : Run (fun _ _ => 10) [edge] g :=
    .tail (.tail (.tail (.single (.addPylon ..)) (.addPylon ..)) (.addPylon ..)) (.removePylon ..)
  have hall : ∃ t ∈ (g.checkGrid (fun _ _ => 10) ⟨id, Iff.rfl⟩ 9).toList,
      ∀ e ∈ t, e.link.pylons.length = 2 ∧ e.link.isFinished = true := by decide +kernel
  obtain ⟨t, ht, hall⟩ := hall
  rw [mem_toList] at ht
  exact ⟨t, ht, fun e he => ⟨(hall e he).1, ((links_report hrun _).2 9 t ht e he).finished.mp (hall e he).2⟩⟩

end Circuit.Spec.EnergyLinks
