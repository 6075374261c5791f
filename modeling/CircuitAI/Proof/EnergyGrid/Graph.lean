import CircuitAI.Spec.EnergyLinks
import Mathlib.Tactic.Ring

/-!
# The graph of a link

The neighbours that a link has stored are those that its positions and ranges give: `Graph` says so for all known pylons,
`graph_addPylon` and `graph_removePylon` that additions and removals keep it.
-/

set_option linter.unusedSectionVars false

namespace Circuit.Spec.EnergyLinks

open Framework Relation Impl.EnergyGrid Function List CEnergyLink
open Impl.TerrainManager (AIFloat3)

/-! ## Neighbours -/

variable {x : Ref}

section Memory

variable {m : Memory} {near : AIFloat3 → ℚ → Bool} {r q p : Ref} {qs ns : List Ref}

theorem setNeighbors_pos : (m.setNeighbors r ns p).pos = (m p).pos := by
  unfold Memory.setNeighbors
  by_cases h : p = r
  · rw [h, update_self]
  · rw [update_of_ne h]

theorem setNeighbors_range : (m.setNeighbors r ns p).range = (m p).range := by
  unfold Memory.setNeighbors
  by_cases h : p = r
  · rw [h, update_self]
  · rw [update_of_ne h]

theorem setNeighbors_neighbors : (m.setNeighbors r ns p).neighbors = if p = r then ns else (m p).neighbors := by
  unfold Memory.setNeighbors
  by_cases h : p = r
  · rw [h, update_self, if_pos rfl]
  · rw [update_of_ne h, if_neg h]

def SameShape (m m' : Memory) : Prop := ∀ p, (m' p).pos = (m p).pos ∧ (m' p).range = (m p).range

theorem sameShape_connect : SameShape m (m.connect r q) := fun p => by
  simp [Memory.connect, setNeighbors_pos, setNeighbors_range]

theorem sameShape_connectAll : SameShape m (m.connectAll near r qs) := by
  induction qs generalizing m with
  | nil => exact fun p => ⟨rfl, rfl⟩
  | cons q qs ih =>
    intro p
    rw [Memory.connectAll, foldl_cons]
    by_cases h : near (m q).pos (m q).range = true
    · rw [if_pos h]
      have hconnect := sameShape_connect (m := m) (r := r) (q := q) p
      have hrest := ih (m := m.connect r q) p
      exact ⟨hrest.1.trans hconnect.1, hrest.2.trans hconnect.2⟩
    · rw [if_neg h]
      exact ih p

theorem sameShape_eraseAll : SameShape m (m.eraseAll r qs) := by
  induction qs generalizing m with
  | nil => exact fun p => ⟨rfl, rfl⟩
  | cons q qs ih =>
    intro p
    rw [Memory.eraseAll, foldl_cons]
    have hrest := ih (m := m.setNeighbors q ((m q).neighbors.filter (· ≠ r))) p
    exact ⟨hrest.1.trans setNeighbors_pos, hrest.2.trans setNeighbors_range⟩

theorem mem_connect (hrq : r ≠ q) :
    x ∈ (m.connect r q p).neighbors ↔ x ∈ (m p).neighbors ∨ (p = r ∧ x = q) ∨ (p = q ∧ x = r) := by
  simp only [Memory.connect, setNeighbors_neighbors]
  grind

theorem mem_connectAll (hr : r ∉ qs) : x ∈ (m.connectAll near r qs p).neighbors ↔ x ∈ (m p).neighbors ∨
      (p = r ∧ x ∈ qs ∧ near (m x).pos (m x).range) ∨ (x = r ∧ p ∈ qs ∧ near (m p).pos (m p).range) := by
  induction qs generalizing m with
  | nil => simp [Memory.connectAll]
  | cons q qs ih =>
    rw [mem_cons, not_or] at hr
    rw [Memory.connectAll, foldl_cons, ← Memory.connectAll]
    by_cases h : near (m q).pos (m q).range = true
    · have hshape := sameShape_connect (m := m) (r := r) (q := q)
      rw [if_pos h, ih hr.2, mem_connect hr.1, (hshape x).1, (hshape x).2, (hshape p).1, (hshape p).2]
      grind
    · rw [if_neg h, ih hr.2]
      grind

theorem mem_eraseAll : x ∈ (m.eraseAll r qs p).neighbors ↔ x ∈ (m p).neighbors ∧ (x = r → p ∉ qs) := by
  induction qs generalizing m with
  | nil => simp [Memory.eraseAll]
  | cons q qs ih =>
    rw [Memory.eraseAll, foldl_cons, ← Memory.eraseAll, ih, setNeighbors_neighbors]
    grind

end Memory

/-! ## The invariant -/

variable {ι : Type*} [DecidableEq ι] {l : CEnergyLink ι} {r q : Ref} {unitId : ι} {pos : AIFloat3} {range : ℚ}

def Adjacent (m : Memory) (r q : Ref) : Prop :=
  (∀ i j, r = .vertex i → q ≠ .vertex j) ∧ r ≠ q ∧
    (m r).pos.sqDistance2D (m q).pos < ((m r).range + (m q).range) ^ 2

theorem sqDistance2D_comm (p q : AIFloat3) : p.sqDistance2D q = q.sqDistance2D p := by
  unfold AIFloat3.sqDistance2D
  ring

theorem Adjacent.symm {m : Memory} (h : Adjacent m r q) : Adjacent m q r := by
  obtain ⟨hv, hne, hlt⟩ := h
  refine ⟨fun i j hq hr => hv j i hr hq, hne.symm, ?_⟩
  rwa [sqDistance2D_comm, add_comm]

theorem SameShape.adjacent {m m' : Memory} (h : SameShape m m') : Adjacent m' r q ↔ Adjacent m r q := by
  unfold Adjacent
  rw [(h r).1, (h r).2, (h q).1, (h q).2]

structure Graph (l : CEnergyLink ι) : Prop where
  ids : (l.pylons.map (·.1)).Nodup
  addrs : (l.pylons.map (·.2)).Nodup
  allocated : ∀ addr, Registered l addr → addr < l.nextPylon
  point : ∀ i, (l.memory (.vertex i)).range = 0
  mem_neighbors : ∀ r q, Known l r → (q ∈ (l.memory r).neighbors ↔ Known l q ∧ Adjacent l.memory r q)

theorem Graph.symm (hl : Graph l) (hr : Known l r) (h : q ∈ (l.memory r).neighbors) :
    Known l q ∧ r ∈ (l.memory q).neighbors := by
  obtain ⟨hq, hadj⟩ := (hl.mem_neighbors r q hr).mp h
  exact ⟨hq, (hl.mem_neighbors q r hq).mpr ⟨hr, hadj.symm⟩⟩

theorem graph_new (distance2D : AIFloat3 → AIFloat3 → ℚ) (idx0 idx1 : ℤ) (p0 p1 : AIFloat3) :
    Graph (.new distance2D idx0 p0 idx1 p1 : CEnergyLink ι) := by
  have hnone : ∀ r, ((.new distance2D idx0 p0 idx1 p1 : CEnergyLink ι).memory r).neighbors = [] := by
    intro r
    simp only [new]
    split <;> rfl
  refine ⟨nodup_nil, nodup_nil, nofun, fun i => ?_, fun r q hr => ?_⟩
  · simp only [new]
    split <;> rfl
  · rw [hnone]
    refine ⟨nofun, fun ⟨hq, hadj⟩ => ?_⟩
    cases r with
    | pylon a => cases hr
    | vertex i =>
      cases q with
      | pylon b => cases hq
      | vertex j => exact absurd rfl (hadj.1 i j rfl)

/-! ## Additions -/

theorem Graph.ne_new (hl : Graph l) (hr : Known l r) : r ≠ .pylon l.nextPylon := by
  rintro rfl
  exact absurd (hl.allocated _ hr) (Nat.lt_irrefl _)

def allocate (l : CEnergyLink ι) (pos : AIFloat3) (range : ℚ) : Memory :=
  update l.memory (.pylon l.nextPylon) ⟨pos, range, []⟩

theorem allocate_new : allocate l pos range (.pylon l.nextPylon) = ⟨pos, range, []⟩ := update_self ..

theorem allocate_known (hl : Graph l) (hr : Known l r) : allocate l pos range r = l.memory r :=
  update_of_ne (hl.ne_new hr) ..

theorem adjacent_allocate (hl : Graph l) (hr : Known l r) (hq : Known l q) :
    Adjacent (allocate l pos range) r q ↔ Adjacent l.memory r q := by
  unfold Adjacent
  rw [allocate_known hl hr, allocate_known hl hq]

theorem adjacent_new (hl : Graph l) : Known l q ∧ Adjacent (allocate l pos range) (.pylon l.nextPylon) q ↔
    (q ∈ l.pylons.map (.pylon ·.2) ∧
      pos.sqDistance2D (allocate l pos range q).pos < (range + (allocate l pos range q).range) ^ 2) ∨
    (q ∈ [.vertex l.source, .vertex l.target] ∧ (allocate l pos range q).pos.sqDistance2D pos < range ^ 2) := by
  cases q with
  | pylon addr =>
    have hmem : Ref.pylon addr ∈ l.pylons.map (Ref.pylon ·.2) ↔ Known l (.pylon addr) := by simp [Known, Registered]
    rw [hmem]
    constructor
    · rintro ⟨hq, _, _, hlt⟩
      rw [allocate_new] at hlt
      exact .inl ⟨hq, hlt⟩
    · rintro (⟨hq, hlt⟩ | ⟨hq, _⟩)
      · refine ⟨hq, nofun, (hl.ne_new hq).symm, ?_⟩
        rw [allocate_new]
        exact hlt
      · simp at hq
  | vertex i =>
    have hknown : Known l (.vertex i) := trivial
    have hmem : Ref.vertex i ∈ [Ref.vertex l.source, Ref.vertex l.target] := by
      cases i <;> cases h : l.source <;> simp [target, h]
    have hiff : Adjacent (allocate l pos range) (.pylon l.nextPylon) (.vertex i) ↔
        (allocate l pos range (.vertex i)).pos.sqDistance2D pos < range ^ 2 := by
      unfold Adjacent
      rw [allocate_new, allocate_known hl hknown, hl.point, add_zero, sqDistance2D_comm]
      simp
    rw [hiff]
    simp [hmem, hknown]

section Add

variable (hid : unitId ∉ l.pylons.map (·.1))

include hid

theorem addPylon_pylons : (l.addPylon unitId pos range).pylons = (unitId, l.nextPylon) :: l.pylons := by
  rw [addPylon, if_neg hid]

theorem addPylon_memory : (l.addPylon unitId pos range).memory =
    ((allocate l pos range).connectAll (fun pos1 range1 => pos.sqDistance2D pos1 < (range + range1) ^ 2)
      (.pylon l.nextPylon) (l.pylons.map (.pylon ·.2))).connectAll (fun pos1 _ => pos1.sqDistance2D pos < range ^ 2)
      (.pylon l.nextPylon) [.vertex l.source, .vertex l.target] := by
  rw [addPylon, if_neg hid]
  rfl

theorem registered_addPylon {addr : ℕ} :
    Registered (l.addPylon unitId pos range) addr ↔ addr = l.nextPylon ∨ Registered l addr := by
  simp [Registered, addPylon_pylons hid]

theorem known_addPylon : Known (l.addPylon unitId pos range) r ↔ r = .pylon l.nextPylon ∨ Known l r := by
  cases r with
  | vertex i => simp [Known]
  | pylon addr => simp [Known, registered_addPylon hid]

theorem sameShape_addPylon : SameShape (allocate l pos range) (l.addPylon unitId pos range).memory := by
  intro p
  rw [addPylon_memory hid]
  exact ⟨sameShape_connectAll p |>.1.trans (sameShape_connectAll p).1,
    sameShape_connectAll p |>.2.trans (sameShape_connectAll p).2⟩

theorem mem_neighbors_addPylon (hl : Graph l) :
    x ∈ ((l.addPylon unitId pos range).memory r).neighbors ↔ x ∈ (allocate l pos range r).neighbors ∨
      (r = .pylon l.nextPylon ∧ Known l x ∧ Adjacent (allocate l pos range) (.pylon l.nextPylon) x) ∨
      (x = .pylon l.nextPylon ∧ Known l r ∧ Adjacent (allocate l pos range) (.pylon l.nextPylon) r) := by
  have hnew : Ref.pylon l.nextPylon ∉ l.pylons.map (Ref.pylon ·.2) := by
    intro h
    exact hl.ne_new (r := .pylon l.nextPylon) (by simpa [Known, Registered] using h) rfl
  rw [addPylon_memory hid, mem_connectAll (by simp), mem_connectAll hnew, (sameShape_connectAll x).1,
    (sameShape_connectAll r).1, adjacent_new hl, adjacent_new hl]
  simp only [decide_eq_true_eq]
  grind

theorem graph_addPylon_of_new (hl : Graph l) : Graph (l.addPylon unitId pos range) := by
  have hshape : SameShape (allocate l pos range) (l.addPylon unitId pos range).memory := sameShape_addPylon hid
  have hfresh : ¬ Registered l l.nextPylon := fun h => hl.ne_new (r := .pylon l.nextPylon) h rfl
  refine ⟨?_, ?_, fun addr haddr => ?_, fun i => ?_, fun r q hr => ?_⟩
  · rw [addPylon_pylons hid]
    exact nodup_cons.mpr ⟨hid, hl.ids⟩
  · rw [addPylon_pylons hid]
    exact nodup_cons.mpr ⟨hfresh, hl.addrs⟩
  · have hnext : (l.addPylon unitId pos range).nextPylon = l.nextPylon + 1 := by
      rw [addPylon, if_neg hid]
    rcases (registered_addPylon hid).mp haddr with rfl | haddr
    · omega
    · have := hl.allocated addr haddr
      omega
  · rw [(hshape _).2, allocate_known (r := .vertex i) hl trivial, hl.point]
  · rw [mem_neighbors_addPylon hid hl, known_addPylon hid, hshape.adjacent]
    rcases (known_addPylon hid).mp hr with rfl | hr
    · -- the new pylon: it has had no neighbours, and is none of its own
      rw [allocate_new]
      have hself : ¬ Adjacent (allocate l pos range) (.pylon l.nextPylon) (.pylon l.nextPylon) := fun h => h.2.1 rfl
      have hold : ¬ Known l (.pylon l.nextPylon) := hfresh
      grind
    · rw [allocate_known hl hr, hl.mem_neighbors r q hr]
      have hne := hl.ne_new hr
      by_cases hq : q = .pylon l.nextPylon
      · subst hq
        have hold : ¬ Known l (.pylon l.nextPylon) := hfresh
        have hsymm : Adjacent (allocate l pos range) r (.pylon l.nextPylon) ↔
            Adjacent (allocate l pos range) (.pylon l.nextPylon) r := ⟨.symm, .symm⟩
        simp [hold, hne, hr, hsymm]
      · simp only [hq, hne, false_and, false_or, or_false]
        exact and_congr_right fun hq => (adjacent_allocate hl hr hq).symm

end Add

theorem graph_addPylon (hl : Graph l) : Graph (l.addPylon unitId pos range) := by
  by_cases hid : unitId ∈ l.pylons.map (·.1)
  · rwa [addPylon, if_pos hid]
  · exact graph_addPylon_of_new hid hl

/-! ## Removals -/

theorem mem_of_lookup {addr : ℕ} (h : l.pylons.lookup unitId = some addr) : (unitId, addr) ∈ l.pylons := by
  obtain ⟨front, back, hsplit, _⟩ := lookup_eq_some_iff.mp h
  rw [hsplit]
  exact mem_append_right front mem_cons_self

theorem removePylon_none (h : l.pylons.lookup unitId = none) : l.removePylon unitId = (l, false) := by
  rw [removePylon, h]

section Remove

variable {addr : ℕ} (hlookup : l.pylons.lookup unitId = some addr)

include hlookup

theorem removePylon_pylons : (l.removePylon unitId).1.pylons = l.pylons.filter (·.1 ≠ unitId) := by
  rw [removePylon, hlookup]

theorem removePylon_removed : (l.removePylon unitId).2 = true := by
  rw [removePylon, hlookup]

theorem removePylon_memory : (l.removePylon unitId).1.memory =
    (l.memory.eraseAll (.pylon addr) (l.memory (.pylon addr)).neighbors).eraseAll (.pylon addr)
      [.vertex l.source, .vertex l.target] := by
  rw [removePylon, hlookup]

theorem registered_removePylon (hl : Graph l) {a : ℕ} :
    Registered (l.removePylon unitId).1 a ↔ Registered l a ∧ a ≠ addr := by
  have hmem := mem_of_lookup hlookup
  simp only [Registered, removePylon_pylons hlookup, mem_map, mem_filter, decide_eq_true_eq]
  constructor
  · rintro ⟨⟨id, a⟩, ⟨hin, hne⟩, rfl⟩
    refine ⟨⟨_, hin, rfl⟩, fun heq => hne ?_⟩
    exact congrArg Prod.fst (inj_on_of_nodup_map hl.addrs hin hmem heq)
  · rintro ⟨⟨⟨id, a⟩, hin, rfl⟩, hne⟩
    refine ⟨_, ⟨hin, fun heq => hne ?_⟩, rfl⟩
    exact congrArg Prod.snd (inj_on_of_nodup_map hl.ids hin hmem heq)

theorem known_removePylon (hl : Graph l) : Known (l.removePylon unitId).1 r ↔ Known l r ∧ r ≠ .pylon addr := by
  cases r with
  | vertex i => simp [Known]
  | pylon a => simp [Known, registered_removePylon hlookup hl]

theorem sameShape_removePylon : SameShape l.memory (l.removePylon unitId).1.memory := by
  intro p
  rw [removePylon_memory hlookup]
  exact ⟨sameShape_eraseAll p |>.1.trans (sameShape_eraseAll p).1,
    sameShape_eraseAll p |>.2.trans (sameShape_eraseAll p).2⟩

theorem mem_neighbors_removePylon (hl : Graph l) (hr : Known l r) :
    q ∈ ((l.removePylon unitId).1.memory r).neighbors ↔ q ∈ (l.memory r).neighbors ∧ q ≠ .pylon addr := by
  rw [removePylon_memory hlookup, mem_eraseAll, mem_eraseAll]
  constructor
  · rintro ⟨⟨hq, hold⟩, _⟩
    refine ⟨hq, fun heq => hold heq ?_⟩
    subst heq
    exact (hl.symm hr hq).2
  · rintro ⟨hq, hne⟩
    exact ⟨⟨hq, fun h => absurd h hne⟩, fun h => absurd h hne⟩

theorem graph_removePylon_of_lookup (hl : Graph l) : Graph (l.removePylon unitId).1 := by
  have hshape := sameShape_removePylon hlookup
  have hsub : (l.removePylon unitId).1.pylons.Sublist l.pylons := by
    rw [removePylon_pylons hlookup]
    exact filter_sublist
  refine ⟨hl.ids.sublist (hsub.map _), hl.addrs.sublist (hsub.map _), fun a ha => ?_, fun i => ?_, fun r q hr => ?_⟩
  · have hnext : (l.removePylon unitId).1.nextPylon = l.nextPylon := by
      rw [removePylon, hlookup]
    rw [hnext]
    exact hl.allocated a ((registered_removePylon hlookup hl).mp ha).1
  · rw [(hshape _).2, hl.point]
  · have hr' := ((known_removePylon hlookup hl).mp hr).1
    rw [mem_neighbors_removePylon hlookup hl hr', hl.mem_neighbors r q hr', known_removePylon hlookup hl,
      hshape.adjacent]
    tauto

end Remove

theorem graph_removePylon (hl : Graph l) : Graph (l.removePylon unitId).1 := by
  cases h : l.pylons.lookup unitId with
  | none => rwa [removePylon_none h]
  | some addr => exact graph_removePylon_of_lookup h hl

/-! ## Chains -/

theorem Overlap.symm {a b : ℕ} (h : Overlap l a b) : Overlap l b a := by
  obtain ⟨ha, hb, hlt⟩ := h
  refine ⟨hb, ha, ?_⟩
  rwa [sqDistance2D_comm, add_comm]

theorem Chain.symm {i j : Bool} (h : Chain l i j) : Chain l j i := by
  obtain ⟨a, b, ha, hab, hb⟩ := h
  exact ⟨b, a, hb, ReflTransGen.mono (fun _ _ => Overlap.symm) _ _ hab.swap, ha⟩

theorem Chain.mono {l' : CEnergyLink ι} (hreg : ∀ addr, Registered l addr → Registered l' addr)
    (hmem : ∀ r, Known l r → (l'.memory r).pos = (l.memory r).pos ∧ (l'.memory r).range = (l.memory r).range)
    {i j : Bool} (h : Chain l i j) : Chain l' i j := by
  have hcover : ∀ i a, Covers l i a → Covers l' i a := by
    rintro i a ⟨ha, hlt⟩
    refine ⟨hreg a ha, ?_⟩
    rwa [(hmem (.vertex i) trivial).1, (hmem (.pylon a) ha).1, (hmem (.pylon a) ha).2]
  obtain ⟨a, b, ha, hab, hb⟩ := h
  refine ⟨a, b, hcover i a ha, ReflTransGen.mono ?_ _ _ hab, hcover j b hb⟩
  rintro c d ⟨hc, hd, hlt⟩
  refine ⟨hreg c hc, hreg d hd, ?_⟩
  rwa [(hmem (.pylon c) hc).1, (hmem (.pylon c) hc).2, (hmem (.pylon d) hd).1, (hmem (.pylon d) hd).2]

end Circuit.Spec.EnergyLinks
