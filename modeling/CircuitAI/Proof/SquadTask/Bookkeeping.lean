import CircuitAI.Spec.SquadRuns
import Mathlib.Tactic.IntervalCases

/-!
# The books of the squads

* `Extremes.observe`: the extremes of the units seen so far, with one more unit;
* `findBetter_spec`, `findFirst_spec`: what the two loops of `FindLeader` make of the extremes and the leader;
* `Consistent.assignTo`, `Consistent.removeAssignee`, `Consistent.merge`: one call on one squad;
* `Inv.step`: the squads of a manager, which have no unit in common.
-/

set_option linter.unusedSectionVars false

namespace Circuit.Spec.SquadRuns

open Impl.SquadTask Impl.SquadTask.ISquadTask Function Finset

variable {U : Type*} [LinearOrder U] {g : UnitData U} (area : Areas U) {t t' task : ISquadTask U} {S : Finset U} {u : U}

/-! ## Extremes -/

theorem Extremes.congr (h : Extremes g S t) (hr : t'.lowestRange = t.lowestRange)
    (hs : t'.lowestSpeed = t.lowestSpeed) (hS : t'.highestSpeed = t.highestSpeed) : Extremes g S t' :=
  ⟨hr ▸ h.lowestRange, hs ▸ h.lowestSpeed, hS ▸ h.highestSpeed⟩

theorem Extremes.observe (h : Extremes g S t) (u : U) : Extremes g (insert u S) (t.observe g u) := by
  refine ⟨?_, ?_, ?_⟩ <;> rw [coe_insert, Set.image_insert_eq]
  · simpa only [ISquadTask.observe, min_comm t.lowestRange] using h.lowestRange.insert (g.cdef u).maxRange
  · simpa only [ISquadTask.observe, min_comm t.lowestSpeed] using h.lowestSpeed.insert (g.cdef u).speed
  · simpa only [ISquadTask.observe, max_comm t.highestSpeed] using h.highestSpeed.insert (g.cdef u).speed

theorem Extremes.single (hr : t.lowestRange = (g.cdef u).maxRange) (hs : t.lowestSpeed = (g.cdef u).speed)
    (hS : t.highestSpeed = (g.cdef u).speed) : Extremes g {u} t := by
  refine ⟨?_, ?_, ?_⟩ <;> rw [coe_singleton, Set.image_singleton]
  · exact hr ▸ isLeast_singleton
  · exact hs ▸ isLeast_singleton
  · exact hS ▸ isGreatest_singleton

theorem Extremes.union (h : Extremes g S t) {R : Finset U} (hR : ∀ u ∈ R, t.lowestRange ≤ (g.cdef u).maxRange ∧
    t.lowestSpeed ≤ (g.cdef u).speed ∧ (g.cdef u).speed ≤ t.highestSpeed) : Extremes g (S ∪ R) t := by
  refine ⟨?_, ?_, ?_⟩ <;> rw [coe_union, Set.image_union]
  · exact ⟨.inl h.lowestRange.1, by rintro _ (hx | ⟨u, hu, rfl⟩); exacts [h.lowestRange.2 hx, (hR u hu).1]⟩
  · exact ⟨.inl h.lowestSpeed.1, by rintro _ (hx | ⟨u, hu, rfl⟩); exacts [h.lowestSpeed.2 hx, (hR u hu).2.1]⟩
  · exact ⟨.inl h.highestSpeed.1, by rintro _ (hx | ⟨u, hu, rfl⟩); exacts [h.highestSpeed.2 hx, (hR u hu).2.2]⟩

def Seen (g : UnitData U) (S : Finset U) (t : ISquadTask U) : Prop :=
  (S = ∅ ∧ t.lowestRange = floatMax ∧ t.lowestSpeed = floatMax ∧ t.highestSpeed = 0) ∨ Extremes g S t

theorem Seen.observe (h : Seen g S t) (u : U) : Extremes g (insert u S) (t.observe g u) := by
  rcases h with ⟨rfl, hr, hs, hS⟩ | h
  · rw [insert_empty_eq]
    refine .single ?_ ?_ ?_ <;> simp only [ISquadTask.observe, hr, hs, hS]
    · exact min_eq_right (g.cdef u).maxRange_le
    · exact min_eq_right (g.cdef u).speed_le
    · exact max_eq_right (g.cdef u).speed_nonneg
  · exact h.observe u

/-! ## The search for a leader -/

structure SameBooks (t t' : ISquadTask U) : Prop where
  units : t'.units = t.units
  attackPower : t'.attackPower = t.attackPower
  shields : t'.shields = t.shields
  isDead : t'.isDead = t.isDead

theorem SameBooks.findBetter (l : List U) (leader : U) (t : ISquadTask U) :
    SameBooks t (findBetter g area l leader t) := by
  induction l generalizing leader t with
  | nil => exact ⟨rfl, rfl, rfl, rfl⟩
  | cons a l ih =>
    have h := ih (if isBetterLeader g area leader a then a else leader) (t.observe g a)
    exact ⟨h.units, h.attackPower, h.shields, h.isDead⟩

theorem SameBooks.findFirst (l : List U) (t : ISquadTask U) : SameBooks t (findFirst g area l t) := by
  induction l generalizing t with
  | nil => exact ⟨rfl, rfl, rfl, rfl⟩
  | cons a l ih =>
    rw [ISquadTask.findFirst]
    split
    · have h := ih (t.observe g a)
      exact ⟨h.units, h.attackPower, h.shields, h.isDead⟩
    · have h := SameBooks.findBetter (g := g) area l a (t.observe g a)
      exact ⟨h.units, h.attackPower, h.shields, h.isDead⟩

def Led (g : UnitData U) (S : Finset U) (t : ISquadTask U) : Prop := (∃ u ∈ S, t.leader = some u) ∧ Extremes g S t

theorem findBetter_spec (l : List U) {leader : U} (h : Extremes g S t) (hl : leader ∈ S) :
    Led g (S ∪ l.toFinset) (findBetter g area l leader t) := by
  induction l generalizing S leader t with
  | nil =>
    rw [List.toFinset_nil, union_empty]
    exact ⟨⟨leader, hl, rfl⟩, h.congr rfl rfl rfl⟩
  | cons a l ih =>
    have hS : S ∪ (a :: l).toFinset = insert a S ∪ l.toFinset := by
      rw [List.toFinset_cons, union_insert, insert_union]
    rw [ISquadTask.findBetter, hS]
    refine ih (h.observe a) ?_
    split
    · exact mem_insert_self a S
    · exact mem_insert_of_mem hl

theorem findFirst_spec (l : List U) (h : Seen g S t) (hn : t.leader = none) :
    ((findFirst g area l t).leader = none → ∀ u ∈ l, (g.cdef u).isRoleSupport = true) ∧
      ((findFirst g area l t).leader ≠ none → Led g (S ∪ l.toFinset) (findFirst g area l t)) := by
  induction l generalizing S t with
  | nil => simp [ISquadTask.findFirst, hn]
  | cons a l ih =>
    have hS : S ∪ (a :: l).toFinset = insert a S ∪ l.toFinset := by
      rw [List.toFinset_cons, union_insert, insert_union]
    rw [ISquadTask.findFirst, hS]
    split
    · rename_i ha
      have ih := ih (.inr (h.observe a)) hn
      exact ⟨fun hf u hu => (List.mem_cons.1 hu).elim (fun hu => hu ▸ ha) (ih.1 hf u), ih.2⟩
    · have hled := findBetter_spec area l (h.observe a) (mem_insert_self a S)
      obtain ⟨u, -, hu⟩ := hled.1
      exact ⟨fun hf => absurd (hu.symm.trans hf) (Option.some_ne_none u), fun _ => hled⟩

/-! ## Calls on one squad -/

theorem Consistent.widen (h : Consistent g t) (ranges : List ℚ) : Consistent g (t.widen ranges) :=
  ⟨h.leader, h.attackPower, h.shields, h.extremes.congr rfl rfl rfl⟩

structure Fresh (t : ISquadTask U) : Prop where
  units : t.units = ∅
  attackPower : t.attackPower = 0
  shields : t.shields = ∅
  leader : t.leader = none

def Kept (g : UnitData U) (t : ISquadTask U) : Prop := Fresh t ∨ Consistent g t

theorem Kept.attackPower (h : Kept g t) : t.attackPower = ∑ u ∈ t.units, (g.cdef u).power := by
  rcases h with h | h
  · rw [h.units, h.attackPower, sum_empty]
  · exact h.attackPower

theorem Kept.shields (h : Kept g t) : t.shields = t.units.filter fun u => g.hasShield u = true := by
  rcases h with h | h
  · rw [h.units, h.shields, filter_empty]
  · exact h.shields

theorem Kept.consistent (h : Kept g t) (hl : t.leader ≠ none) : Consistent g t :=
  h.resolve_left fun hf => hl hf.leader

theorem Kept.consistent_of_mem (h : Kept g t) (hu : u ∈ t.units) : Consistent g t :=
  h.resolve_left fun hf => by simp [hf.units] at hu

theorem squadAssignTo_some {l : U} (hl : t.leader = some l) : ∃ v, (v = u ∨ v = l) ∧
    t.squadAssignTo g area u = { (t.fighterAssignTo g u).observe g u with leader := some v } := by
  have hl' : (t.fighterAssignTo g u).leader = some l := hl
  have hsame : (t.fighterAssignTo g u).observe g u =
      { (t.fighterAssignTo g u).observe g u with leader := some l } := by
    rw [← hl']
    rfl
  simp only [squadAssignTo, hl']
  split_ifs
  · exact ⟨l, .inr rfl, hsame⟩
  · exact ⟨u, .inl rfl, rfl⟩
  · exact ⟨l, .inr rfl, hsame⟩

theorem squadAssignTo_led (h : Kept g t) : Led g (insert u t.units) (t.squadAssignTo g area u) := by
  rcases h with h | h
  · have hn : (t.fighterAssignTo g u).leader = none := h.leader
    rw [h.units, insert_empty_eq]
    simp only [squadAssignTo, hn]
    exact ⟨⟨u, mem_singleton_self u, rfl⟩, .single rfl rfl rfl⟩
  · obtain ⟨l, hl, hleader⟩ := h.leader
    obtain ⟨v, hv, hassign⟩ := squadAssignTo_some (g := g) (u := u) area hleader
    rw [hassign]
    refine ⟨⟨v, ?_, rfl⟩, (h.extremes.observe u).congr rfl rfl rfl⟩
    rcases hv with rfl | rfl
    · exact mem_insert_self v _
    · exact mem_insert_of_mem hl

theorem squadAssignTo_books (t : ISquadTask U) : SameBooks (t.fighterAssignTo g u) (t.squadAssignTo g area u) := by
  rw [squadAssignTo]
  split
  · exact ⟨rfl, rfl, rfl, rfl⟩
  · dsimp only
    split_ifs <;> exact ⟨rfl, rfl, rfl, rfl⟩

theorem Consistent.assignTo (h : Kept g t) (hu : u ∉ t.units) : Consistent g (t.assignTo g area u) := by
  have hb := squadAssignTo_books (g := g) (u := u) area t
  have hunits : (t.squadAssignTo g area u).units = insert u t.units := hb.units
  have hled := squadAssignTo_led (g := g) (u := u) area h
  rw [← hunits] at hled
  refine Consistent.widen ⟨hled.1, ?_, ?_, hled.2⟩ _
  · rw [hunits, sum_insert hu, hb.attackPower, fighterAssignTo, h.attackPower, add_comm]
  · rw [hunits, filter_insert, hb.shields, fighterAssignTo, h.shields]

theorem squadRemoveAssignee_spec (h : Consistent g t) (hu : u ∈ t.units) :
    ((t.squadRemoveAssignee g area u).leader = none → ∀ v ∈ t.units.erase u, (g.cdef v).isRoleSupport = true) ∧
      ((t.squadRemoveAssignee g area u).leader ≠ none → Consistent g (t.squadRemoveAssignee g area u)) := by
  let t₁ : ISquadTask U :=
    { t.fighterRemoveAssignee g u with
      leader := none, lowestRange := floatMax, lowestSpeed := floatMax, highestRange := 0, highestSpeed := 0 }
  have hpower : t₁.attackPower = ∑ v ∈ t.units.erase u, (g.cdef v).power := by
    rw [sum_erase_eq_sub hu, ← h.attackPower]
    rfl
  have hshields : t₁.shields = (t.units.erase u).filter fun v => g.hasShield v = true := by
    rw [filter_erase, ← h.shields]
    change (if g.hasShield u then t.shields.erase u else t.shields) = _
    split
    · rfl
    · rename_i hs
      rw [erase_eq_of_notMem]
      simp [h.shields, hs]
  by_cases he : t₁.units = ∅
  · rw [show t.squadRemoveAssignee g area u = t₁ from if_pos he]
    refine ⟨fun _ v hv => ?_, fun hl => absurd rfl hl⟩
    rw [show t.units.erase u = ∅ from he] at hv
    simp at hv
  · rw [show t.squadRemoveAssignee g area u = findFirst g area (t₁.units.sort (· ≤ ·)) t₁ from if_neg he]
    have hs := findFirst_spec (g := g) (t := t₁) area (t₁.units.sort (· ≤ ·))
      (.inl ⟨rfl, rfl, rfl, rfl⟩) rfl
    have hb := SameBooks.findFirst (g := g) area (t₁.units.sort (· ≤ ·)) t₁
    refine ⟨fun hn v hv => hs.1 hn v ((mem_sort _).2 hv), fun hl => ?_⟩
    have hled := hs.2 hl
    rw [empty_union, sort_toFinset] at hled
    exact ⟨hb.units.symm ▸ hled.1, by rw [hb.attackPower, hb.units]; exact hpower,
      by rw [hb.shields, hb.units]; exact hshields, hb.units.symm ▸ hled.2⟩

theorem Kept.removeAssignee (h : Kept g t) (hu : u ∈ t.units) (hlive : (t.removeAssignee g area u).isDead = false) :
    Consistent g (t.removeAssignee g area u) := by
  have hs := squadRemoveAssignee_spec area (h.consistent_of_mem hu) hu
  rw [ISquadTask.removeAssignee] at hlive ⊢
  split at hlive
  · cases hlive
  · rename_i leader hl
    split_ifs at hlive ⊢
    · cases hlive
    · exact (hs.2 (by rw [hl]; exact Option.some_ne_none leader)).widen _

theorem takeOver_attackPower (h : Kept g t) (h' : Kept g task) (hd : Disjoint t.units task.units) :
    (t.takeOver task).attackPower = ∑ u ∈ (t.takeOver task).units, (g.cdef u).power := by
  simp only [takeOver]
  rw [sum_union hd, h.attackPower, h'.attackPower]

theorem takeOver_shields (h : Kept g t) (h' : Kept g task) :
    (t.takeOver task).shields = (t.takeOver task).units.filter fun u => g.hasShield u = true := by
  simp only [takeOver]
  rw [filter_union, h.shields, h'.shields]

theorem Consistent.squadMerge (h : Kept g t) (h' : Kept g task) (hd : Disjoint t.units task.units)
    (hm : t.squadMerge g area task = some t') : Consistent g t' := by
  rw [ISquadTask.squadMerge] at hm
  split_ifs at hm with hl
  cases hm
  have hc := h.consistent hl
  obtain ⟨l, hlu, hleader⟩ := hc.leader
  have hfind : (t.takeOver task).findLeader g area (task.units.sort (· ≤ ·)) =
      findBetter g area (task.units.sort (· ≤ ·)) l (t.takeOver task) := by
    simp only [findLeader, takeOver, hleader]
  rw [hfind]
  have hb := SameBooks.findBetter (g := g) area (task.units.sort (· ≤ ·)) l (t.takeOver task)
  have hled := findBetter_spec (g := g) (t := t.takeOver task) area (task.units.sort (· ≤ ·))
    (hc.extremes.congr rfl rfl rfl) hlu
  rw [sort_toFinset, show t.units ∪ task.units = (t.takeOver task).units from rfl, ← hb.units] at hled
  exact ⟨hled.1, by rw [hb.attackPower, hb.units]; exact takeOver_attackPower h h' hd,
    by rw [hb.shields, hb.units]; exact takeOver_shields h h', hled.2⟩

theorem Kept.defendMerge (h : Kept g t) (h' : Kept g task) (hd : Disjoint t.units task.units)
    (hknown : ∀ u ∈ task.units, t.leader ≠ none ∧ t.lowestRange ≤ (g.cdef u).maxRange ∧
      t.lowestSpeed ≤ (g.cdef u).speed ∧ (g.cdef u).speed ≤ t.highestSpeed) : Kept g (t.defendMerge task) := by
  rcases h with h | h
  · -- a squad without units takes over none
    have hnone : task.units = ∅ := eq_empty_of_forall_notMem fun u hu => (hknown u hu).1 h.leader
    refine .inl ⟨?_, ?_, ?_, h.leader⟩ <;> simp only [ISquadTask.defendMerge, takeOver]
    · rw [h.units, hnone, empty_union]
    · rw [h.attackPower, h'.attackPower, hnone, sum_empty, add_zero]
    · rw [h.shields, h'.shields, hnone, filter_empty, empty_union]
  · obtain ⟨l, hlu, hleader⟩ := h.leader
    exact .inr ⟨⟨l, mem_union_left _ hlu, hleader⟩, takeOver_attackPower (.inr h) h' hd,
      takeOver_shields (.inr h) h', (h.extremes.union fun u hu => (hknown u hu).2).congr rfl rfl rfl⟩

theorem Kept.merge (h : Kept g t) (h' : Kept g task) (hd : Disjoint t.units task.units)
    (hknown : t.fightType = .defend → ∀ u ∈ task.units, t.leader ≠ none ∧ t.lowestRange ≤ (g.cdef u).maxRange ∧
      t.lowestSpeed ≤ (g.cdef u).speed ∧ (g.cdef u).speed ≤ t.highestSpeed)
    (hm : t.merge g area task = some t') : Kept g t' := by
  rw [ISquadTask.merge] at hm
  split_ifs at hm with hf
  · cases hm
    exact h.defendMerge h' hd (hknown hf)
  · exact .inr (.squadMerge area h h' hd hm)

/-! ## Units of the calls -/

theorem assignTo_units (t : ISquadTask U) : (t.assignTo g area u).units = insert u t.units :=
  (squadAssignTo_books area t).units

theorem assignTo_isDead (t : ISquadTask U) : (t.assignTo g area u).isDead = t.isDead :=
  (squadAssignTo_books (g := g) (u := u) area t).isDead

theorem squadRemoveAssignee_books (t : ISquadTask U) :
    SameBooks (t.fighterRemoveAssignee g u) (t.squadRemoveAssignee g area u) := by
  rw [squadRemoveAssignee]
  dsimp only
  split_ifs
  · exact ⟨rfl, rfl, rfl, rfl⟩
  · have h := SameBooks.findFirst (g := g) area
    exact ⟨(h _ _).units, (h _ _).attackPower, (h _ _).shields, (h _ _).isDead⟩

theorem removeAssignee_units (t : ISquadTask U) : (t.removeAssignee g area u).units ⊆ t.units := by
  rw [ISquadTask.removeAssignee]
  split
  · exact empty_subset _
  · split_ifs
    · exact empty_subset _
    · exact (squadRemoveAssignee_books (g := g) (u := u) area t).units ▸ erase_subset u t.units

theorem removeAssignee_dead (hlive : t.isDead = false) (h : (t.removeAssignee g area u).isDead = true) :
    (t.removeAssignee g area u).units = ∅ := by
  have hb := (squadRemoveAssignee_books (g := g) (u := u) area t).isDead
  rw [ISquadTask.removeAssignee] at h ⊢
  split at h
  · rfl
  · split_ifs at h ⊢
    · rfl
    · rw [show ((t.squadRemoveAssignee g area u).widen _).isDead = t.isDead from hb, hlive] at h
      cases h

theorem merge_books (hm : t.merge g area task = some t') : t'.units = t.units ∪ task.units ∧ t'.isDead = t.isDead := by
  rw [ISquadTask.merge] at hm
  split_ifs at hm
  · cases hm
    exact ⟨rfl, rfl⟩
  · rw [ISquadTask.squadMerge] at hm
    split_ifs at hm
    cases hm
    rw [findLeader]
    split
    · have hb := SameBooks.findFirst (g := g) area (task.units.sort (· ≤ ·)) (t.takeOver task)
      exact ⟨hb.units, hb.isDead⟩
    · rename_i l _
      have hb := SameBooks.findBetter (g := g) area (task.units.sort (· ≤ ·)) l (t.takeOver task)
      exact ⟨hb.units, hb.isDead⟩

/-! ## Runs -/

structure Inv (g : UnitData U) (s : State U) : Prop where
  kept : ∀ k < s.nextTask, (s.tasks k).isDead = false → Kept g (s.tasks k)
  dead : ∀ k < s.nextTask, (s.tasks k).isDead = true → (s.tasks k).units = ∅
  disjoint : ∀ j < s.nextTask, ∀ k < s.nextTask, j ≠ k → Disjoint (s.tasks j).units (s.tasks k).units

variable {s s' : State U} {e : Event U}

theorem Inv.set (h : Inv g s) {k : ℕ} (hkept : t.isDead = false → Kept g t) (hdead : t.isDead = true → t.units = ∅)
    (hd : ∀ j < s.nextTask, j ≠ k → Disjoint t.units (s.tasks j).units) : Inv g (s.set k t) := by
  have hat : ∀ j, (s.set k t).tasks j = if j = k then t else s.tasks j := fun j => by
    simp only [State.set, update_apply]
  refine ⟨fun j hj hl => ?_, fun j hj hl => ?_, fun i hi j hj hne => ?_⟩
  · rw [hat] at hl ⊢
    split_ifs at hl ⊢
    exacts [hkept hl, h.kept j hj hl]
  · rw [hat] at hl ⊢
    split_ifs at hl ⊢
    exacts [hdead hl, h.dead j hj hl]
  · rw [hat, hat]
    split_ifs with hik hjk hjk
    · exact absurd (hik.trans hjk.symm) hne
    · exact hd j hj hjk
    · exact (hd i hi hik).symm
    · exact h.disjoint i hi j hj hne

theorem Inv.shrink (h : Inv g s) {k : ℕ} (hk : k < s.nextTask) (hkept : t.isDead = false → Kept g t)
    (hdead : t.isDead = true → t.units = ∅) (hsub : t.units ⊆ (s.tasks k).units) : Inv g (s.set k t) :=
  h.set hkept hdead fun j hj hne => (h.disjoint k hk j hj hne.symm).mono_left hsub

theorem Inv.abort (h : Inv g s) {k : ℕ} (hk : k < s.nextTask) : Inv g (s.set k (s.tasks k).abort) :=
  h.shrink hk (fun hl => by cases hl) (fun _ => rfl) (empty_subset _)

theorem Inv.enqueue (h : Inv g s) (f : FightType) (p q : ℚ) : Inv g (s.enqueue (.new f p q)) := by
  have hat : ∀ j, (s.enqueue (.new f p q)).tasks j = if j = s.nextTask then .new f p q else s.tasks j := fun j => by
    simp only [State.enqueue, State.set, update_apply]
  have hlt : ∀ j < (s.enqueue (.new f p q)).nextTask, j ≠ s.nextTask → j < s.nextTask := fun j hj hne =>
    lt_of_le_of_ne (Nat.le_of_lt_succ hj) hne
  refine ⟨fun j hj hl => ?_, fun j hj hl => ?_, fun i hi j hj hne => ?_⟩
  · rw [hat] at hl ⊢
    split_ifs at hl ⊢ with hjn
    exacts [.inl ⟨rfl, rfl, rfl, rfl⟩, h.kept j (hlt j hj hjn) hl]
  · rw [hat] at hl ⊢
    split_ifs at hl ⊢ with hjn
    exacts [rfl, h.dead j (hlt j hj hjn) hl]
  · rw [hat, hat]
    split_ifs with hin hjn hjn
    · exact absurd (hin.trans hjn.symm) hne
    · exact disjoint_empty_left _
    · exact disjoint_empty_right _
    · exact h.disjoint i (hlt i hi hin) j (hlt j hj hjn) hne

theorem Inv.merge (h : Inv g s) {k k' : ℕ} (hk : k < s.nextTask) (hk' : k' < s.nextTask) (hne : k ≠ k')
    (hkept : Kept g t) (hunits : t.units = (s.tasks k).units ∪ (s.tasks k').units) (hlive : t.isDead = false) :
    Inv g (s.merged k k' t) := by
  -- the squad that is merged is emptied first, so that its units can go to the other one
  have h₁ : Inv g (s.set k' { s.tasks k' with units := ∅ }.abort) :=
    h.shrink hk' (fun hl => by cases hl) (fun _ => rfl) (empty_subset _)
  have h₂ : Inv g ((s.set k' { s.tasks k' with units := ∅ }.abort).set k t) := by
    refine h₁.set (fun _ => hkept) (fun hd => by rw [hlive] at hd; cases hd) fun j hj hjk => ?_
    by_cases hjk' : j = k'
    · subst hjk'
      simp [State.set, ISquadTask.abort]
    · have hat : (s.set k' { s.tasks k' with units := ∅ }.abort).tasks j = s.tasks j := update_of_ne hjk' _ _
      rw [hat, hunits, disjoint_union_left]
      exact ⟨h.disjoint k hk j hj (Ne.symm hjk), h.disjoint k' hk' j hj (Ne.symm hjk')⟩
  have hcomm : s.merged k k' t = (s.set k' { s.tasks k' with units := ∅ }.abort).set k t := by
    simp only [State.merged, State.set, update_comm hne]
  exact hcomm ▸ h₂

theorem Inv.step (h : Inv g s) (hok : Known g s e) (hst : Step g s e s') : Inv g s' := by
  cases hst with
  | enqueue => exact h.enqueue _ _ _
  | @assign k u area hk hlive hu =>
    refine h.set (fun _ => .inr (.assignTo area (h.kept k hk hlive) (hu k hk)))
      (fun hd => by rw [assignTo_isDead, hlive] at hd; cases hd) fun j hj hne => ?_
    rw [assignTo_units, disjoint_insert_left]
    exact ⟨hu j hj, h.disjoint k hk j hj hne.symm⟩
  | @remove k u area hk hlive hu =>
    exact h.shrink hk (fun hl => .inr ((h.kept k hk hlive).removeAssignee area hu hl))
      (removeAssignee_dead area hlive) (removeAssignee_units area _)
  | @merge k k' area t hk hk' hne hlive hlive' htype ht =>
    have hb := merge_books area ht
    have hkept := (h.kept k hk hlive).merge area (h.kept k' hk' hlive') (h.disjoint k hk k' hk' hne) hok ht
    exact h.merge hk hk' hne hkept hb.1 (hb.2.trans hlive)
  | abort hk => exact h.abort hk

theorem Run.inv (h : Run g (Known g) s) : Inv g s := by
  induction h with
  | init => exact ⟨fun k hk => absurd hk (Nat.not_lt_zero k), fun k hk => absurd hk (Nat.not_lt_zero k),
      fun k hk => absurd hk (Nat.not_lt_zero k)⟩
  | step _ hok hst ih => exact ih.step hok hst

/-- Where the squads of `CDefendTask` only take over units within the ranges and speeds they know, the books of every
live squad with units are right, and only a squad of support units is left without a leader. -/
theorem squads_consistent (h : Run g (Known g) s) {k : ℕ} (hk : k < s.nextTask)
    (hlive : (s.tasks k).isDead = false) (hunits : (s.tasks k).units.Nonempty) :
    Consistent g (s.tasks k) ∧ ∀ area, ∀ u ∈ (s.tasks k).units,
      ((s.tasks k).squadRemoveAssignee g area u).leader = none →
        ∀ v ∈ (s.tasks k).units.erase u, (g.cdef v).isRoleSupport = true := by
  obtain ⟨u, hu⟩ := hunits
  have hc := (h.inv.kept k hk hlive).consistent_of_mem hu
  exact ⟨hc, fun area v hv hn => (squadRemoveAssignee_spec area hc hv).1 hn⟩

/-! ## Two defenders -/

def defenders : UnitData ℕ where
  cdef u := if u = 1
    then ⟨1, 3, 2, 0, 0, false, by decide +kernel, by decide +kernel, by decide +kernel⟩
    else ⟨1, 10, 5, 0, 0, false, by decide +kernel, by decide +kernel, Nat.ofNat_nonneg 5⟩
  hasShield _ := false

def nowhere : Areas ℕ := fun _ => none

def firstDefends : State ℕ :=
  let s := State.init.enqueue (.new .defend 0 10)
  s.set 0 ((s.tasks 0).assignTo defenders nowhere 0)

def secondDefends (u : ℕ) : State ℕ :=
  let s := firstDefends.enqueue (.new .defend 0 10)
  s.set 1 ((s.tasks 1).assignTo defenders nowhere u)

def bothDefend (u : ℕ) : State ℕ :=
  (secondDefends u).merged 0 1 (((secondDefends u).tasks 0).defendMerge ((secondDefends u).tasks 1))

theorem bothDefend_run {ok : State ℕ → Event ℕ → Prop} (hok : ∀ s e, (∀ k k' a, e ≠ .merge k k' a) → ok s e) {u : ℕ}
    (hu : u ≠ 0) (hmerge : ok (secondDefends u) (.merge 0 1 nowhere)) : Run defenders ok (bothDefend u) := by
  have hfirst : Run defenders ok firstDefends :=
    .step (.step .init (hok _ (.enqueue .defend 0 10) (by simp)) .enqueue) (hok _ (.assign 0 0 nowhere) (by simp))
      (.assign (by decide) (by decide +kernel) (by decide +kernel))
  have henqueue : Step defenders firstDefends (.enqueue .defend 0 10) (firstDefends.enqueue (.new .defend 0 10)) :=
    .enqueue
  have hfree : ∀ j < 2, u ∉ ((firstDefends.enqueue (.new .defend 0 10)).tasks j).units := by
    intro j hj
    interval_cases j
    · exact fun h => hu (mem_singleton.mp h)
    · exact notMem_empty u
  have hassign : Step defenders (firstDefends.enqueue (.new .defend 0 10)) (.assign 1 u nowhere) (secondDefends u) :=
    .assign (by decide) rfl hfree
  have hstep : Step defenders (secondDefends u) (.merge 0 1 nowhere) (bothDefend u) :=
    .merge Nat.two_pos Nat.one_lt_two Nat.zero_ne_one rfl rfl rfl rfl
  exact .step (.step (.step hfirst (hok _ _ (by simp)) henqueue) (hok _ _ (by simp)) hassign) hmerge hstep

def secondLeft : State ℕ :=
  (bothDefend 2).set 0 (((bothDefend 2).tasks 0).removeAssignee defenders nowhere 0)

theorem squads_consistent_secondLeft : (secondLeft.tasks 0).units = {2} ∧ Consistent defenders (secondLeft.tasks 0) ∧
    ∀ area, ∀ u ∈ (secondLeft.tasks 0).units,
      ((secondLeft.tasks 0).squadRemoveAssignee defenders area u).leader = none →
        ∀ v ∈ (secondLeft.tasks 0).units.erase u, (defenders.cdef v).isRoleSupport = true := by
  have hknown : Known defenders (secondDefends 2) (.merge 0 1 nowhere) := by
    intro _ u hu
    rw [show u = 2 from mem_singleton.mp hu]
    decide +kernel
  have hboth : Run defenders (Known defenders) (bothDefend 2) :=
    bothDefend_run (fun s e he => by cases e <;> first | trivial | exact absurd rfl (he _ _ _)) (by decide) hknown
  have hremove : Step defenders (bothDefend 2) (.remove 0 0 nowhere) secondLeft :=
    .remove (by decide) (by decide +kernel) (by decide +kernel)
  have hunits : (secondLeft.tasks 0).units = {2} := by decide +kernel
  have hrun : Run defenders (Known defenders) secondLeft := .step (e := .remove 0 0 nowhere) hboth trivial hremove
  exact ⟨hunits, squads_consistent (k := 0) hrun (by decide) (by decide +kernel) (hunits ▸ singleton_nonempty 2)⟩

theorem bothDefend_stale : Run defenders (fun _ _ => True) (bothDefend 1) ∧ ((bothDefend 1).tasks 0).isDead = false ∧
    ((bothDefend 1).tasks 0).units = {0, 1} ∧ ((bothDefend 1).tasks 0).lowestRange = 10 ∧
    ((bothDefend 1).tasks 0).lowestSpeed = 5 ∧ (defenders.cdef 1).maxRange = 3 ∧ (defenders.cdef 1).speed = 2 ∧
    ¬ Consistent defenders ((bothDefend 1).tasks 0) := by
  have hunits : ((bothDefend 1).tasks 0).units = {0, 1} := by decide +kernel
  have hrange : ((bothDefend 1).tasks 0).lowestRange = 10 := by decide +kernel
  refine ⟨bothDefend_run (fun _ _ _ => trivial) (by decide) trivial, by decide +kernel, hunits, hrange,
    by decide +kernel, rfl, rfl, fun hc => ?_⟩
  have hle : ((bothDefend 1).tasks 0).lowestRange ≤ (defenders.cdef 1).maxRange :=
    hc.extremes.lowestRange.2 ⟨1, by rw [hunits]; simp, rfl⟩
  rw [hrange] at hle
  revert hle
  decide +kernel

end Circuit.Spec.SquadRuns
