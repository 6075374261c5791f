import CircuitAI.Proof.Enemies.Registry
import CircuitAI.Spec.EnemyCosts
import Mathlib.Algebra.Order.BigOperators.Group.Finset

/-!
# The sums over the enemies

An enemy is known from the frame of its first sight on, but `IsKnown` answers so only in later frames. Within the first
frame a second sight is counted again (`seen_twice`) and a death is not taken off. Where neither happens (`Timely`), the
sums are what they are meant to be (`totals_correct`). `Tallied` relates them to the enemies of which the owner has a
record, with one lemma for each thing that an event does.
-/

set_option linter.unusedSectionVars false

namespace Circuit.Spec.EnemyRuns

open Impl.Enemies Impl.Enemies.State Function Finset Prod Option

/-! ## Sums and entries -/

variable {frame : ℤ}

section Tally

variable {ρ : Type*} {mod : ThrMod} {totals totals' : Total ρ → ℚ} {entries : ℕ → Entry ρ} {infos : ℤ → Option ℕ}
  {seen : Finset ℕ} {id : ℤ} {p : ℕ} {x : Entry ρ}

theorem weight_nonneg (h : 0 ≤ x.cost) (k : Total ρ) : 0 ≤ weight mod k x := by
  unfold weight
  split
  · exact le_rfl
  · next d _ =>
    have hthreat := d.threat_nonneg
    have hmobile := mul_nonneg hthreat mod.inMobile_nonneg
    have hstatic := mul_nonneg hthreat mod.inStatic_nonneg
    cases k <;> dsimp only <;> split <;> first | exact le_rfl | assumption

structure Tallied (mod : ThrMod) (totals : Total ρ → ℚ) (entries : ℕ → Entry ρ) (infos : ℤ → Option ℕ)
    (seen : Finset ℕ) : Prop where
  total : ∀ k, totals k = ∑ p ∈ seen, weight mod k (entries p)
  mem_seen : ∀ p, p ∈ seen ↔ (∃ id, infos id = some p) ∧ (entries p).knownFrame ≠ -1
  known : ∀ p, (entries p).knownFrame ≠ -1 → (entries p).cdef ≠ none
  cost : ∀ p, 0 ≤ (entries p).cost

namespace Tallied

theorem le_total (h : Tallied mod totals entries infos seen) (hp : p ∈ seen) (k : Total ρ) :
    weight mod k (entries p) ≤ totals k := by
  rw [h.total k]
  exact single_le_sum (fun q _ => weight_nonneg (h.cost q) k) hp

theorem sum_update {k : Total ρ} (hp : p ∉ seen) (x : Entry ρ) :
    ∑ q ∈ seen, weight mod k (update entries p x q) = ∑ q ∈ seen, weight mod k (entries q) :=
  sum_congr rfl fun q hq => by rw [update_of_ne (ne_of_mem_of_not_mem hq hp)]

theorem identify (h : Tallied mod totals entries infos seen) (hp : p ∉ seen)
    (hx : x.knownFrame = -1) (hcost : 0 ≤ x.cost) : Tallied mod totals (update entries p x) infos seen where
  total k := by rw [h.total k, sum_update hp]
  mem_seen := (forall_update_iff entries fun q x => q ∈ seen ↔ (∃ id, infos id = some q) ∧ x.knownFrame ≠ -1).2
    ⟨iff_of_false hp fun hq => hq.2 hx, fun q _ => h.mem_seen q⟩
  known := (forall_update_iff entries fun _ x => x.knownFrame ≠ -1 → x.cdef ≠ none).2
    ⟨fun hq => absurd hx hq, fun q _ => h.known q⟩
  cost := (forall_update_iff entries fun _ x => 0 ≤ x.cost).2 ⟨hcost, fun q _ => h.cost q⟩

theorem record (h : Tallied mod totals entries infos seen) (hp : (entries p).knownFrame = -1) (hid : infos id = none) :
    Tallied mod totals entries (update infos id (some p)) seen where
  total := h.total
  mem_seen q := by
    rw [h.mem_seen q]
    refine and_congr_left fun hq => exists_congr fun i => ?_
    have hqp : p ≠ q := fun hpq => hq (hpq ▸ hp)
    by_cases hi : i = id
    · simp [hi, hid, hqp]
    · rw [update_of_ne hi]
  known := h.known
  cost := h.cost

theorem enter (h : Tallied mod totals entries infos seen) (hinfo : infos id = some p)
    (hp : (entries p).knownFrame = -1) (hcdef : (entries p).cdef ≠ none) (hframe : frame ≠ -1)
    (htotals : ∀ k, totals' k = totals k + weight mod k (entries p)) :
    Tallied mod totals' (update entries p { entries p with knownFrame := frame }) infos (insert p seen) where
  total k := by
    have hnot : p ∉ seen := fun hmem => ((h.mem_seen p).1 hmem).2 hp
    rw [sum_insert hnot, update_self, htotals k, h.total k, add_comm, sum_update hnot]
    rfl
  mem_seen :=
    (forall_update_iff entries fun q x => q ∈ insert p seen ↔ (∃ id, infos id = some q) ∧ x.knownFrame ≠ -1).2
      ⟨iff_of_true (mem_insert_self ..) ⟨⟨id, hinfo⟩, hframe⟩,
        fun q hqp => by rw [mem_insert, or_iff_right hqp, h.mem_seen q]⟩
  known := (forall_update_iff entries fun _ x => x.knownFrame ≠ -1 → x.cdef ≠ none).2
    ⟨fun _ => hcdef, fun q _ => h.known q⟩
  cost := (forall_update_iff entries fun _ x => 0 ≤ x.cost).2 ⟨h.cost p, fun q _ => h.cost q⟩

theorem again (h : Tallied mod totals entries infos seen) (hinfo : infos id = some p)
    (hp : (entries p).knownFrame ≠ -1) : Tallied mod totals entries infos (insert p seen) := by
  rw [insert_eq_of_mem ((h.mem_seen p).2 ⟨⟨id, hinfo⟩, hp⟩)]
  exact h

theorem remove (h : Tallied mod totals entries infos seen) (hinfo : ∀ i, infos i = some p ↔ i = id)
    (htotals : ∀ k, totals' k = if (entries p).knownFrame = -1 then totals k else totals k - weight mod k (entries p)) :
    Tallied mod totals' entries (update infos id none) (seen.erase p) where
  total k := by
    rw [htotals k, h.total k]
    split
    · next hp =>
      rw [erase_eq_of_notMem fun hmem => ((h.mem_seen p).1 hmem).2 hp]
    · next hp =>
      have hmem : p ∈ seen := (h.mem_seen p).2 ⟨⟨id, (hinfo id).2 rfl⟩, hp⟩
      rw [← add_sum_erase seen _ hmem, add_sub_cancel_left]
  mem_seen q := by
    rw [mem_erase, h.mem_seen q, ← and_assoc]
    refine and_congr_left fun _ => ?_
    have hid := (hinfo id).2 rfl
    constructor
    · rintro ⟨hqp, i, hi⟩
      have hne : i ≠ id := by
        rintro rfl
        exact hqp (some.inj (hi.symm.trans hid))
      exact ⟨i, (update_of_ne hne ..).trans hi⟩
    · rintro ⟨i, hi⟩
      obtain ⟨hne, hi⟩ : i ≠ id ∧ infos i = some q := by simpa [update_apply] using hi
      exact ⟨fun hqp => hne ((hinfo i).1 (hqp ▸ hi)), i, hi⟩
  known := h.known
  cost := h.cost

end Tallied

end Tally

/-! ## What the functions do to the sums -/

variable {α ρ : Type*} [DecidableEq α] {s t : State α ρ} {p : ℕ} {v : Sight ρ} {ai : α} {id : ℤ} {mod : ThrMod}
  {es : List (Event α)} {e : Event α}

def books (s : State α ρ) : (Total ρ → ℚ) × (ℕ → Entry ρ) × (α → ℤ) :=
  (total s, fun p => entry (s.heap p), s.lastFrame)

theorem entry_update (h : ℕ → EnemyUnit ρ) (p : ℕ) (x : EnemyUnit ρ) :
    (fun q => entry (update h p x q)) = update (fun q => entry (h q)) p (entry x) :=
  comp_update entry h p x

theorem books_modify_entry (s : State α ρ) (p : ℕ) (f : EnemyUnit ρ → EnemyUnit ρ) : books (s.modify p f) =
    ((books s).1, update (books s).2.1 p (entry (f (s.heap p))), (books s).2.2) := by
  unfold books State.modify
  rw [entry_update]
  rfl

theorem books_modify {f : EnemyUnit ρ → EnemyUnit ρ} (h : ∀ e, entry (f e) = entry e) :
    books (s.modify p f) = books s := by
  rw [books_modify_entry, h]
  exact Prod.ext rfl (Prod.ext (update_eq_self p (fun q => entry (s.heap q))) rfl)

theorem books_peaceEnterLOS : books (s.peaceEnterLOS p) = books s := by
  unfold peaceEnterLOS
  dsimp only
  split
  · exact books_modify (by intro; rfl)
  · split
    · rfl
    · exact books_modify (by intro; rfl)

theorem books_hostileEnterLOS : books (s.hostileEnterLOS p) = books s := by
  unfold hostileEnterLOS
  dsimp only
  split
  · rfl
  · exact books_modify (by intro; rfl)

theorem books_mapEnterRadar : books (s.mapEnterRadar p) = books s := by
  have hradar : books (s.modify p fun e => { e with lastSeen := -1, isInRadar := true }) = books s :=
    books_modify (by intro; rfl)
  unfold mapEnterRadar
  dsimp only
  split
  · exact hradar
  · split
    · exact (books_modify (by intro; rfl)).trans hradar
    · split
      · exact (books_modify (by intro; rfl)).trans hradar
      · exact (books_modify (by intro; rfl)).trans hradar

theorem books_mapDestroyed : books (s.mapDestroyed p).2 = books s := by
  unfold mapDestroyed
  dsimp only
  split <;> rfl

theorem books_unregisterEnemyUnit (s : State α ρ) (p : ℕ) : books (s.unregisterEnemyUnit p) = books s :=
  books_modify (s := s) (p := p) (f := EnemyUnit.setDead) fun _ => rfl

theorem books_unregisterEnemyInfo : books (s.unregisterEnemyInfo ai p) = books s := by
  unfold unregisterEnemyInfo
  dsimp only
  split
  · rfl
  · exact books_unregisterEnemyUnit s p

theorem books_mapEnterLOS : books (s.mapEnterLOS p v).2 =
    ((books s).1, update (books s).2.1 p (((books s).2.1 p).setKnown s.frame), (books s).2.2) := by
  unfold mapEnterLOS
  dsimp only
  generalize hs' : (if ((s.modify p fun e => { e with isInLOS := true }).heap p).isAttacker then _ else _) = s'
  have hbooks : books s' = books s := by
    have hlos : books (s.modify p fun e => { e with isInLOS := true }) = books s := books_modify (by intro; rfl)
    rw [← hs']
    split
    · exact (books_modify (by intro; rfl)).trans (books_hostileEnterLOS.trans hlos)
    · exact (books_modify (by intro; rfl)).trans (books_peaceEnterLOS.trans hlos)
  have hcore : core s' = core s := by
    rw [← hs']
    split <;> simp
  have hframe : s'.frame = s.frame := by
    have hcircuit : s'.circuit = s.circuit := congrArg Core.circuit hcore
    have hlast : s'.lastFrame = s.lastFrame := congrArg (fun b => b.2.2) hbooks
    rw [State.frame, State.frame, hcircuit, hlast]
  have hentry : entry (s'.heap p) = (books s).2.1 p := congrFun (congrArg (fun b => b.2.1) hbooks) p
  rw [books_modify_entry, hbooks, hframe, ← hentry]
  rfl

theorem books_addEnemyCost : books (s.addEnemyCost mod p) = (total (s.addEnemyCost mod p), (books s).2) := by
  refine Prod.ext rfl ?_
  unfold addEnemyCost
  split
  · rfl
  · dsimp only
    split <;> rfl

theorem books_delEnemyCost : books (s.delEnemyCost mod p) = (total (s.delEnemyCost mod p), (books s).2) := by
  refine Prod.ext rfl ?_
  unfold delEnemyCost
  split
  · rfl
  · dsimp only
    split <;> rfl

theorem total_addEnemyCost (k : Total ρ) :
    total (s.addEnemyCost mod p) k = total s k + weight mod k (entry (s.heap p)) := by
  unfold addEnemyCost weight entry
  cases (s.heap p).cdef with
  | none => exact (add_zero _).symm
  | some d =>
    cases hmobile : d.isMobile <;> cases k <;> simp [total, hmobile] <;> split <;> simp

theorem max_sub_of_le {b : Bool} {a w : ℚ} (h : (if b then w else 0) ≤ a) :
    (if b then max (a - w) 0 else a) = a - if b then w else 0 := by
  cases b with
  | false => exact (sub_zero a).symm
  | true => exact max_eq_left (sub_nonneg.2 h)

theorem total_delEnemyCost {k : Total ρ} (h : weight mod k (entry (s.heap p)) ≤ total s k) :
    total (s.delEnemyCost mod p) k = total s k - weight mod k (entry (s.heap p)) := by
  unfold weight entry at *
  unfold delEnemyCost
  cases hd : (s.heap p).cdef with
  | none => exact (sub_zero _).symm
  | some d =>
    simp only [hd] at h
    cases k with
    | roleCost r | roleThreat r =>
      have hrole := max_sub_of_le h
      dsimp only
      split <;> exact hrole
    | mobileCost | mobileThreat =>
      rw [← max_sub_of_le h]
      dsimp only
      split <;> rfl
    | staticThreat =>
      cases hm : d.isMobile with
      | true =>
        simp only [hm, if_true]
        exact (sub_zero (total s .staticThreat)).symm
      | false =>
        simp only [hm, Bool.false_eq_true, if_false] at h ⊢
        exact max_eq_left (sub_nonneg.2 h)

/-! ## Steps and runs -/

def tallied (mod : ThrMod) (s : State α ρ) (es : List (Event α)) : Prop :=
  Tallied mod (books s).1 (books s).2.1 ((core s).infos (core s).circuit) (seen (core s).circuit es) ∧
    ∀ a, (books s).2.2 a ≠ -1

theorem tallied_congr (hbooks : books t = books s) (hcircuit : (core t).circuit = (core s).circuit)
    (hinfos : (core t).infos (core s).circuit = (core s).infos (core s).circuit)
    (hseen : seen (core s).circuit (e :: es) = seen (core s).circuit es) (h : tallied mod s es) :
    tallied mod t (e :: es) := by
  unfold tallied
  rw [hbooks, hcircuit, hinfos, hseen]
  exact h

theorem tallied_unitInLOS (h : tallied mod s es)
    (hsame : ∀ d d', (s.heap p).cdef = some d → v.unitDef = some d' → d'.id = d.id) :
    tallied mod (s.unitInLOS p v).2 es := by
  unfold unitInLOS
  split
  · exact h
  · next d hd =>
    split
    · next hall =>
      have hnone : (s.heap p).cdef = none := by
        cases hc : (s.heap p).cdef with
        | none => rfl
        | some d' =>
          rw [hc] at hall
          simp [hsame d' d hc hd] at hall
      have hknown : (s.heap p).knownFrame = -1 := by
        by_contra hne
        exact h.1.known p hne hnone
      have hcost : 0 ≤ v.commCost.getD d.costM := by
        cases hc : v.commCost with
        | none => exact d.costM_nonneg
        | some c => exact v.commCost_nonneg c hc
      have hnot : p ∉ seen s.circuit es := fun hmem => ((h.1.mem_seen p).1 hmem).2 hknown
      have hs' : tallied mod (s.modify p fun e => { e with cdef := some d, cost := v.commCost.getD d.costM }) es := by
        unfold tallied
        rw [books_modify_entry, core_modify (by intro; exact ⟨rfl, rfl⟩)]
        exact ⟨h.1.identify hnot hknown hcost, h.2⟩
      dsimp only
      split
      · unfold tallied
        rw [books_modify (by intro; rfl), core_modify (by intro; exact ⟨rfl, rfl⟩)]
        exact hs'
      · exact hs'
    · exact h

theorem unitInLOS_cdef (h : (s.unitInLOS p v).1 = true) : ((s.unitInLOS p v).2.heap p).cdef ≠ none := by
  cases hd : v.unitDef with
  | none => simp [unitInLOS, hd] at h
  | some d =>
    simp only [unitInLOS, hd] at h ⊢
    split
    · next hall =>
      split <;> simp [State.modify]
    · next hall =>
      cases hc : (s.heap p).cdef with
      | none => simp [hc] at hall
      | some d' => simp

theorem books_registerEnemyUnit (s : State α ρ) (id : ℤ) (isInLOS : Bool) (v : Sight ρ)
    (h : (s.registerEnemyUnit id isInLOS v).1 ≠ none) :
    ∃ x : Entry ρ, x.knownFrame = -1 ∧ 0 ≤ x.cost ∧ (isInLOS = true → x.cdef ≠ none) ∧
      books (s.registerEnemyUnit id isInLOS v).2 = ((books s).1, update (books s).2.1 s.next x, (books s).2.2) := by
  unfold registerEnemyUnit at h ⊢
  dsimp only at h ⊢
  split at h
  · exact absurd rfl h
  · next hvalid =>
    refine ⟨entry (EnemyUnit.new id (if isInLOS then v.unitDef else none)), rfl, ?_, ?_, ?_⟩
    · show 0 ≤ (if isInLOS then v.unitDef else none).elim 0 CircuitDef.costM
      cases (if isInLOS then v.unitDef else none) with
      | none => exact le_rfl
      | some d => exact d.costM_nonneg
    · rintro rfl hnone
      have hnone : v.unitDef = none := hnone
      simp [hnone] at hvalid
    · rw [if_neg hvalid]
      unfold books
      dsimp only
      rw [entry_update]
      rfl

theorem tallied_registerEnemyInfo (hr : Registry (core s)) (h : tallied mod s es) (ai : α) (id : ℤ) (isInLOS : Bool)
    (v : Sight ρ) (hsame : isInLOS = true → s.circuit = ai → ∀ p d d', s.enemyInfos ai id = some p →
      (s.heap p).cdef = some d → v.unitDef = some d' → d'.id = d.id) : tallied mod (s.registerEnemyInfo ai id isInLOS v).2 es := by
  unfold registerEnemyInfo
  split
  · next p hp =>
    split
    · next hlos =>
      dsimp only
      split
      · exact h
      · next hai => exact tallied_unitInLOS h fun d d' => hsame hlos (not_not.1 hai) p d d' hp
    · exact h
  · next hid =>
    by_cases hai : s.circuit = ai
    · subst hai
      rw [if_neg (not_not_intro rfl)]
      rcases core_registerEnemyUnit s id isInLOS v with ⟨h1, h2⟩ | ⟨h1, h2⟩
      · simp only [h1, h2]
        exact h
      · obtain ⟨x, hknown, hcost, -, hbooks⟩ := books_registerEnemyUnit s id isInLOS v (by simp [h1])
        simp only [h1]
        -- the new enemy has a number of its own
        have hnot : s.next ∉ seen s.circuit es := by
          intro hmem
          obtain ⟨i, hi⟩ := ((h.1.mem_seen _).1 hmem).1
          exact Nat.lt_irrefl _ (hr.infos_id _ _ _ hi).2
        have htally := (h.1.identify hnot hknown hcost).record (p := s.next) (by simpa using hknown) hid
        have hinfos := Core.setInfo_owner ((core s).register id) id (some s.next)
        unfold tallied
        rw [core_setInfo, h2]
        show Tallied mod (books (s.registerEnemyUnit id isInLOS v).2).1 (books (s.registerEnemyUnit id isInLOS v).2).2.1
          ((((core s).register id).setInfo ((core s).register id).circuit id (some s.next)).infos
            ((core s).register id).circuit) (seen s.circuit es) ∧
          ∀ a, (books (s.registerEnemyUnit id isInLOS v).2).2.2 a ≠ -1
        rw [hinfos, hbooks]
        exact ⟨htally, h.2⟩
    · rw [if_pos hai]
      dsimp only
      split
      · exact h
      · next p hp =>
        unfold tallied
        show Tallied mod _ _ (((core s).setInfo ai id (some p)).infos (core s).circuit) _ ∧ _
        rw [Core.setInfo_other hai]
        exact h

theorem registerEnemyInfo_cdef (hp : (s.registerEnemyInfo s.circuit id true v).1 = some p) :
    ((s.registerEnemyInfo s.circuit id true v).2.heap p).cdef ≠ none := by
  cases hq : s.enemyInfos s.circuit id with
  | some q =>
    simp only [registerEnemyInfo, hq, ne_eq, not_true_eq_false, if_false, if_true] at hp ⊢
    split at hp
    · next hok =>
      cases hp
      exact unitInLOS_cdef hok
    · cases hp
  | none =>
    simp only [registerEnemyInfo, hq, ne_eq, not_true_eq_false, if_false] at hp ⊢
    rcases core_registerEnemyUnit s id true v with ⟨h1, -⟩ | ⟨h1, -⟩
    · simp [h1] at hp
    · simp only [h1] at hp ⊢
      cases hp
      obtain ⟨x, -, -, hx, hbooks⟩ := books_registerEnemyUnit s id true v (by simp [h1])
      have hentry : entry ((s.registerEnemyUnit id true v).2.heap s.next) = x := by
        have hupdate := congrFun (congrArg (fun b => b.2.1) hbooks) s.next
        exact hupdate.trans (update_self ..)
      have hcdef := hx rfl
      rw [← hentry] at hcdef
      exact hcdef

theorem isKnown_eq {e : EnemyUnit ρ} (h : e.knownFrame = -1 ∨ e.knownFrame ≠ frame) :
    e.isKnown frame = decide (e.knownFrame ≠ -1) := by
  rcases h with h | h <;> simp [EnemyUnit.isKnown, h]

theorem Entry.setKnown_new {x : Entry ρ} (h : x.knownFrame = -1) :
    x.setKnown frame = { x with knownFrame := frame } := by
  simp [Entry.setKnown, h]

theorem Entry.setKnown_known {x : Entry ρ} (h : x.knownFrame ≠ -1) : x.setKnown frame = x := by
  simp [Entry.setKnown, h]

theorem tallied_teamEnterLOS (h : tallied mod s es) (hinfo : s.enemyInfos s.circuit id = some p)
    (hcdef : (s.heap p).cdef ≠ none) (hnew : (s.heap p).knownFrame = -1 ∨ (s.heap p).knownFrame ≠ s.frame) :
    tallied mod (s.teamEnterLOS mod s.circuit p v) (.enterLOS p :: es) := by
  have hbooks := books_mapEnterLOS (s := s) (p := p) (v := v)
  have hisNew : (s.mapEnterLOS p v).1 = !(s.heap p).isKnown s.frame := rfl
  rw [teamEnterLOS_owner mod rfl, hisNew, isKnown_eq hnew]
  unfold tallied
  by_cases hknown : (s.heap p).knownFrame = -1
  · rw [if_pos (by simpa using hknown), core_addEnemyCost, core_mapEnterLOS, books_addEnemyCost, hbooks]
    rw [Entry.setKnown_new hknown]
    refine ⟨h.1.enter hinfo hknown hcdef (h.2 s.circuit) fun k => ?_, h.2⟩
    have htotal : total (s.mapEnterLOS p v).2 = total s := congrArg fst hbooks
    have hentry : entry ((s.mapEnterLOS p v).2.heap p) = (entry (s.heap p)).setKnown s.frame := by
      have hupdate := congrFun (congrArg (fun b => b.2.1) hbooks) p
      exact hupdate.trans (update_self ..)
    show total ((s.mapEnterLOS p v).2.addEnemyCost mod p) k = _
    rw [total_addEnemyCost, htotal, hentry]
    rfl
  · rw [if_neg (by simpa using hknown), core_mapEnterLOS, hbooks, Entry.setKnown_known hknown,
      update_eq_self]
    exact ⟨h.1.again hinfo hknown, h.2⟩

theorem tallied_enemyDestroyed (hr : Registry (core s)) (h : tallied mod s es)
    (hinfo : s.enemyInfos s.circuit id = some p) (hnew : (s.heap p).knownFrame = -1 ∨ (s.heap p).knownFrame ≠ s.frame)
    (hseen : seen s.circuit (e :: es) = (seen s.circuit es).erase p) :
    tallied mod (s.enemyDestroyed mod s.circuit id) (e :: es) := by
  have hid := (hr.infos_id _ _ _ hinfo).1
  have hunique : ∀ i, s.enemyInfos s.circuit i = some p ↔ i = id := by
    intro i
    constructor
    · intro hi
      exact (hr.infos_id _ _ _ hi).1.symm.trans hid
    · rintro rfl
      exact hinfo
  have hinfos : (core (s.enemyDestroyed mod s.circuit id)).infos s.circuit =
      update (s.enemyInfos s.circuit) id none := by
    rw [core_enemyDestroyed mod hinfo, ← hid]
    exact Core.remove_owner_infos (core s) p
  have hbooks : books (s.enemyDestroyed mod s.circuit id) = books (s.teamDestroyed mod s.circuit p) := by
    simp only [enemyDestroyed, hinfo, books_unregisterEnemyInfo]
  have hisKnown : (s.mapDestroyed p).1 = (s.heap p).isKnown s.frame := rfl
  have hmap : books (s.mapDestroyed p).2 = books s := books_mapDestroyed
  have hcircuit : (core (s.enemyDestroyed mod s.circuit id)).circuit = s.circuit := by
    rw [core_enemyDestroyed mod hinfo, Core.remove_circuit]
    rfl
  unfold tallied
  rw [hcircuit, hseen, hinfos, hbooks, teamDestroyed_owner mod rfl, hisKnown, isKnown_eq hnew]
  by_cases hknown : (s.heap p).knownFrame = -1
  · rw [if_neg (by simpa using hknown), hmap]
    exact ⟨h.1.remove hunique fun k => (if_pos hknown).symm, h.2⟩
  · rw [if_pos (by simpa using hknown), books_delEnemyCost, hmap]
    refine ⟨h.1.remove hunique fun k => Eq.trans ?_ (if_neg hknown).symm, h.2⟩
    have htotal : total (s.mapDestroyed p).2 = total s := congrArg fst hmap
    have hentry : entry ((s.mapDestroyed p).2.heap p) = entry (s.heap p) :=
      congrFun (congrArg (fun b => b.2.1) hmap) p
    have hmem : p ∈ seen s.circuit es := (h.1.mem_seen p).2 ⟨⟨id, hinfo⟩, hknown⟩
    have hle := h.1.le_total hmem k
    show total ((s.mapDestroyed p).2.delEnemyCost mod p) k = _
    rw [total_delEnemyCost, htotal, hentry]
    · rfl
    · rw [htotal, hentry]
      exact hle

def isNewNow (s : State α ρ) (p : ℕ) : Prop := (s.heap p).knownFrame ≠ -1 ∧ (s.heap p).knownFrame = s.frame

def Timely (s : State α ρ) : Input α ρ → Prop
  | .enterLOS ai id v => s.circuit = ai →
    (∀ p, (s.registerEnemyInfo ai id true v).1 = some p → ¬ isNewNow (s.registerEnemyInfo ai id true v).2 p) ∧
    ∀ p d d', s.enemyInfos ai id = some p → (s.heap p).cdef = some d → v.unitDef = some d' → d'.id = d.id
  | .destroyed ai id => s.circuit = ai → ∀ p, s.enemyInfos ai id = some p → ¬ isNewNow s p
  | .handle => ∀ id rest p, s.pc = .garbage s.circuit (id :: rest) → s.enemyInfos s.circuit id = some p → ¬ isNewNow s p
  | _ => True

theorem known_of_not_isNewNow (h : ¬ isNewNow s p) : (s.heap p).knownFrame = -1 ∨ (s.heap p).knownFrame ≠ s.frame := by
  by_contra hcon
  rw [not_or] at hcon
  exact h ⟨hcon.1, not_not.1 hcon.2⟩

theorem tallied_enemyEnterLOS (hr : Registry (core s)) (h : tallied mod s es) (hok : Timely s (.enterLOS ai id v)) :
    tallied mod (s.enemyEnterLOS mod ai id v) (enterEvent s ai id v :: es) := by
  have hreg := tallied_registerEnemyInfo hr h ai id true v fun _ hai => (hok hai).2
  unfold enterEvent
  rw [enemyEnterLOS_eq]
  by_cases hai : s.circuit = ai
  · subst hai
    rw [if_pos rfl]
    cases hp : (s.registerEnemyInfo s.circuit id true v).1 with
    | none => exact hreg
    | some p =>
      have hcircuit : (s.registerEnemyInfo s.circuit id true v).2.circuit = s.circuit :=
        registerEnemyInfo_circuit true
      have hinfo : (s.registerEnemyInfo s.circuit id true v).2.enemyInfos
          (s.registerEnemyInfo s.circuit id true v).2.circuit id = some p := by
        rw [hcircuit]
        exact infos_of_registerEnemyInfo hp
      have hteam := tallied_teamEnterLOS (v := v) hreg hinfo (registerEnemyInfo_cdef hp)
        (known_of_not_isNewNow ((hok rfl).1 p hp))
      rw [hcircuit] at hteam
      exact hteam
  · rw [if_neg hai]
    cases hp : (s.registerEnemyInfo ai id true v).1 with
    | none => exact hreg
    | some p =>
      show tallied mod ((s.registerEnemyInfo ai id true v).2.teamEnterLOS mod ai p v) _
      rw [teamEnterLOS_other mod (by rwa [registerEnemyInfo_circuit])]
      exact hreg

theorem tallied_enemyEnterRadar (hr : Registry (core s)) (h : tallied mod s es) :
    tallied mod (s.enemyEnterRadar ai id v) (.tau :: es) := by
  have hreg := tallied_registerEnemyInfo hr h ai id false v nofun
  rw [enemyEnterRadar_eq]
  cases (s.registerEnemyInfo ai id false v).1 with
  | none => exact hreg
  | some p =>
    show tallied mod ((s.registerEnemyInfo ai id false v).2.teamEnterRadar ai p) _
    have hcore : core ((s.registerEnemyInfo ai id false v).2.teamEnterRadar ai p) =
        core (s.registerEnemyInfo ai id false v).2 := core_teamEnterRadar
    have hbooks : books ((s.registerEnemyInfo ai id false v).2.teamEnterRadar ai p) =
        books (s.registerEnemyInfo ai id false v).2 := by
      unfold teamEnterRadar
      split
      · rfl
      · exact books_mapEnterRadar
    exact tallied_congr hbooks (by rw [hcore]) (by rw [hcore]) rfl hreg

theorem tallied_destroyed (hr : Registry (core s)) (h : tallied mod s es) (hinfo : s.enemyInfos ai id = some p)
    (hok : s.circuit = ai → ¬ isNewNow s p)
    (hseen : seen s.circuit (e :: es) = if ai = s.circuit then (seen s.circuit es).erase p else seen s.circuit es) :
    tallied mod (s.enemyDestroyed mod ai id) (e :: es) := by
  by_cases hai : s.circuit = ai
  · subst hai
    rw [if_pos rfl] at hseen
    exact tallied_enemyDestroyed hr h hinfo (known_of_not_isNewNow (hok rfl)) hseen
  · rw [if_neg (Ne.symm hai)] at hseen
    have hcore := core_enemyDestroyed mod hinfo
    rw [Core.remove_other hai] at hcore
    refine tallied_congr ?_ (by rw [hcore]; rfl) ?_ hseen h
    · simp only [enemyDestroyed, hinfo, books_unregisterEnemyInfo, teamDestroyed_other mod hai]
    · rw [hcore]
      exact Core.setInfo_other hai ..

theorem entry_hostileInLOS (isSeen : Bool) (threat : ℚ) (e : EnemyUnit ρ) :
    entry (hostileInLOS isSeen threat e) = entry e := by
  unfold hostileInLOS
  split
  · rfl
  · split
    · rfl
    · split <;> rfl

theorem entry_peaceInLOS (isSeen : Bool) (e : EnemyUnit ρ) : entry (peaceInLOS isSeen e) = entry e := by
  unfold peaceInLOS
  split
  · rfl
  · split <;> rfl

theorem entry_ite {c : Prop} [Decidable c] {e e' : EnemyUnit ρ} (h : entry e' = entry e) :
    entry (if c then e' else e) = entry e := by
  split
  · exact h
  · rfl

theorem books_prepareUpdate (isSeen : ℕ → Bool) (threat : ℕ → ℚ) : books (s.prepareUpdate isSeen threat) = books s := by
  have hentry : (fun q => entry ((s.prepareUpdate isSeen threat).heap q)) = fun q => entry (s.heap q) := by
    funext q
    exact (entry_ite (entry_peaceInLOS ..)).trans (entry_ite (entry_hostileInLOS ..))
  exact Prod.ext rfl (Prod.ext hentry rfl)

theorem tallied_step {mark : ℤ} {i : Input α ρ} (hr : Registry (core s)) (h : tallied mod s es)
    (hok : Timely s i) (hst : Step mod mark s i e t) : tallied mod t (e :: es) := by
  cases hst with
  | enterLOS => exact tallied_enemyEnterLOS hr h hok
  | leaveLOS =>
    unfold enemyLeaveLOS teamLeaveLOS
    split
    · split
      · exact h
      · exact tallied_congr (books_modify (by intro; rfl)) rfl rfl rfl h
    · exact h
  | enterRadar => exact tallied_enemyEnterRadar hr h
  | leaveRadar =>
    unfold enemyLeaveRadar teamLeaveRadar
    split
    · split
      · exact h
      · exact tallied_congr (books_modify (by intro; rfl)) rfl rfl rfl h
    · exact h
  | @destroyed ai id hpc =>
    cases hp : s.enemyInfos ai id with
    | none =>
      rw [enemyDestroyed, hp]
      exact h
    | some p => exact tallied_destroyed hr h hp (fun hai => hok hai p hp) rfl
  | @update ai frame hpc =>
    refine ⟨h.1, fun a => ?_⟩
    exact (forall_update_iff s.lastFrame fun _ f => f ≠ -1).2 ⟨by omega, fun a _ => h.2 a⟩ a
  | @handle ai id rest hpc =>
    cases hp : s.enemyInfos ai id with
    | none =>
      rw [enemyDestroyed, hp]
      exact h
    | some p =>
      have hnew : s.circuit = ai → ¬ isNewNow s p := by
        rintro rfl
        exact hok id rest p hpc hp
      exact tallied_destroyed (e := .handled ai p) hr h hp hnew rfl
  | @team ai isUpdating isSeen threat hpc =>
    unfold teamUpdate
    split
    · exact h
    · split
      · dsimp only
        split
        · exact h
        · have hprepare : tallied mod (s.prepareUpdate isSeen threat) (.tau :: es) :=
            tallied_congr (books_prepareUpdate isSeen threat) rfl rfl rfl h
          exact hprepare
      · dsimp only
        split <;> exact h
  | delete => exact h
  | @garbage n p isOut isWeak hpc hp hd hg => exact tallied_congr (books_unregisterEnemyUnit s p) rfl rfl rfl h
  | @visit n p isOut isWeak hpc hp hd hg =>
    have hbooks : books (s.updateEnemyData p n isWeak) = books s := by
      refine books_modify (s := s) (p := p) (f := fun e => if e.isInLOS then { e with isWeak } else e) fun e => ?_
      split <;> rfl
    exact tallied_congr hbooks rfl rfl rfl h
  | endSweep => exact h

theorem tallied_new (circuit : α) : tallied mod (State.new circuit : State α ρ) [] := by
  refine ⟨⟨fun k => ?_, ?_, ?_, ?_⟩, ?_⟩
  · cases k <;> rfl
  · simp [books, core, seen, State.new]
  · simp [books, entry, State.new, EnemyUnit.new]
  · simp [books, entry, State.new, EnemyUnit.new]
  · simp [books, State.new]

theorem Run.tallied {mark : ℤ} (h : Run mod mark Timely es s) : tallied mod s es := by
  induction h with
  | new circuit => exact tallied_new circuit
  | step h hok hst ih => exact tallied_step h.registry ih hok hst

/-- Unless an enemy enters the line of sight again or dies in the frame of its first sight, each sum is that of what the
enemies weigh that were seen and not destroyed since. -/
theorem totals_correct {mark : ℤ} (h : Run mod mark Timely es s) (k : Total ρ) :
    total s k = ∑ p ∈ seen s.circuit es, weight mod k (entry (s.heap p)) :=
  h.tallied.1.total k

/-- Two enemies are seen. In a later frame the first one is destroyed and the second one is seen again. -/
theorem totals_correct_later : ∃ (es : List (Event Unit)) (s : State Unit Unit), Run unitThrMod 0 Timely es s ∧
    seen s.circuit es = {1} ∧ total s .mobileCost = 5 ∧
    ∀ k, total s k = ∑ p ∈ seen s.circuit es, weight unitThrMod k (entry (s.heap p)) := by
  have h0 : Run unitThrMod 0 Timely [] (State.new () : State Unit Unit) := .new ()
  have h1 := h0.step (i := .enterLOS () 7 (seeing (scout true)))
    (fun _ => ⟨fun p hp => by cases some.inj hp; exact fun hnew => hnew.1 rfl, fun p d d' hinfo => nomatch hinfo⟩)
    (.enterLOS rfl)
  have h2 := h1.step (i := .enterLOS () 8 (seeing (scout false)))
    (fun _ => ⟨fun p hp => by cases some.inj hp; exact fun hnew => hnew.1 rfl, fun p d d' hinfo => nomatch hinfo⟩)
    (.enterLOS rfl)
  have h3 := h2.step (i := .update () 7) trivial (.update rfl)
  have h4 := h3.step (i := .team true (fun _ => false) fun _ => 0) trivial (.team rfl)
  have h5 := h4.step (i := .destroyed () 7)
    (fun _ p hp => by cases some.inj hp; exact fun hnew => absurd hnew.2 (by decide)) (.destroyed rfl)
  have h6 := h5.step (i := .leaveLOS () 8) trivial (.leaveLOS rfl)
  have h7 := h6.step (i := .enterLOS () 8 (seeing (scout false)))
    (fun _ => ⟨fun p hp => by cases some.inj hp; exact fun hnew => absurd hnew.2 (by decide),
      fun p d d' hinfo hd hd' => by
        cases some.inj hinfo
        cases some.inj hd
        cases some.inj hd'
        rfl⟩)
    (.enterLOS rfl)
  exact ⟨_, _, h7, by decide, by decide +kernel, totals_correct h7⟩

/-- A unit that enters the line of sight twice in one frame is counted twice. -/
theorem seen_twice : ∃ (es : List (Event Unit)) (s : State Unit Unit), Run unitThrMod 0 (fun _ _ => True) es s ∧
    total s .mobileCost ≠ ∑ p ∈ seen s.circuit es, weight unitThrMod .mobileCost (entry (s.heap p)) := by
  have h0 : Run unitThrMod 0 (fun _ _ => True) [] (State.new () : State Unit Unit) := .new ()
  have h1 := h0.step (i := .update () 5) trivial (.update rfl)
  have h2 := h1.step (i := .team true (fun _ => false) fun _ => 0) trivial (.team rfl)
  have h3 := h2.step (i := .sweep false false) trivial (.endSweep rfl (.inr (by decide)))
  have h4 := h3.step (i := .enterLOS () 7 (seeing (scout true))) trivial (.enterLOS rfl)
  have h5 := h4.step (i := .leaveLOS () 7) trivial (.leaveLOS rfl)
  have h6 := h5.step (i := .enterLOS () 7 (seeing (scout true))) trivial (.enterLOS rfl)
  exact ⟨_, _, h6, by decide +kernel⟩

end Circuit.Spec.EnemyRuns
