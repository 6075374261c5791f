import CircuitAI.Spec.FactoryPower
import Mathlib.Algebra.BigOperators.Group.Finset.Basic
import Mathlib.Tactic.Ring

/-!
# Factory power and nanos

`Wired`: the enabled factories are finished ones, `assists` and the nanos of the factories are one relation between
finished units, and `validAir` holds the enabled air factories. Under it a nano assists a factory if its set is not empty
(`Wired.mem_assisting`), which is what the functions test. The handlers keep `Wired` and the power (`Powered`), as long as
a factory that is destroyed is enabled (`factoryPower_run`): `DisableFactory` lowers the power even of a factory that is
disabled already (`factoryPower_negative`).
-/

set_option linter.unusedSectionVars false

namespace Circuit.Spec.FactoryPower

open Impl.FactoryManager Impl.FactoryManager.State Function List

variable {U : Type*} [DecidableEq U] {g : Game U} {s t : State U} {q : Query U} {u n v : U}

structure Wired (g : Game U) (s : State U) : Prop where
  nodup : (s.factories.map (·.unit)).Nodup
  finished : ∀ f ∈ s.factories, g.isFactory f.unit = true ∧ Finished s f.unit
  nanos_nodup : ∀ f ∈ s.factories, f.nanos.Nodup
  nanos : ∀ f ∈ s.factories, ∀ n ∈ f.nanos, g.isAssist n = true ∧ Finished s n
  assists : ∀ n v, v ∈ s.assists n ↔ ∃ f ∈ s.factories, f.unit = v ∧ n ∈ f.nanos
  air : ∀ u, g.isFactory u = true → g.mobileId u < 0 → (u ∈ s.validAir ↔ Enabled s u)

structure Powered (g : Game U) (s : State U) : Prop extends Wired g s where
  factoryPower : s.factoryPower = power g s

theorem Wired.mem_assisting (h : Wired g s) : n ∈ assisting g s ↔ s.assists n ≠ ∅ := by
  rw [assisting, Finset.mem_filter, ← Finset.nonempty_iff_ne_empty]
  constructor
  · rintro ⟨_, _, _, f, _, hf⟩
    exact ⟨_, hf⟩
  · rintro ⟨v, hv⟩
    obtain ⟨f, hf, rfl, hn⟩ := (h.assists n v).mp hv
    obtain ⟨hassist, hfin⟩ := h.nanos f hf n hn
    exact ⟨hfin.1, hassist, hfin, f, hf, hv⟩

theorem Wired.assists_eq_empty (h : Wired g s) (hn : ¬ (g.isAssist n = true ∧ Finished s n)) : s.assists n = ∅ := by
  by_contra hne
  obtain ⟨v, hv⟩ := Finset.nonempty_iff_ne_empty.mpr hne
  obtain ⟨f, hf, _, hmem⟩ := (h.assists n v).mp hv
  exact hn (h.nanos f hf n hmem)

/-! ## The loops -/

structure Enlisted (g : Game U) (q : Query U) (unit : U) (s : State U) (nanos : List U) (r : State U) : Prop where
  nodup : nanos.Nodup
  isNano : ∀ n ∈ nanos, n ∈ q.getFriendlyUnitsIn ∧ s.isNano g q n = true
  same : r = { s with assists := r.assists, factoryPower := r.factoryPower }
  assists : ∀ n, r.assists n = if n ∈ nanos then insert unit (s.assists n) else s.assists n
  power : r.factoryPower = s.factoryPower + ∑ n ∈ nanos.toFinset with s.assists n = ∅, g.buildSpeed n

theorem Enlisted.enlist {nanos : List U} {r : State U} (h : Enlisted g q u s nanos r) (hn : n ∈ q.getFriendlyUnitsIn) :
    Enlisted g q u s (enlist g q u (nanos, r) n).1 (enlist g q u (nanos, r) n).2 := by
  have hisNano : r.isNano g q n = s.isNano g q n := by
    rw [h.same]
    rfl
  by_cases hnano : s.isNano g q n = true
  · have hassists := h.assists n
    simp only [State.enlist, hisNano, hnano, if_true]
    refine ⟨h.nodup.insert, fun m hm => ?_, ?_, fun m => ?_, ?_⟩
    · rcases mem_insert_iff.mp hm with rfl | hm
      · exact ⟨hn, hnano⟩
      · exact h.isNano m hm
    · have hsame := h.same
      rw [State.mk.injEq] at hsame ⊢
      exact ⟨hsame.1, hsame.2.1, hsame.2.2.1, rfl, rfl, hsame.2.2.2.2.2⟩
    · by_cases hm : m = n
      · subst hm
        simp only [update_self, mem_insert_iff, true_or, if_true, hassists]
        split <;> simp
      · simp only [update_of_ne hm, mem_insert_iff, hm, false_or]
        exact h.assists m
    · by_cases hmem : n ∈ nanos
      · rw [insert_of_mem hmem, if_neg (by simp [hassists, hmem])]
        exact h.power
      · simp only [insert_of_not_mem hmem, toFinset_cons, Finset.filter_insert, hassists, if_neg hmem]
        split
        · rw [Finset.sum_insert (by simp [hmem]), h.power]
          ring
        · exact h.power
  · simp only [State.enlist, hisNano, hnano]
    exact h

theorem enlisted_foldl (g : Game U) (q : Query U) (u : U) (s : State U) :
    Enlisted g q u s (q.getFriendlyUnitsIn.foldl (enlist g q u) ([], s)).1
      (q.getFriendlyUnitsIn.foldl (enlist g q u) ([], s)).2 :=
  foldlRecOn (motive := fun acc : List U × State U => Enlisted g q u s acc.1 acc.2) _ _
    ⟨nodup_nil, by simp, rfl, by simp, by simp⟩ fun _ hacc _ hn => hacc.enlist hn

theorem foldl_dismiss {ns : List U} (hns : ns.Nodup) (s : State U) : ns.foldl (dismiss g u) s = { s with
      assists := fun n => if n ∈ ns then (s.assists n).erase u else s.assists n
      factoryPower := s.factoryPower - ∑ n ∈ ns.toFinset with (s.assists n).erase u = ∅, g.buildSpeed n } := by
  induction ns generalizing s with
  | nil => simp
  | cons m ns ih =>
    obtain ⟨hm, hns⟩ := nodup_cons.mp hns
    rw [foldl_cons, ih hns, dismiss, State.mk.injEq]
    refine ⟨rfl, rfl, rfl, ?_, ?_, rfl⟩
    · funext n
      by_cases hn : n = m
      · subst hn
        simp [hm]
      · simp [hn]
    · have hsum : ∑ n ∈ ns.toFinset with (update s.assists m ((s.assists m).erase u) n).erase u = ∅,
          g.buildSpeed n = ∑ n ∈ ns.toFinset with (s.assists n).erase u = ∅, g.buildSpeed n := by
        refine Finset.sum_congr (Finset.filter_congr fun n hn => ?_) fun _ _ => rfl
        have hne : n ≠ m := by
          rintro rfl
          exact hm (mem_toFinset.mp hn)
        rw [update_of_ne hne]
      simp only [hsum, toFinset_cons, Finset.filter_insert]
      split
      · rw [Finset.sum_insert (by simp [hm])]
        ring
      · rfl

/-! ## Enabling and disabling -/

structure Enables (g : Game U) (s : State U) (u : U) (nanos : List U) (t : State U) : Prop where
  teamUnits : t.teamUnits = s.teamUnits
  task : t.task = s.task
  factories : t.factories = s.factories ++ [⟨u, nanos⟩]
  assists : ∀ n, t.assists n = if n ∈ nanos then insert u (s.assists n) else s.assists n
  factoryPower : t.factoryPower =
    s.factoryPower + g.buildSpeed u + ∑ n ∈ nanos.toFinset with s.assists n = ∅, g.buildSpeed n
  validAir : t.validAir = if g.mobileId u < 0 then insert u s.validAir else s.validAir

theorem enables_enableFactory (hq : Query.Consistent g s q) : ∃ nanos, nanos.Nodup ∧
    (∀ n ∈ nanos, g.isAssist n = true ∧ Finished s n) ∧ Enables g s u nanos (s.enableFactory g u q) := by
  have hloop := enlisted_foldl g q u { s with factoryPower := s.factoryPower + g.buildSpeed u }
  refine ⟨_, hloop.nodup, fun n hn => hq n (hloop.isNano n hn).1 (hloop.isNano n hn).2, ?_⟩
  have hsame := hloop.same
  rw [State.mk.injEq] at hsame
  obtain ⟨hteam, htask, hfactories, _, _, hair⟩ := hsame
  refine ⟨hteam, htask, ?_, hloop.assists, hloop.power, ?_⟩
  · simp only [State.enableFactory, hfactories]
  · simp only [State.enableFactory, hair]

theorem Finished.congr (hteam : t.teamUnits = s.teamUnits) (htask : t.task = s.task) : Finished t u ↔ Finished s u := by
  rw [Finished, Finished, hteam, htask]

section Enables

variable {nanos : List U} (ht : Enables g s u nanos t)

include ht

theorem Enables.enabled_iff : Enabled t v ↔ Enabled s v ∨ v = u := by
  simp only [Enabled, ht.factories, mem_append, mem_singleton, or_and_right, exists_or, exists_eq_left]
  exact or_congr_right eq_comm

theorem Wired.enables (h : Wired g s) (hfac : g.isFactory u = true) (hfin : Finished s u) (hu : ¬ Enabled s u)
    (hnodup : nanos.Nodup) (hnanos : ∀ n ∈ nanos, g.isAssist n = true ∧ Finished s n) : Wired g t := by
  have hfinished : ∀ {v}, Finished t v ↔ Finished s v := Finished.congr ht.teamUnits ht.task
  have hmem : ∀ {f}, f ∈ t.factories ↔ f ∈ s.factories ∨ f = ⟨u, nanos⟩ := by
    simp [ht.factories]
  refine ⟨?_, fun f hf => ?_, fun f hf => ?_, fun f hf => ?_, fun n v => ?_, fun w hw hair => ?_⟩
  · rw [ht.factories, map_append, nodup_append]
    refine ⟨h.nodup, by simp, fun a ha b hb => ?_⟩
    obtain ⟨f, hf, rfl⟩ := mem_map.mp ha
    obtain rfl : b = u := by simpa using hb
    exact fun heq => hu ⟨f, hf, heq⟩
  · rw [hfinished]
    rcases hmem.mp hf with hf | rfl
    · exact h.finished f hf
    · exact ⟨hfac, hfin⟩
  · rcases hmem.mp hf with hf | rfl
    · exact h.nanos_nodup f hf
    · exact hnodup
  · simp only [hfinished]
    rcases hmem.mp hf with hf | rfl
    · exact h.nanos f hf
    · exact hnanos
  · simp only [hmem, ht.assists, or_and_right, exists_or, exists_eq_left, ← h.assists]
    split <;> grind
  · rw [ht.enabled_iff, ht.validAir, ← h.air w hw hair]
    by_cases heq : w = u
    · subst heq
      simp [hair]
    · split <;> simp [heq]

theorem Enables.power (h : Powered g s) (hwired : Wired g t) : t.factoryPower = power g t := by
  have hunion : assisting g t = assisting g s ∪ {n ∈ nanos.toFinset | s.assists n = ∅} := by
    ext n
    rw [hwired.mem_assisting, Finset.mem_union, h.mem_assisting, Finset.mem_filter, mem_toFinset, ht.assists]
    split <;> grind
  have hdisj : Disjoint (assisting g s) {n ∈ nanos.toFinset | s.assists n = ∅} := by
    rw [Finset.disjoint_left]
    intro n hn hn'
    exact h.mem_assisting.mp hn (Finset.mem_filter.mp hn').2
  rw [FactoryPower.power, hunion, Finset.sum_union hdisj, ht.factories, map_append, sum_append,
    ht.factoryPower, h.factoryPower, FactoryPower.power]
  simp only [map_cons, map_nil, sum_singleton]
  ring

end Enables

theorem Powered.enableFactory (h : Powered g s) (hfac : g.isFactory u = true) (hfin : Finished s u)
    (hu : ¬ Enabled s u) (hq : Query.Consistent g s q) : Powered g (s.enableFactory g u q) := by
  obtain ⟨nanos, hnodup, hnanos, ht⟩ := enables_enableFactory hq
  have hwired := h.enables ht hfac hfin hu hnodup hnanos
  exact ⟨hwired, ht.power h hwired⟩

structure Disables (g : Game U) (s : State U) (f : SFactory U) (t : State U) : Prop where
  teamUnits : t.teamUnits = s.teamUnits
  task : t.task = s.task
  factories : (f :: t.factories).Perm s.factories
  assists : ∀ n, t.assists n = if n ∈ f.nanos then (s.assists n).erase f.unit else s.assists n
  factoryPower : t.factoryPower = s.factoryPower - g.buildSpeed f.unit -
    ∑ n ∈ f.nanos.toFinset with (s.assists n).erase f.unit = ∅, g.buildSpeed n
  validAir : t.validAir = if g.mobileId f.unit < 0 then s.validAir.erase f.unit else s.validAir

theorem disables_disableFactory (h : Wired g s) (hu : Enabled s u) :
    ∃ f ∈ s.factories, f.unit = u ∧ Disables g s f (s.disableFactory g u) := by
  obtain ⟨f₀, hf₀, heq⟩ := hu
  have htask : s.task u ≠ some .nil := by
    rw [← heq, (h.finished f₀ hf₀).2.2]
    nofun
  cases hidx : s.factories.findIdx? (·.unit = u) with
  | none =>
    rw [findIdx?_eq_none_iff] at hidx
    exact absurd heq (by simpa using hidx f₀ hf₀)
  | some i =>
    obtain ⟨hi, hunit, _⟩ := findIdx?_eq_some_iff_getElem.mp hidx
    have hget : s.factories[i]? = some s.factories[i] := getElem?_eq_getElem hi
    have hmem : s.factories[i] ∈ s.factories := getElem_mem hi
    have hunit : s.factories[i].unit = u := by simpa using hunit
    refine ⟨s.factories[i], hmem, hunit, ?_⟩
    simp only [State.disableFactory, if_neg htask, dropFactory, hidx, getD_eq_getElem?_getD, hget, Option.getD_some,
      foldl_dismiss (h.nanos_nodup _ hmem)]
    refine ⟨rfl, rfl, Framework.cons_swapRemove_perm hget _, fun n => ?_, ?_, ?_⟩ <;> rw [hunit]

section Disables

variable {f : SFactory U} (ht : Disables g s f t)

include ht

theorem Wired.disables (h : Wired g s) : Wired g t := by
  have hfinished : ∀ {v}, Finished t v ↔ Finished s v := Finished.congr ht.teamUnits ht.task
  have hnodup : ((f :: t.factories).map (·.unit)).Nodup := (ht.factories.map _).nodup_iff.mpr h.nodup
  have hunit : ∀ f' ∈ t.factories, f'.unit ≠ f.unit := by
    intro f' hf' heq
    exact (nodup_cons.mp hnodup).1 (mem_map.mpr ⟨f', hf', heq⟩)
  have hmem : ∀ {f'}, f' ∈ s.factories ↔ f' = f ∨ f' ∈ t.factories := by
    intro f'
    rw [← ht.factories.mem_iff, mem_cons]
  refine ⟨(nodup_cons.mp hnodup).2, fun f' hf' => ?_, fun f' hf' => ?_, fun f' hf' => ?_, fun n v => ?_,
    fun w hw hair => ?_⟩
  · rw [hfinished]
    exact h.finished f' (hmem.mpr (.inr hf'))
  · exact h.nanos_nodup f' (hmem.mpr (.inr hf'))
  · simp only [hfinished]
    exact h.nanos f' (hmem.mpr (.inr hf'))
  · have hold := h.assists n v
    simp only [hmem] at hold
    rw [ht.assists]
    split <;> grind
  · have hold := h.air w hw hair
    simp only [Enabled, hmem] at hold
    rw [ht.validAir]
    simp only [Enabled]
    by_cases heq : w = f.unit
    · subst heq
      simpa [hair] using hunit
    · split <;> grind

theorem Disables.power (h : Powered g s) (hwired : Wired g t) : t.factoryPower = power g t := by
  have hf : f ∈ s.factories := ht.factories.mem_iff.mp mem_cons_self
  have hunion : assisting g s = assisting g t ∪ {n ∈ f.nanos.toFinset | (s.assists n).erase f.unit = ∅} := by
    ext n
    rw [Finset.mem_union, hwired.mem_assisting, h.mem_assisting, Finset.mem_filter, mem_toFinset, ht.assists]
    have hself : n ∈ f.nanos → f.unit ∈ s.assists n := fun hn => (h.assists n _).mpr ⟨f, hf, rfl, hn⟩
    split <;> grind
  have hdisj : Disjoint (assisting g t) {n ∈ f.nanos.toFinset | (s.assists n).erase f.unit = ∅} := by
    rw [Finset.disjoint_left]
    intro n hn hn'
    obtain ⟨hmem, hempty⟩ := Finset.mem_filter.mp hn'
    rw [hwired.mem_assisting, ht.assists, if_pos (mem_toFinset.mp hmem)] at hn
    exact hn hempty
  have hsum := (ht.factories.map (g.buildSpeed ·.unit)).sum_eq
  rw [map_cons, sum_cons] at hsum
  rw [ht.factoryPower, h.factoryPower, FactoryPower.power, FactoryPower.power, hunion, Finset.sum_union hdisj, ← hsum]
  ring

end Disables

theorem Powered.disableFactory (h : Powered g s) (hu : Enabled s u) : Powered g (s.disableFactory g u) := by
  obtain ⟨f, _, _, ht⟩ := disables_disableFactory h.toWired hu
  have hwired := h.disables ht
  exact ⟨hwired, ht.power h hwired⟩

/-! ## Nanos -/

theorem Wired.rewire (h : Wired g s) (nanos : SFactory U → List U)
    (hfactories : t.factories = s.factories.map fun f => { f with nanos := nanos f })
    (hfinished : ∀ v, Finished s v → Finished t v) (hnodup : ∀ f ∈ s.factories, (nanos f).Nodup)
    (hnanos : ∀ f ∈ s.factories, ∀ n ∈ nanos f, g.isAssist n = true ∧ Finished t n)
    (hassists : ∀ n v, v ∈ t.assists n ↔ ∃ f ∈ s.factories, f.unit = v ∧ n ∈ nanos f)
    (hair : t.validAir = s.validAir) : Wired g t := by
  have hmem : ∀ {f}, f ∈ t.factories ↔ ∃ f' ∈ s.factories, { f' with nanos := nanos f' } = f := by
    simp [hfactories]
  refine ⟨?_, fun f hf => ?_, fun f hf => ?_, fun f hf => ?_, fun n v => ?_, fun w hw hmobile => ?_⟩
  · rw [hfactories, map_map]
    exact h.nodup
  · obtain ⟨f', hf', rfl⟩ := hmem.mp hf
    exact (h.finished f' hf').imp id (hfinished _)
  · obtain ⟨f', hf', rfl⟩ := hmem.mp hf
    exact hnodup f' hf'
  · obtain ⟨f', hf', rfl⟩ := hmem.mp hf
    exact hnanos f' hf'
  · simp only [hassists, hfactories, mem_map, exists_exists_and_eq_and]
  · simp only [hair, h.air w hw hmobile, Enabled, hfactories, mem_map, exists_exists_and_eq_and]

theorem sum_rewire {nanos : SFactory U → List U}
    (hfactories : t.factories = s.factories.map fun f => { f with nanos := nanos f }) :
    (t.factories.map (g.buildSpeed ·.unit)).sum = (s.factories.map (g.buildSpeed ·.unit)).sum := by
  rw [hfactories, map_map]
  rfl

theorem Powered.assistFinished (h : Powered g s) (hassist : g.isAssist u = true) (hreg : u ∈ s.teamUnits)
    (hnot : ¬ Finished s u) : Powered g (s.assistFinishedHandler g u) := by
  have hempty : s.assists u = ∅ := h.assists_eq_empty fun hf => hnot hf.2
  generalize ht : s.assistFinishedHandler g u = t
  have hfinished : ∀ v, Finished s v → Finished t v := by
    rintro v ⟨hv, htask⟩
    subst ht
    refine ⟨hv, ?_⟩
    rw [assistFinishedHandler]
    grind
  have hself : Finished t u := by
    subst ht
    exact ⟨hreg, update_self ..⟩
  have hfactories : t.factories = s.factories.map fun f =>
      { f with nanos := if inRange g u f.unit then f.nanos.insert u else f.nanos } := by
    subst ht
    refine map_congr_left fun f _ => ?_
    split <;> rfl
  have hassists : ∀ n, n ≠ u → t.assists n = s.assists n := by
    intro n hn
    subst ht
    exact update_of_ne hn _ _
  have hwired : Wired g t := by
    refine h.rewire _ hfactories hfinished (fun f hf => ?_) (fun f hf n hn => ?_) (fun n v => ?_) (by subst ht; rfl)
    · split
      · exact (h.nanos_nodup f hf).insert
      · exact h.nanos_nodup f hf
    · have hold := h.nanos f hf n
      grind
    · by_cases hn : n = u
      · have hnone : ∀ f ∈ s.factories, u ∉ f.nanos := fun f hf hu => hnot (h.nanos f hf u hu).2
        have hmem : ∀ f ∈ s.factories, (u ∈ if inRange g u f.unit then f.nanos.insert u else f.nanos) ↔
            inRange g u f.unit = true := fun f hf => by split <;> simp_all
        subst ht hn
        simp only [assistFinishedHandler, update_self, hempty, Finset.empty_union, mem_toFinset,
          mem_map, mem_filter]
        exact ⟨fun ⟨f, hf, heq⟩ => ⟨f, hf.1, heq, (hmem f hf.1).mpr hf.2⟩,
          fun ⟨f, hf, heq, hn⟩ => ⟨f, ⟨hf, (hmem f hf).mp hn⟩, heq⟩⟩
      · rw [hassists n hn, h.assists]
        grind
  refine ⟨hwired, ?_⟩
  have hinsert : assisting g t = if t.assists u = ∅ then assisting g s else insert u (assisting g s) := by
    ext n
    rw [hwired.mem_assisting]
    by_cases hn : n = u
    · subst hn
      split <;> simp_all [h.mem_assisting]
    · rw [hassists n hn]
      split <;> simp [hn, h.mem_assisting]
  have hpower : t.factoryPower =
      if t.assists u = ∅ then s.factoryPower else s.factoryPower + g.buildSpeed u := by
    subst ht
    simp only [assistFinishedHandler, update_self]
  rw [hpower, power, hinsert, sum_rewire hfactories, h.factoryPower, power]
  split
  · rfl
  · rw [Finset.sum_insert (by simp [h.mem_assisting, hempty])]
    ring

theorem Powered.assistDestroyed (h : Powered g s) (hfin : Finished s u) :
    Powered g (s.assistDestroyedHandler g u) ∧ (s.assistDestroyedHandler g u).assists u = ∅ := by
  have htask : s.task u ≠ some .nil := by
    rw [hfin.2]
    nofun
  generalize ht : s.assistDestroyedHandler g u = t
  rw [assistDestroyedHandler, if_neg htask] at ht
  have hfactories : t.factories = s.factories.map fun f => { f with nanos := f.nanos.erase u } := by
    subst ht
    rfl
  have hassists : ∀ n, t.assists n = if n = u then ∅ else s.assists n := by
    intro n
    subst ht
    exact update_apply ..
  have hself : t.assists u = ∅ := by simp [hassists]
  have hwired : Wired g t := by
    refine h.rewire _ hfactories (by subst ht; exact fun _ => id) (fun f hf => (h.nanos_nodup f hf).erase _)
      (fun f hf n hn => ?_) (fun n v => ?_) (by subst ht; rfl)
    · subst ht
      exact h.nanos f hf n (mem_of_mem_erase hn)
    · have hmem : ∀ f ∈ s.factories, n ∈ f.nanos.erase u ↔ n ≠ u ∧ n ∈ f.nanos := fun f hf =>
        (h.nanos_nodup f hf).mem_erase_iff
      have hold := h.assists n v
      rw [hassists]
      split <;> grind
  refine ⟨⟨hwired, ?_⟩, hself⟩
  have herase : assisting g t = (assisting g s).erase u := by
    ext n
    rw [hwired.mem_assisting, hassists, Finset.mem_erase, h.mem_assisting]
    grind
  have hpower : t.factoryPower = if s.assists u = ∅ then s.factoryPower else s.factoryPower - g.buildSpeed u := by
    subst ht
    rfl
  rw [hpower, power, herase, sum_rewire hfactories, h.factoryPower, power]
  split
  · next hempty => rw [Finset.erase_eq_of_notMem (by simp [h.mem_assisting, hempty])]
  · next hne =>
    rw [← Finset.add_sum_erase (assisting g s) g.buildSpeed (h.mem_assisting.mpr hne)]
    ring

/-! ## Registration -/

theorem Powered.frame (h : Powered g s) (hfactories : t.factories = s.factories) (hassists : t.assists = s.assists)
    (hpower : t.factoryPower = s.factoryPower) (hair : t.validAir = s.validAir)
    (hfinished : ∀ v, Enabled s v ∨ s.assists v ≠ ∅ → Finished s v → Finished t v) : Powered g t := by
  have hwired : Wired g t := by
    refine ⟨hfactories ▸ h.nodup, fun f hf => ?_, hfactories ▸ h.nanos_nodup, fun f hf n hn => ?_, fun n v => ?_,
      fun w hw hmobile => ?_⟩
    · rw [hfactories] at hf
      exact (h.finished f hf).imp id (hfinished _ (.inl ⟨f, hf, rfl⟩))
    · rw [hfactories] at hf
      have hmem : f.unit ∈ s.assists n := (h.assists n _).mpr ⟨f, hf, rfl, hn⟩
      exact (h.nanos f hf n hn).imp id (hfinished _ (.inr (Finset.nonempty_iff_ne_empty.mp ⟨_, hmem⟩)))
    · rw [hassists, hfactories]
      exact h.assists n v
    · rw [hair, h.air w hw hmobile, Enabled, Enabled, hfactories]
  have hsame : assisting g t = assisting g s := by
    ext n
    rw [hwired.mem_assisting, h.mem_assisting, hassists]
  exact ⟨hwired, by rw [hpower, h.factoryPower, power, power, hsame, hfactories]⟩

theorem finished_getOrRegTeamUnit : Finished (s.getOrRegTeamUnit u) v ↔ Finished s v := by
  rw [getOrRegTeamUnit]
  split
  · rfl
  · next hu =>
    by_cases hv : v = u
    · subst hv
      simp [Finished, hu]
    · simp [Finished, hv]

theorem Powered.getOrRegTeamUnit (h : Powered g s) : Powered g (s.getOrRegTeamUnit u) := by
  refine h.frame ?_ ?_ ?_ ?_ fun v _ hv => finished_getOrRegTeamUnit.mpr hv <;>
    rw [State.getOrRegTeamUnit] <;> split <;> rfl

theorem Powered.created (h : Powered g s) : Powered g (s.createdHandler u) := by
  unfold createdHandler
  split
  · next hnone =>
    refine h.frame rfl rfl rfl rfl fun v _ hv => ⟨hv.1, ?_⟩
    have hne : v ≠ u := by
      rintro rfl
      exact nomatch hnone.symm.trans hv.2
    exact (update_of_ne hne _ _).trans hv.2
  · exact h

theorem Powered.unregisterTeamUnit (h : Powered g s) (hfac : ¬ Enabled s u) (hnano : s.assists u = ∅) :
    Powered g (s.unregisterTeamUnit u) := by
  refine h.frame rfl rfl rfl rfl fun v hv hfin => ⟨Finset.mem_erase.mpr ⟨?_, hfin.1⟩, hfin.2⟩
  rintro rfl
  exact hv.elim hfac fun hne => hne hnano

theorem Powered.factoryFinished (h : Powered g s) (hfac : g.isFactory u = true) (hreg : u ∈ s.teamUnits)
    (hnot : ¬ Finished s u) (hq : Query.Consistent g s q) : Powered g (s.factoryFinishedHandler g u q) := by
  have hen : ¬ Enabled s u := fun ⟨f, hf, heq⟩ => hnot (heq ▸ (h.finished f hf).2)
  have hpow : Powered g { s with task := update s.task u (some .idle) } := by
    refine h.frame rfl rfl rfl rfl fun v _ hv => ⟨hv.1, ?_⟩
    have hne : v ≠ u := fun heq => hnot (heq ▸ hv)
    exact (update_of_ne hne _ _).trans hv.2
  refine hpow.enableFactory hfac ⟨hreg, update_self ..⟩ hen fun n hn hnano => ?_
  obtain ⟨hassist, hfin⟩ := hq n hn hnano
  have hne : n ≠ u := fun heq => hnot (heq ▸ hfin)
  exact ⟨hassist, hfin.1, (update_of_ne hne _ _).trans hfin.2⟩

theorem finished_of_task (hreg : u ∈ s.teamUnits) (htask : s.task u ≠ none) (hnil : s.task u ≠ some .nil) :
    Finished s u := by
  refine ⟨hreg, ?_⟩
  rcases hu : s.task u with _ | _ | _
  · exact absurd hu htask
  · exact absurd hu hnil
  · rfl

theorem Powered.factoryDestroyed (h : Powered g s) (hfac : g.isFactory u = true) (htask : s.task u ≠ none)
    (hreg : u ∈ s.teamUnits) (hok : Finished s u → Enabled s u) :
    Powered g ((s.factoryDestroyedHandler g u).unregisterTeamUnit u) := by
  have hassists : ∀ {r : State U}, Powered g r → r.assists u = ∅ := fun hr =>
    hr.assists_eq_empty fun hn => by simp [g.disjoint u hfac] at hn
  by_cases hnil : s.task u = some .nil
  · have hen : ¬ Enabled s u := fun ⟨f, hf, heq⟩ => by
      have hidle := heq ▸ (h.finished f hf).2.2
      exact nomatch hnil.symm.trans hidle
    rw [factoryDestroyedHandler, State.disableFactory, if_pos hnil]
    exact h.unregisterTeamUnit hen (hassists h)
  · have hfin := finished_of_task hreg htask hnil
    have hpow := h.disableFactory (hok hfin)
    refine hpow.unregisterTeamUnit ?_ (hassists hpow)
    obtain ⟨f, _, rfl, ht⟩ := disables_disableFactory h.toWired (hok hfin)
    have hnodup : ((f :: (s.disableFactory g f.unit).factories).map (·.unit)).Nodup :=
      (ht.factories.map _).nodup_iff.mpr h.nodup
    rintro ⟨f', hf', heq⟩
    exact (nodup_cons.mp hnodup).1 (mem_map.mpr ⟨f', hf', heq⟩)

theorem Powered.assistDestroyed_unregister (h : Powered g s) (hfac : g.isFactory u = false) (htask : s.task u ≠ none)
    (hreg : u ∈ s.teamUnits) : Powered g ((s.assistDestroyedHandler g u).unregisterTeamUnit u) := by
  have hen : ∀ {r : State U}, Powered g r → ¬ Enabled r u := fun hr ⟨f, hf, heq⟩ => by
    have := (hr.finished f hf).1
    simp [heq, hfac] at this
  by_cases hnil : s.task u = some .nil
  · rw [assistDestroyedHandler, if_pos hnil]
    refine h.unregisterTeamUnit (hen h) (h.assists_eq_empty fun hn => ?_)
    exact nomatch hnil.symm.trans hn.2.2
  · have hfin := finished_of_task hreg htask hnil
    obtain ⟨hpow, hempty⟩ := h.assistDestroyed hfin
    exact hpow.unregisterTeamUnit (hen hpow) hempty

/-! ## Runs -/

theorem Powered.init : Powered g (State.init : State U) := by
  refine ⟨⟨nodup_nil, nofun, nofun, nofun, fun n v => ?_, fun u _ _ => ?_⟩, ?_⟩
  · simp [State.init]
  · simp [State.init, Enabled]
  · simp [State.init, power, assisting]

theorem Powered.createFactoryTask (h : Powered g s) {isNotReady isAirValid : Bool} (hfac : g.isFactory u = true)
    (hfin : Finished s u) (hq : Query.Consistent g s q) :
    Powered g (s.createFactoryTask g u isNotReady isAirValid q) := by
  unfold State.createFactoryTask
  split
  · exact h
  · split
    · next hmobile =>
      have hair := h.air u hfac hmobile
      split
      · split
        · exact h
        · next hout => exact h.enableFactory hfac hfin (fun hen => hout (hair.mpr hen)) hq
      · split
        · next hin => exact h.disableFactory (hair.mp hin)
        · exact h
    · exact h

theorem Powered.handle (h : Powered g s) {e : Event U} (hproper : Proper g s e) (hok : EnabledAtEnd g s e)
    (ht : e.handle g s = some t) : Powered g t := by
  have hreg : ∀ {v}, v ∈ (s.getOrRegTeamUnit v).teamUnits := by
    intro v
    rw [State.getOrRegTeamUnit]
    split <;> simp_all
  cases e with
  | unitCreated u =>
    simp only [Event.handle, Option.some.injEq] at ht
    subst ht
    split
    · exact h.getOrRegTeamUnit.created
    · exact h.getOrRegTeamUnit
  | unitFinished u q =>
    simp only [Event.handle, Option.some.injEq] at ht
    obtain ⟨hnot, hq⟩ := hproper
    have hnot' : ¬ Finished (s.getOrRegTeamUnit u) u := mt finished_getOrRegTeamUnit.mp hnot
    subst ht
    split
    · next hfac => exact h.getOrRegTeamUnit.factoryFinished hfac hreg hnot' (hq hfac)
    · split
      · next hassist => exact h.getOrRegTeamUnit.assistFinished hassist hreg hnot'
      · exact h.getOrRegTeamUnit
  | unitDestroyed u =>
    simp only [Event.handle] at ht
    split at ht
    · next hu =>
      split at ht
      · split at ht
        · cases ht
        · next htask =>
          cases ht
          split
          · next hfac => exact h.factoryDestroyed hfac htask hu (hok hfac)
          · next hfac => exact h.assistDestroyed_unregister (by simpa using hfac) htask hu
      · next hother =>
        cases ht
        simp only [Bool.or_eq_true, not_or, Bool.not_eq_true] at hother
        refine h.unregisterTeamUnit (fun ⟨f, hf, heq⟩ => ?_) (h.assists_eq_empty fun hn => ?_)
        · have := (h.finished f hf).1
          simp [heq, hother.1] at this
        · simp [hother.2] at hn
    · cases ht
      exact h
  | createFactoryTask u isNotReady isAirValid q =>
    cases ht
    exact h.createFactoryTask hproper.1 hproper.2.1 hproper.2.2

/-- In every run in which no disabled factory is destroyed, the factory power is the sum of the build speeds of the
enabled factories and of the nanos that assist one, and the nanos of the enabled factories mirror the assist sets. -/
theorem factoryPower_run (h : Run g (EnabledAtEnd g) s) :
    s.factoryPower = power g s ∧ ∀ f ∈ s.factories, ∀ n, g.isAssist n = true → Finished s n →
      (n ∈ f.nanos ↔ f.unit ∈ s.assists n) := by
  have hpowered : Powered g s := by
    induction h with
    | init => exact .init
    | step e _ hproper hok ht ih => exact ih.handle hproper hok ht
  refine ⟨hpowered.factoryPower, fun f hf n _ _ => ?_⟩
  rw [hpowered.assists]
  refine ⟨fun hn => ⟨f, hf, rfl, hn⟩, ?_⟩
  rintro ⟨f', hf', heq, hn⟩
  rwa [← inj_on_of_nodup_map hpowered.nodup hf' hf heq]

/-! ## An air factory that is disabled -/

def airport : Game ℕ where
  isFactory u := u % 2 = 0
  isAssist u := u % 2 ≠ 0
  disjoint := by simp
  isAssistDef u := u % 2 ≠ 0
  mobileId _ := -1
  buildSpeed u := if u % 2 = 0 then 2 else 1
  buildDistance _ := 1
  pos _ := ⟨0, 0, 0⟩

def noUnits : Query ℕ := ⟨[], fun _ => false⟩

/-- A nano finishes and two factories that it assists. The second factory is destroyed, and the first one is disabled and
enabled again. -/
theorem factoryPower_run_assisted : ∃ s : State ℕ, Run airport (EnabledAtEnd airport) s ∧
    s.factories = [⟨0, [1]⟩] ∧ s.factoryPower = 3 ∧ s.factoryPower = power airport s ∧
    ∀ f ∈ s.factories, ∀ n, airport.isAssist n = true → Finished s n → (n ∈ f.nanos ↔ f.unit ∈ s.assists n) := by
  let near : Query ℕ := ⟨[1], fun _ => false⟩
  have hnano : Run airport (EnabledAtEnd airport) _ :=
    .step (.unitFinished 1 noUnits) .init ⟨by decide, nofun⟩ trivial rfl
  have hfirst := Run.step (.unitFinished 0 near) hnano
    ⟨by decide, fun _ n hn _ => by rw [mem_singleton.mp hn]; decide⟩ trivial rfl
  have hsecond := Run.step (.unitFinished 2 near) hfirst
    ⟨by decide, fun _ n hn _ => by rw [mem_singleton.mp hn]; decide⟩ trivial rfl
  have hdestroyed := Run.step (.unitDestroyed 2) hsecond trivial (fun _ _ => by decide) rfl
  have hdisabled := Run.step (.createFactoryTask 0 false false noUnits) hdestroyed
    ⟨rfl, by decide, fun _ hn => nomatch hn⟩ trivial rfl
  have hrun := Run.step (.createFactoryTask 0 false true near) hdisabled
    ⟨rfl, by decide, fun n hn _ => by rw [mem_singleton.mp hn]; decide⟩ trivial rfl
  exact ⟨_, hrun, by decide, by decide +kernel, factoryPower_run hrun⟩

/-- The air factory finishes, is disabled since air is not valid, and is destroyed: its build speed is subtracted
twice. -/
theorem factoryPower_negative : ∃ s : State ℕ, Run airport (fun _ _ => True) s ∧ s.factories = [] ∧
    power airport s = 0 ∧ s.factoryPower = -2 := by
  have hfactory : Run airport (fun _ _ => True)
      ((State.init.getOrRegTeamUnit 0).factoryFinishedHandler airport 0 noUnits) :=
    .step (.unitFinished 0 noUnits) .init ⟨by decide, fun _ _ hn => nomatch hn⟩ trivial rfl
  have hdisabled := Run.step (.createFactoryTask 0 false false noUnits) hfactory
    ⟨rfl, by decide, fun _ hn => nomatch hn⟩ trivial rfl
  exact ⟨_, .step (.unitDestroyed 0) hdisabled trivial trivial rfl, by decide, by decide +kernel,
    by decide +kernel⟩

end Circuit.Spec.FactoryPower
