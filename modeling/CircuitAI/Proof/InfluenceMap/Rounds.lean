import CircuitAI.Spec.InfluenceRounds

/-!
# The buffers of the influence map

`GetNextInflData` takes any value of `pInflData` but the address of `inflData0` for that of `inflData1`. The first update
therefore draws into `inflData0`, which the getters read, unless the memory of `pInflData` held that address by chance
(`first_update_shared`); from the first `Apply` on the two buffers alternate (`rounds_buffered`). What the writes leave in
a cell does not depend on what was in the buffer (`agree_foldl`, `foldl_prepare`).
-/

set_option linter.unusedSectionVars false

namespace Circuit.Spec.InfluenceRounds

open Framework Impl.InfluenceMap Function State List

variable {K : Type*} [Field K] [LinearOrder K] [FloorRing K] {env : Env K} {memory : Option Slot} {s t : State K}
  {e : Event K} {es : List (Event K)}

/-! ## Cells -/

variable {i : ℤ}

theorem agree_run {d d' : InfluenceData K} (h : ∀ l, d l i = d' l i) (w : Write K) (l : Layer) :
    w.run d l i = w.run d' l i := by
  cases w with
  | fill layer index =>
    simp only [Write.run, setCell_apply, h]
  | add layer index infl =>
    simp only [Write.run, setCell_apply]
    split_ifs with hc
    · rw [← hc.2, h]
    · exact h l
  | sub index =>
    simp only [Write.run, setCell_apply]
    split_ifs with hc
    · rw [← hc.2, h, h]
    · exact h l

theorem agree_foldl {d d' : InfluenceData K} (h : ∀ l, d l i = d' l i) (ws : List (Write K)) (l : Layer) :
    ws.foldl Write.run d l i = ws.foldl Write.run d' l i := by
  induction ws generalizing d d' l with
  | nil => exact h l
  | cons w ws ih => exact ih (agree_run h w) l

theorem foldl_prepare (hi : 0 ≤ i ∧ i < env.width * env.height) (d : InfluenceData K) (l : Layer) :
    env.prepare.foldl Write.run d l i = inflBase :=
  foldl_fills (fun _ => inflBase) (fun _ _ _ => rfl) (by cases l <;> simp [Layer.all])
    (Int.mem_range_iff.mpr hi) d

theorem foldl_round (hi : 0 ≤ i ∧ i < env.width * env.height) (d : InfluenceData K)
    (hostileDatas : List (EnemyData K)) (units : List (AllyUnit K)) (l : Layer) :
    (env.applyAllies units).foldl Write.run ((env.update hostileDatas).foldl Write.run d) l i =
      computed env hostileDatas units l i := by
  rw [computed, foldl_append]
  refine agree_foldl (fun l => ?_) _ l
  rw [Env.update, foldl_append, foldl_append]
  refine agree_foldl (fun l => ?_) _ l
  rw [foldl_prepare hi, foldl_prepare hi]

theorem foldl_draw (ws : List (Write K)) (s : State K) : ws.foldl draw s =
      { s with inflData := update s.inflData s.drawArrays (ws.foldl Write.run (s.inflData s.drawArrays)) } := by
  induction ws generalizing s with
  | nil => simp
  | cons w ws ih =>
    rw [foldl_cons, ih]
    simp [draw]

/-! ## Invariant -/

def Drawn (env : Env K) (s : State K) (hostileDatas : List (EnemyData K)) (rest : List (Write K)) : Prop :=
  ∃ d, rest.foldl Write.run (s.inflData s.drawArrays) = (env.update hostileDatas).foldl Write.run d

structure Inv (env : Env K) (memory : Option Slot) (es : List (Event K)) (s : State K) : Prop where
  pointer : s.pInflData = some s.arrays ∨ (∀ units, .apply units ∉ es) ∧ s.pInflData = memory ∧ s.arrays = .first
  draws : (∃ rest, s.worker = .writing rest) ∨ s.worker = .finished → s.drawArrays = s.getNextInflData
  writing : ∀ rest, s.worker = .writing rest →
    ∃ hostileDatas, lastUpdate es = some hostileDatas ∧ Drawn env s hostileDatas rest
  finished : s.worker = .finished → ∃ hostileDatas, lastUpdate es = some hostileDatas ∧ Drawn env s hostileDatas []

namespace Inv

theorem new : Inv env memory [] (.new memory) where
  pointer := .inr ⟨by simp, rfl, rfl⟩
  draws h := by
    rcases h with ⟨rest, h⟩ | h <;> cases h
  writing rest h := by cases h
  finished h := by cases h

theorem pointer_keep (h : Inv env memory es s) (he : ∀ units, e ≠ .apply units) (hp : t.pInflData = s.pInflData)
    (ha : t.arrays = s.arrays) : t.pInflData = some t.arrays ∨
      (∀ units, .apply units ∉ e :: es) ∧ t.pInflData = memory ∧ t.arrays = .first := by
  rw [hp, ha]
  refine h.pointer.imp id fun ⟨hnone, hm⟩ => ⟨fun units hmem => ?_, hm⟩
  rcases mem_cons.mp hmem with rfl | hmem
  · exact he units rfl
  · exact hnone units hmem

theorem step (h : Inv env memory es s) (hst : Step env s e t) : Inv env memory (e :: es) t := by
  cases hst with
  | enqueueUpdate hw hu =>
    refine ⟨h.pointer_keep (by simp) rfl rfl, fun hw' => ?_, fun rest hw' => ?_, fun hw' => ?_⟩
    · rcases hw' with ⟨rest, hw'⟩ | hw' <;> cases hw'
    · cases hw'
    · cases hw'
  | @startUpdate hostileDatas hw =>
    refine ⟨h.pointer_keep (by simp) rfl rfl, fun _ => rfl, fun rest hw' => ?_, fun hw' => ?_⟩
    · cases hw'
      exact ⟨hostileDatas, rfl, _, rfl⟩
    · cases hw'
  | @write w rest hw =>
    refine ⟨h.pointer_keep (by simp) rfl rfl, fun _ => h.draws (.inl ⟨_, hw⟩), fun rest' hw' => ?_,
      fun hw' => ?_⟩
    · cases hw'
      obtain ⟨hostileDatas, hlast, d, hd⟩ := h.writing _ hw
      refine ⟨hostileDatas, hlast, d, ?_⟩
      rw [← hd]
      simp [write, draw]
    · cases hw'
  | finishUpdate hw =>
    refine ⟨h.pointer_keep (by simp) rfl rfl, fun _ => h.draws (.inl ⟨_, hw⟩), fun rest' hw' => ?_,
      fun _ => h.writing _ hw⟩
    cases hw'
  | apply hw =>
    refine ⟨.inl rfl, fun hw' => ?_, fun rest' hw' => ?_, fun hw' => ?_⟩
    · rcases hw' with ⟨rest, hw'⟩ | hw' <;> cases hw'
    · cases hw'
    · cases hw'

end Inv

theorem Run.inv (h : Run env memory es s) : Inv env memory es s := by
  induction h with
  | new => exact .new
  | step _ hst ih => exact ih.step hst

/-! ## Rounds -/

theorem getNextInflData_ne (h : s.pInflData = some s.arrays) : s.getNextInflData ≠ s.arrays := by
  unfold getNextInflData
  rw [h]
  cases s.arrays <;> simp

theorem Inv.apart (h : Inv env memory es s) (hok : memory = some .first ∨ ∃ units, .apply units ∈ es) : Apart s := by
  have hp : s.pInflData = some s.arrays := by
    rcases h.pointer with hp | ⟨hnone, hm, ha⟩
    · exact hp
    · rcases hok with rfl | ⟨units, hmem⟩
      · rw [hm, ha]
      · exact absurd hmem (hnone units)
  refine ⟨getNextInflData_ne hp, fun rest hw => ?_⟩
  rw [h.draws (.inl ⟨rest, hw⟩)]
  exact getNextInflData_ne hp

theorem Inv.getInfl_apply (h : Inv env memory es s) {units : List (AllyUnit K)} (hw : s.worker = .finished) :
    ∃ hostileDatas, lastUpdate es = some hostileDatas ∧ ∀ l i, 0 ≤ i ∧ i < env.width * env.height →
      (s.apply env units).getInfl l i = computed env hostileDatas units l i - inflBase := by
  obtain ⟨hostileDatas, hlast, d, hd⟩ := h.finished hw
  refine ⟨hostileDatas, hlast, fun l i hi => ?_⟩
  have hdraw : s.getNextInflData = s.drawArrays := (h.draws (.inr hw)).symm
  have hcell : (s.apply env units).inflData (s.apply env units).arrays =
      (env.applyAllies units).foldl Write.run (s.inflData s.drawArrays) := by
    simp only [apply, foldl_draw, swapBuffers]
    change update s.inflData s.drawArrays _ s.getNextInflData = _
    rw [hdraw, update_self]
  rw [getInfl, hcell, ← foldl_round hi d]
  rw [foldl_nil] at hd
  rw [hd]

/-- In every run from the constructor: if the memory of `pInflData` held the address of `inflData0`, or an update was
applied before, the buffer that `Update` prepares and writes is not the one that the getters read; and after every
`Apply` the getters read the layers that the last `Update` computed. -/
theorem rounds_buffered (h : Run env memory es s) :
    (memory = some .first ∨ (∃ units, .apply units ∈ es) → Apart s) ∧ ∀ units t, Step env s (.apply units) t →
      ∃ hostileDatas, lastUpdate es = some hostileDatas ∧ ∀ l i, 0 ≤ i ∧ i < env.width * env.height →
        t.getInfl l i = computed env hostileDatas units l i - inflBase := by
  refine ⟨h.inv.apart, fun units t hst => ?_⟩
  cases hst with
  | apply hw => exact h.inv.getInfl_apply hw

theorem Run.finish (h : Run env memory es s) {ws : List (Write K)} (hw : s.worker = .writing ws) :
    ∃ es' t, Run env memory (es' ++ es) t ∧ t.worker = .finished ∧ lastUpdate (es' ++ es) = lastUpdate es := by
  induction ws generalizing es s with
  | nil => exact ⟨[.tau], _, h.step (.finishUpdate hw), rfl, rfl⟩
  | cons w ws ih =>
    obtain ⟨es', t, ht, hfinished, hlast⟩ := ih (h.step (.write hw)) rfl
    exact ⟨es' ++ [.tau], t, by simpa using ht, hfinished, by simpa [lastUpdate] using hlast⟩

theorem Run.update (h : Run env memory es s) (hw : s.worker = .idle) (hu : s.isUpdating = false)
    (hostileDatas : List (EnemyData K)) :
    ∃ es' t, Run env memory (es' ++ es) t ∧ t.worker = .finished ∧ lastUpdate (es' ++ es) = some hostileDatas := by
  obtain ⟨es', t, ht, hfinished, hlast⟩ := ((h.step (.enqueueUpdate hw hu)).step (.startUpdate rfl)).finish rfl
  exact ⟨es' ++ [.update hostileDatas, .tau], t, by simpa using ht, hfinished, by simpa [lastUpdate] using hlast⟩

def cell : Env ℚ := ⟨32, 1, 1, 5, id⟩

/-- A round without enemies and one with an enemy: at its end the buffers are apart, and `Apply` shows the enemy. -/
theorem rounds_buffered_second : ∃ es s t, Run cell none es s ∧ lastUpdate es = some [⟨some true, 0, 0, 7, 1⟩] ∧
    Apart s ∧ Step cell s (.apply []) t ∧ t.getInfl .enemyInfl 0 = 7 := by
  obtain ⟨es, s, hs, hw, -⟩ := Run.update (.new : Run cell none [] _) rfl rfl []
  obtain ⟨es', t, ht, hw', hlast⟩ :=
    (hs.step (.apply hw : Step cell s (.apply []) _)).update rfl rfl [⟨some true, 0, 0, 7, 1⟩]
  obtain ⟨hapart, hread⟩ := rounds_buffered ht
  obtain ⟨_, hlast', hcell⟩ := hread [] _ (.apply hw')
  cases hlast.symm.trans hlast'
  refine ⟨_, t, _, ht, hlast, hapart (.inr ⟨[], by simp⟩), .apply hw', ?_⟩
  rw [hcell .enemyInfl 0 (by decide)]
  decide +kernel

theorem first_update_next (h : memory ≠ some .first) : (State.new (K := K) memory).getNextInflData = .first :=
  if_neg h

/-- `Update` writes the buffer that the getters read. -/
theorem first_update_shared : ∃ s : State ℚ, Run cell none [.update [], .tau] s ∧ s.worker = .writing (cell.update []) ∧
    s.drawArrays = s.arrays ∧ ¬ Apart s :=
  ⟨_, .step (.step .new (.enqueueUpdate rfl rfl)) (.startUpdate rfl), rfl, rfl, fun h => h.next rfl⟩

end Circuit.Spec.InfluenceRounds
