import CircuitAI.Spec.ThreatSnapshots

/-!
# What a path query reads of the threat map

A query keeps a pointer into the buffer that was current when it was created, and the second update after that writes
this buffer again. As long as the worker begins to write a buffer only when the queries of that buffer have ended, every
query reads the values its array had at first (`reads_snapshot`); nothing in the source sees to that, and a query that
waits for two updates reads what the second one has written (`read_overwritten`). `Inv`: the arrays of the queries that
have not ended are as they were, and the worker is in another buffer.
-/

set_option linter.unusedSectionVars false

namespace Circuit.Spec.ThreatSnapshots

open Framework Impl.ThreatMap List

variable {K : Type*} [Field K] [LinearOrder K] [FloorRing K] {env : Env K} {maxPathThreads : ℕ}
  {ok : State K → Event K → Prop} {s t : State K} {e : Event K} {es es' : List (Event K)} {q : Query}

/-! ## Invariant -/

theorem threatAt_congr (h : t.threatData.get q.slot = s.threatData.get q.slot) : t.threatAt q = s.threatAt q := by
  funext index
  simp only [State.threatAt, h]

structure Inv (es : List (Event K)) (s : State K) : Prop where
  arrays : s.arrays = s.threatData.cur
  ids : ∀ q ∈ live s, q.id < s.queryId
  draws : ∀ rest, s.worker = .writing rest → s.drawArrays = s.threatData.next
  apart : ∀ rest, s.worker = .writing rest → ∀ q ∈ live s, q.slot ≠ s.drawArrays
  kept : ∀ q ∈ live s, snapshot q.id es = some (s.threatAt q)

namespace Inv

theorem new : Inv (K := K) [] .new where
  arrays := rfl
  ids := by simp [live, State.new]
  draws := by simp [State.new]
  apart := by simp [State.new]
  kept := by simp [live, State.new]

theorem shrink (h : Inv es s) (hlive : ∀ q ∈ live t, q ∈ live s) (hdata : t.threatData = s.threatData)
    (harrays : t.arrays = s.arrays) (hdraw : t.drawArrays = s.drawArrays) (hid : t.queryId = s.queryId)
    (hworker : ∀ rest, t.worker = .writing rest → s.worker = .writing rest)
    (hsnap : ∀ id, snapshot id es' = snapshot id es) : Inv es' t where
  arrays := by rw [harrays, hdata, h.arrays]
  ids q hq := by
    rw [hid]
    exact h.ids q (hlive q hq)
  draws rest hw := by rw [hdraw, hdata, h.draws rest (hworker rest hw)]
  apart rest hw q hq := by
    rw [hdraw]
    exact h.apart rest (hworker rest hw) q (hlive q hq)
  kept q hq := by
    rw [hsnap, h.kept q (hlive q hq), threatAt_congr (s := s) (t := t) (by rw [hdata])]

theorem startUpdate (h : Inv es s) {writes : List (Write K)} (hok : ∀ q ∈ live s, q.slot ≠ s.threatData.next) :
    Inv (.start s.threatData.next :: es) (s.startUpdate writes) where
  arrays := h.arrays
  ids := h.ids
  draws _ _ := rfl
  apart _ _ := hok
  kept := h.kept

theorem write (h : Inv es s) {w : Write K} {rest : List (Write K)} (hw : s.worker = .writing (w :: rest)) :
    Inv (.write s.drawArrays :: es) (s.write w rest) where
  arrays := by simpa [State.write] using h.arrays
  ids := h.ids
  draws _ _ := by simpa [State.write] using h.draws _ hw
  apart _ _ := h.apart _ hw
  kept q hq := by
    have hne := h.apart _ hw q hq
    rw [threatAt_congr (s := s) (Buffers.get_set_of_ne hne)]
    exact h.kept q hq

theorem apply (h : Inv es s) : Inv (.tau :: es) s.apply where
  arrays := rfl
  ids := h.ids
  draws _ hw := by simp [State.apply] at hw
  apart _ hw := by simp [State.apply] at hw
  kept q hq := by
    have hsame : s.apply.threatData.get q.slot = s.threatData.get q.slot := by cases q.slot <;> rfl
    rw [threatAt_congr hsame]
    exact h.kept q hq

theorem mem_live_createQuery {u : PathUnit K} : q ∈ live (s.createQuery u) ↔ q = s.query u ∨ q ∈ live s := by
  simp [live, State.createQuery]

theorem createQuery (h : Inv es s) {u : PathUnit K} :
    Inv (.create (s.query u) (s.threatAt (s.query u)) :: es) (s.createQuery u) where
  arrays := h.arrays
  ids q hq := by
    show q.id < s.queryId + 1
    rcases mem_live_createQuery.mp hq with rfl | hq
    · exact Nat.lt_succ_self _
    · have := h.ids q hq
      omega
  draws := h.draws
  apart rest hw q hq := by
    rcases mem_live_createQuery.mp hq with rfl | hq
    · show s.arrays ≠ s.drawArrays
      rw [h.arrays, h.draws rest hw]
      exact s.threatData.next_ne_cur.symm
    · exact h.apart rest hw q hq
  kept q hq := by
    rcases mem_live_createQuery.mp hq with rfl | hq
    · exact if_pos rfl
    · have hne : (s.query u).id ≠ q.id := (h.ids q hq).ne'
      rw [snapshot, if_neg hne]
      exact h.kept q hq

theorem step (h : Inv es s) (hok : Drained s e) (hst : Step env maxPathThreads s e t) : Inv (e :: es) t := by
  cases hst with
  | enqueueUpdate hw hu | finishUpdate hw => exact h.shrink (fun _ hq => hq) rfl rfl rfl rfl nofun (fun _ => rfl)
  | startUpdate hw => exact h.startUpdate (hok _ rfl)
  | write hw => exact h.write hw
  | apply hw => exact h.apply
  | createQuery => exact h.createQuery
  | @runQuery q hq =>
    refine h.shrink (fun p hp => ?_) rfl rfl rfl rfl (fun _ hw => hw) (fun _ => rfl)
    simp only [live, mem_append, mem_singleton] at hp ⊢
    rcases hp with (hp | hp | rfl) | hp
    · exact .inl (.inl (mem_of_mem_erase hp))
    · exact .inl (.inr hp)
    · exact .inl (.inl hq)
    · exact .inr hp
  | @dropCreated q hq =>
    refine h.shrink (fun p hp => ?_) rfl rfl rfl rfl (fun _ hw => hw) (fun _ => rfl)
    simp only [live, mem_append] at hp ⊢
    exact hp.imp_left (Or.imp_left mem_of_mem_erase)
  | @pop q rest hq hm | @dropPopped q rest hq =>
    refine h.shrink (fun p hp => ?_) rfl rfl rfl rfl (fun _ hw => hw) (fun _ => rfl)
    simp only [live, hq, mem_append, mem_cons] at hp ⊢
    tauto
  | read hq | cost hq => exact h.shrink (fun _ hq => hq) rfl rfl rfl rfl (fun _ hw => hw) (fun _ => rfl)
  | @finishQuery q hq =>
    refine h.shrink (fun p hp => ?_) rfl rfl rfl rfl (fun _ hw => hw) (fun _ => rfl)
    simp only [live, mem_append] at hp ⊢
    exact hp.imp_right mem_of_mem_erase

end Inv

theorem Run.inv (h : Run env maxPathThreads Drained es s) : Inv es s := by
  induction h with
  | new => exact .new
  | step _ hok hst ih => exact ih.step hok hst

/-! ## Reads -/

theorem mem_live_of_running (h : q ∈ s.running) : q ∈ live s := mem_append_right _ h

/-- In every run in which the worker begins to write a buffer only when the queries of that buffer have ended, each
step of a query reads its snapshot, and no step of the worker writes a buffer of a query that has not ended. -/
theorem reads_snapshot (h : Run env maxPathThreads Drained es s) (hst : Step env maxPathThreads s e t) :
    Isolated s es e := by
  have hinv := h.inv
  refine ⟨?_, ?_, ?_⟩
  · rintro q index v rfl
    cases hst with
    | read hq => exact ⟨_, hinv.kept q (mem_live_of_running hq), rfl⟩
  · rintro q index v rfl
    cases hst with
    | cost hq => exact ⟨_, hinv.kept q (mem_live_of_running hq), rfl⟩
  · rintro slot rfl
    cases hst with
    | write hw => exact hinv.apart _ hw

/-! ## Short runs -/

def writeAll : State K → List (Write K) → State K
  | s, [] => s
  | s, w :: ws => writeAll (s.write w ws) ws

theorem writeAll_running (s : State K) (ws : List (Write K)) : (writeAll s ws).running = s.running := by
  induction ws generalizing s with
  | nil => rfl
  | cons w ws ih => exact ih (s.write w ws)

theorem Run.writeAll {ws : List (Write K)} (h : Run env maxPathThreads (fun _ _ => True) es s)
    (hw : s.worker = .writing ws) :
    ∃ es', Run env maxPathThreads (fun _ _ => True) es' (writeAll s ws) ∧ (writeAll s ws).worker = .writing [] ∧
      ∀ id, snapshot id es' = snapshot id es := by
  induction ws generalizing es s with
  | nil => exact ⟨es, h, hw, fun _ => rfl⟩
  | cons w ws ih =>
    obtain ⟨es', hrun, hdone, hsnap⟩ := ih (h.step trivial (.write hw)) rfl
    exact ⟨es', hrun, hdone, hsnap⟩

def updated (env : Env K) (s : State K) (sector : ℤ → Sector K) (hostileDatas : List (EnemyData K)) : State K :=
  let writes := env.update sector hostileDatas []
  writeAll ((s.enqueueUpdate sector hostileDatas []).startUpdate writes) writes

theorem Run.updated (h : Run env maxPathThreads (fun _ _ => True) es s) (hw : s.worker = .idle)
    (hu : s.isUpdating = false) (sector : ℤ → Sector K) (hostileDatas : List (EnemyData K)) :
    ∃ es', Run env maxPathThreads (fun _ _ => True) es' (updated env s sector hostileDatas) ∧
      (updated env s sector hostileDatas).worker = .writing [] ∧ ∀ id, snapshot id es' = snapshot id es := by
  have henqueue : Run env maxPathThreads (fun _ _ => True) (.tau :: es) (s.enqueueUpdate sector hostileDatas []) :=
    h.step trivial (.enqueueUpdate hw hu)
  obtain ⟨es', hrun, hdone, hsnap⟩ := (henqueue.step trivial (.startUpdate rfl)).writeAll rfl
  exact ⟨es', hrun, hdone, hsnap⟩

def applied (s : State K) : State K := { s with worker := .finished }.apply

def updatedTwice (env : Env K) (s : State K) (sector : ℤ → Sector K) (hostileDatas : List (EnemyData K)) : State K :=
  updated env (applied (updated env s sector hostileDatas)) sector hostileDatas

theorem Run.updatedTwice (h : Run env maxPathThreads (fun _ _ => True) es s) (hw : s.worker = .idle)
    (hu : s.isUpdating = false) (sector : ℤ → Sector K) (hostileDatas : List (EnemyData K)) :
    ∃ es', Run env maxPathThreads (fun _ _ => True) es' (updatedTwice env s sector hostileDatas) ∧
      (updatedTwice env s sector hostileDatas).running = s.running ∧ ∀ id, snapshot id es' = snapshot id es := by
  obtain ⟨es₁, h₁, hw₁, hs₁⟩ := h.updated hw hu sector hostileDatas
  have happlied : Run env maxPathThreads (fun _ _ => True) (.tau :: .tau :: es₁)
      (applied (ThreatSnapshots.updated env s sector hostileDatas)) :=
    (h₁.step trivial (.finishUpdate hw₁)).step trivial (.apply rfl)
  obtain ⟨es₂, h₂, -, hs₂⟩ := happlied.updated rfl rfl sector hostileDatas
  exact ⟨es₂, h₂, (writeAll_running _ _).trans (writeAll_running _ _), fun id => (hs₂ id).trans (hs₁ id)⟩

def strip : Env ℚ := ⟨8, 3, 1, 0, 0, fun x => (⌊x⌋.toNat.sqrt : ℚ)⟩

def land : ℤ → Sector ℚ := fun _ => ⟨false, 0⟩

def turret : EnemyData ℚ :=
  ⟨some ⟨false, true, false, true, false⟩, 12, 4, 0, 0, 5, 0, fun r => if r = .land then 2 else 0⟩

def walker : PathUnit ℚ := ⟨0, false, false, false, false⟩

def walkerQuery : Query := ⟨0, .surf, .first, 2⟩

def walking : State ℚ :=
  { (State.new : State ℚ) with queryId := 1, running := [walkerQuery] }

def walkingEvents : List (Event ℚ) := [.tau, .tau, .create walkerQuery fun _ => 0]

theorem query_walker : (State.new : State ℚ).query walker = walkerQuery := by
  decide +kernel

theorem run_walking {P : State ℚ → Event ℚ → Prop} (htau : ∀ s, P s .tau)
    (hcreate : ∀ s q array, P s (.create q array)) : Run strip 1 P walkingEvents walking := by
  have h₁ : Run strip 1 P _ (State.new.createQuery walker) := Run.new.step (hcreate _ _ _) .createQuery
  rw [State.createQuery, query_walker] at h₁
  have h₂ := h₁.step (htau _) (.runQuery (q := walkerQuery) (mem_singleton_self _))
  exact h₂.step (htau _) (.pop rfl Nat.zero_lt_one)

theorem drained_of_ne {s : State ℚ} {e : Event ℚ} (h : ∀ slot, e ≠ .start slot) : Drained s e :=
  fun slot he => absurd he (h slot)

def drawing : State ℚ := (walking.enqueueUpdate land [turret] []).startUpdate (strip.update land [turret] [])

theorem run_drawing : Run strip 1 Drained (.start .second :: .tau :: walkingEvents) drawing := by
  have h : Run strip 1 Drained walkingEvents walking :=
    run_walking (fun _ => drained_of_ne nofun) (fun _ _ _ => drained_of_ne nofun)
  have henqueue : Run strip 1 Drained (.tau :: walkingEvents) (walking.enqueueUpdate land [turret] []) :=
    h.step (drained_of_ne nofun) (.enqueueUpdate rfl rfl)
  refine henqueue.step (fun slot he q hq => ?_) (.startUpdate rfl)
  cases he
  cases mem_singleton.mp hq
  exact nofun

theorem reads_snapshot_walking : ∃ (es : List (Event ℚ)) (s : State ℚ) (v : ℚ),
    Run strip 1 Drained es s ∧ Step strip 1 s (.read walkerQuery 1 v) s ∧ .start .second ∈ es ∧
      Isolated s es (.read walkerQuery 1 v) := by
  have hread : Step strip 1 drawing (.read walkerQuery 1 (drawing.threatAt walkerQuery 1)) drawing :=
    .read (mem_singleton_self _)
  exact ⟨_, _, _, run_drawing, hread, mem_cons_self, reads_snapshot run_drawing hread⟩

theorem threatAt_updatedTwice : (updatedTwice strip walking land [turret]).threatAt walkerQuery 1 = 5 := by
  decide +kernel

/-- A query that is created before two updates and runs through both reads what the second one has written. -/
theorem read_overwritten : ∃ (es : List (Event ℚ)) (s : State ℚ) (array : ℤ → ℚ) (v : ℚ),
    Run strip 1 (fun _ _ => True) es s ∧ Step strip 1 s (.read walkerQuery 1 v) s ∧
      snapshot walkerQuery.id es = some array ∧ v ≠ array 1 := by
  have h : Run strip 1 (fun _ _ => True) walkingEvents walking := run_walking (fun _ => trivial) fun _ _ _ => trivial
  obtain ⟨es, hrun, hrunning, hsnap⟩ := h.updatedTwice rfl rfl land [turret]
  have hmem : walkerQuery ∈ (updatedTwice strip walking land [turret]).running := by
    rw [hrunning]
    exact mem_singleton_self _
  have hread : Step strip 1 _ (.read walkerQuery 1 _) _ := .read hmem
  rw [threatAt_updatedTwice] at hread
  exact ⟨es, _, fun _ => 0, 5, hrun, hread, hsnap _, by decide⟩

end Circuit.Spec.ThreatSnapshots
