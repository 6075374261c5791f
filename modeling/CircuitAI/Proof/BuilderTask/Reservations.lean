import CircuitAI.Spec.Reservations

/-!
# A builder task releases what it reserves

A task holds the blocker of its `buildPos` as long as that is valid, with its present definition and facing (`Held`).
`SetBuildPos`, `SetTarget` and `Cancel` keep this. A search for a site turns the facing first and deletes the old blocker
then, so that it keeps this only when the facing comes out as it was (`Held.findBuildSite`), and `OnUnitIdle` adds a
blocker after the task has been cancelled. Apart from these two the calls are paired (`reservations_paired`).
-/

set_option linter.unusedSectionVars false

namespace Circuit.Spec.Reservations

open Impl.BuilderTask List
open Impl.TerrainManager (AIFloat3 noPos isValid)

variable {δ : Type*} [DecidableEq δ] {t : IBuilderTask δ} {o : Outcome} {pos : AIFloat3}

/-! ## The blocker that is held -/

def held (t : IBuilderTask δ) : List (Blocker δ) := if isValid t.buildPos then [t.blocker] else []

structure Held (t : IBuilderTask δ) : Prop where
  valid : ∀ b, Call.addBlocker b ∈ t.calls → isValid b.pos = true
  unmatched_eq : unmatched t.calls = some (held t)

theorem Held.paired (h : Held t) : Paired t := ⟨h.valid, _, h.unmatched_eq⟩

theorem held_of_invalid (h : isValid t.buildPos = false) : held t = [] := by
  simp [held, h]

namespace Held

theorem new (kind : Kind) (buildDef : δ) : Held (IBuilderTask.new kind buildDef) :=
  ⟨nofun, rfl⟩

theorem congr {u : IBuilderTask δ} (h : Held t) (hcalls : u.calls = t.calls) (hheld : held u = held t) : Held u := by
  refine ⟨?_, ?_⟩
  · rw [hcalls]
    exact h.valid
  · rw [hcalls, hheld]
    exact h.unmatched_eq

theorem withFacing (h : Held t) {facing : ℤ} (hf : isValid t.buildPos = true → facing = t.facing) :
    Held { t with facing } := by
  refine h.congr rfl ?_
  by_cases hv : isValid t.buildPos = true
  · rw [hf hv]
  · simp [held, hv]

theorem unmatched_unblock (h : Held t) : unmatched t.unblock.calls = some [] := by
  by_cases hv : isValid t.buildPos = true
  · simp [IBuilderTask.unblock, IBuilderTask.delBlocker, unmatched, h.unmatched_eq, held, hv]
  · simp [IBuilderTask.unblock, h.unmatched_eq, held, hv]

theorem valid_unblock (h : Held t) {b : Blocker δ} (hb : Call.addBlocker b ∈ t.unblock.calls) :
    isValid b.pos = true := by
  unfold IBuilderTask.unblock at hb
  split at hb
  · exact h.valid b (by simpa [IBuilderTask.delBlocker] using hb)
  · exact h.valid b hb

theorem block (hvalid : ∀ b, Call.addBlocker b ∈ t.calls → isValid b.pos = true)
    (hempty : unmatched t.calls = some []) : Held t.block := by
  unfold IBuilderTask.block
  split
  · rename_i hv
    refine ⟨fun b hb => ?_, ?_⟩
    · rcases mem_cons.mp hb with heq | hb
      · cases heq
        exact hv
      · exact hvalid b hb
    · simp [IBuilderTask.addBlocker, unmatched, hempty, held, IBuilderTask.blocker, hv]
  · rename_i hv
    exact ⟨hvalid, by simpa [held, hv] using hempty⟩

theorem setBuildPos (h : Held t) : Held (t.setBuildPos pos) :=
  block (fun _ hb => h.valid_unblock hb) h.unmatched_unblock

theorem setTarget (h : Held t) (unit : Option (Target δ)) : Held (t.setTarget unit) := by
  cases unit with
  | none | some u => exact block (fun _ hb => h.valid_unblock hb) h.unmatched_unblock

theorem cancel (h : Held t) : Held t.cancel := by
  unfold IBuilderTask.cancel
  split
  · exact h.setBuildPos
  · exact h

theorem stop (h : Held t) (done : Bool) : Held (t.stop done) := by
  cases done
  · exact h.cancel
  · exact h

end Held

/-! ## Searches -/

@[simp]
theorem facing_block : t.block.facing = t.facing := by
  unfold IBuilderTask.block
  split <;> rfl

@[simp]
theorem facing_unblock : t.unblock.facing = t.facing := by
  unfold IBuilderTask.unblock
  split <;> rfl

@[simp]
theorem facing_setBuildPos : (t.setBuildPos pos).facing = t.facing := by
  simp [IBuilderTask.setBuildPos]

def Searched (t u : IBuilderTask δ) : Prop :=
  u = { t with facing := u.facing } ∨ ∃ bp, u = IBuilderTask.setBuildPos { t with facing := u.facing } bp

theorem searched_setBuildPos (t : IBuilderTask δ) (facing : ℤ) (bp : AIFloat3) :
    Searched t (IBuilderTask.setBuildPos { t with facing } bp) :=
  .inr ⟨bp, by simp⟩

theorem searched_tryFacings (turns : List (ℤ → ℤ)) (t : IBuilderTask δ) : Searched t (t.tryFacings o turns) := by
  induction turns generalizing t with
  | nil => exact .inl rfl
  | cons turn turns ih =>
    simp only [IBuilderTask.tryFacings, IBuilderTask.checkFacing]
    split
    · exact ih { t with facing := turn t.facing }
    · split
      · exact searched_setBuildPos t _ _
      · exact ih { t with facing := turn t.facing }

theorem searched_findBuildSite (t : IBuilderTask δ) : Searched t (t.findBuildSite o) := by
  unfold IBuilderTask.findBuildSite
  split
  · exact searched_setBuildPos t _ _
  · exact searched_tryFacings _ t

theorem Held.searched {u : IBuilderTask δ} (h : Held t) (hs : Searched t u)
    (hf : isValid t.buildPos = true → u.facing = t.facing) : Held u := by
  rcases hs with hu | ⟨bp, hu⟩
  · rw [hu]
    exact h.withFacing hf
  · rw [hu]
    exact (h.withFacing hf).setBuildPos

theorem Held.findBuildSite (h : Held t)
    (hf : isValid t.buildPos = true → (t.findBuildSite o).facing = t.facing) : Held (t.findBuildSite o) :=
  h.searched (searched_findBuildSite t) hf

theorem facing_tryFacings (turn : ℤ → ℤ) (turns : List (ℤ → ℤ)) : (t.tryFacings o (turn :: turns)).facing =
    bif passes o (turn t.facing) then turn t.facing
    else (IBuilderTask.tryFacings o { t with facing := turn t.facing } turns).facing := by
  rw [IBuilderTask.tryFacings, IBuilderTask.checkFacing, passes]
  cases isValid (o.findBuildSite (turn t.facing))
  · rfl
  · cases o.isPossibleToBuildAt (posOffset (o.findBuildSite (turn t.facing)) (turn t.facing)) (turn t.facing)
    · rfl
    · exact facing_setBuildPos

theorem facing_findBuildSite : (t.findBuildSite o).facing = facingFor o t.kind := by
  unfold IBuilderTask.findBuildSite
  cases t.kind with
  | builder => exact facing_setBuildPos
  | factory =>
    simp only [facing_tryFacings, facingFor, side, find?_cons]
    cases passes o o.facing
    · cases passes o (opposite o.facing)
      · cases passes o ((opposite o.facing + 1).tmod 4)
        · cases passes o (opposite ((opposite o.facing + 1).tmod 4)) <;> rfl
        · rfl
      · rfl
    · rfl

theorem Held.execute (h : Held t) (hf : KeepsFacing t o) : Held (t.execute o) := by
  unfold IBuilderTask.execute
  split
  · exact h
  rename_i htarget
  split
  · exact h
  rename_i hpossible
  split
  · exact h
  rename_i hally
  have hfacing : isValid t.buildPos = true → (t.findBuildSite o).facing = t.facing := by
    intro hv
    rw [facing_findBuildSite]
    exact hf (by simpa using htarget) hv (by simpa [hv] using hpossible) (by simpa using hally)
  have hfound := h.findBuildSite hfacing
  dsimp only
  split
  · exact hfound
  · exact hfound.stop false

theorem Held.onUnitIdle (h : Held t) (hok : Steady t (.onUnitIdle o)) : Held (t.onUnitIdle o) := by
  have hidle : Held { t with buildFails := t.buildFails + 1 } := h.congr rfl rfl
  unfold IBuilderTask.onUnitIdle
  dsimp only
  split
  · rename_i hfew
    exact hidle.execute (hok.1 hfew)
  · split
    · exact hidle
    · rename_i hmany
      split
      · rename_i hnone
        exact absurd (hok.2 (Option.isNone_iff_eq_none.mp hnone)) hmany
      · exact hidle

theorem Held.op {op : Op δ} (h : Held t) (hok : Steady t op) : Held (op.run t) := by
  cases op with
  | execute o => exact h.execute hok
  | onUnitIdle o => exact h.onUnitIdle hok
  | setTarget unit => exact h.setTarget unit
  | setBuildPos pos => exact h.setBuildPos
  | stop done => exact h.stop done
  | cancel => exact h.cancel

/-! ## Runs -/

variable {kind : Kind} {buildDef : δ}

theorem Run.held (h : Run kind buildDef Steady t) : Held t := by
  induction h with
  | new => exact .new kind buildDef
  | step _ hok ih => exact ih.op hok

theorem held_cancel (h : t.target = none) : held t.cancel = [] := by
  unfold IBuilderTask.cancel
  split
  · rfl
  · rename_i hv
    exact held_of_invalid (by simpa [h] using hv)

/-- After any operations in which a reserved site is not searched for again with another facing and no unit gives up,
the calls are paired, and once a task without a target is cancelled no blocker of it is left. -/
theorem reservations_paired (h : Run kind buildDef Steady t) :
    Paired t ∧ (t.target = none → unmatched t.cancel.calls = some []) := by
  refine ⟨h.held.paired, fun htarget => ?_⟩
  rw [h.held.cancel.unmatched_eq, held_cancel htarget]

/-! ## Short runs -/

def found (pos : AIFloat3) : Outcome := ⟨100, 100, pos, false, fun _ _ => false, fun _ => pos⟩

def westward : AIFloat3 := ⟨10, 0, 50⟩

def northward : AIFloat3 := ⟨50, 0, 10⟩

theorem reservations_paired_twice : ∃ t : IBuilderTask Unit, Run .builder () Steady t ∧ t.target = none ∧
    t.calls.length = 3 ∧ Paired t ∧ unmatched t.cancel.calls = some [] := by
  have h₁ : Run .builder () Steady (Op.run (.new .builder ()) (.execute (found westward))) :=
    Run.new.step fun _ hv => absurd hv (by decide)
  have h₂ : Run .builder () Steady (Op.run (Op.run (.new .builder ()) (.execute (found westward)))
      (.execute (found westward))) := h₁.step fun _ _ _ _ => by decide +kernel
  obtain ⟨hpaired, hcancel⟩ := reservations_paired h₂
  exact ⟨_, h₂, by decide +kernel, by decide +kernel, hpaired, hcancel (by decide +kernel)⟩

def runAll (t : IBuilderTask Unit) (ops : List (Op Unit)) : IBuilderTask Unit := ops.foldl Op.run t

theorem run_runAll (kind : Kind) (ops : List (Op Unit)) {t : IBuilderTask Unit}
    (h : Run kind () (fun _ _ => True) t) : Run kind () (fun _ _ => True) (runAll t ops) := by
  induction ops generalizing t with
  | nil => exact h
  | cons op ops ih => exact ih (h.step trivial)

/-- A second search deletes a blocker of another facing, and a unit that is idle for the eleventh time leaves a blocker
at no valid position. -/
theorem reservations_unpaired :
    (∃ t : IBuilderTask Unit, Run .builder () (fun _ _ => True) t ∧ unmatched t.calls = none) ∧
      ∃ (t : IBuilderTask Unit) (b : Blocker Unit), Run .builder () (fun _ _ => True) t ∧
        Call.addBlocker b ∈ t.calls ∧ isValid b.pos = false := by
  refine ⟨⟨_, run_runAll .builder [.execute (found westward), .execute (found northward)] .new, ?_⟩,
    ⟨_, ⟨(), noPos, east⟩,
      run_runAll .builder (.execute (found westward) :: replicate 11 (.onUnitIdle (found westward))) .new, ?_, rfl⟩⟩
  · decide +kernel
  · decide +kernel

end Circuit.Spec.Reservations
