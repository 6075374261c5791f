import CircuitAI.Spec.SpotReservations

/-!
# Which steps open and close a spot

`Effect` says what a step does to the shared flags and to the tasks: no spot but one opens, no spot but one closes, and
engaged tasks stay engaged. A spot is closed by an `Execute` that orders to build there (`Effect.execute`), and opened
by a `Cancel`, by an `Execute` that does not yield, or by the destruction of a mex. So a spot stays reserved if every
step is considerate (`spots_reserved`). Two AIs that have a task for one spot need not be (`spots_reopened`).
-/

set_option linter.unusedSectionVars false

namespace Circuit.Spec.SpotReservations

open Impl.MexTask Option

variable {A P S C : Type*} [DecidableEq A] [DecidableEq S] [DecidableEq C] {d : Metals A P S C} {s t r : State A P S C}
  {closer : S → Option ℕ} {k : ℕ} {task : CBMexTask A P} {i j : S} {o : Outcome S}

/-! ## The shared flags -/

variable {value : Bool}

@[simp] theorem isOpen_setShared :
    (s.setShared d i value).metalMgr.isOpen j = if j = i then value else s.metalMgr.isOpen j := by
  unfold State.setShared CMetalManager.setOpenSpot
  split <;> grind

@[simp] theorem metalMgr_setOwn {ai : A} : (s.setOwn ai i value).metalMgr = s.metalMgr := rfl

@[simp] theorem tasks_setShared : (s.setShared d i value).tasks = s.tasks := rfl

@[simp] theorem tasks_setOwn {ai : A} : (s.setOwn ai i value).tasks = s.tasks := rfl

structure Effect (s t : State A P S C) (opens closes : Option S) : Prop where
  opens : ∀ i, s.metalMgr.isOpen i = false → t.metalMgr.isOpen i = true → opens = some i
  closes : ∀ i, s.metalMgr.isOpen i = true → t.metalMgr.isOpen i = false → closes = some i
  engaged : ∀ k, Engaged s k → Engaged t k

theorem Effect.of_flags (hflags : t.metalMgr = s.metalMgr) (hengaged : ∀ k, Engaged s k → Engaged t k)
    (a b : Option S) : Effect s t a b := by
  refine ⟨fun i hs ht => ?_, fun i hs ht => ?_, hengaged⟩ <;> simp [hflags, hs] at ht

theorem Effect.refl (a b : Option S) : Effect s s a b :=
  .of_flags rfl (fun _ => id) a b

theorem Engaged.set {m : ℕ} {task' : CBMexTask A P} (htask : s.tasks[k]? = some task) (ht : t.tasks = s.tasks.set k task')
    (heng : task.isEngaged = true → task'.isEngaged = true) (h : Engaged s m) : Engaged t m := by
  obtain ⟨x, hx, hxe⟩ := h
  by_cases hm : k = m
  · subst hm
    obtain rfl : task = x := some.inj (htask.symm.trans hx)
    refine ⟨task', ?_, heng hxe⟩
    rw [ht, List.getElem?_set_self (List.getElem?_eq_some_iff.mp htask).1]
  · exact ⟨x, by rwa [ht, List.getElem?_set_ne hm], hxe⟩

theorem Engaged.append {m : ℕ} {x : CBMexTask A P} (ht : t.tasks = s.tasks ++ [x]) (h : Engaged s m) : Engaged t m := by
  obtain ⟨y, hy, hye⟩ := h
  exact ⟨y, by rwa [ht, List.getElem?_append_left (List.getElem?_eq_some_iff.mp hy).1], hye⟩

/-! ## Tasks -/

theorem Effect.cancel (htask : s.tasks[k]? = some task) (h : s.cancel d k task = some t) :
    Effect s t (site d task) none := by
  unfold State.cancel at h
  split at h
  · next htarget hpos =>
    obtain ⟨i, hi, rfl⟩ := map_eq_some_iff.mp h
    have hsite : site d task = some i := by simp [site, htarget, hpos, hi]
    refine ⟨fun j hj hjt => ?_, fun j hj hjt => ?_, fun m hm => hm.set htask rfl fun he => he⟩
    · by_cases heq : j = i
      · rw [hsite, heq]
      · simp [heq, hj] at hjt
    · simp only [metalMgr_setOwn, isOpen_setShared] at hjt
      split at hjt <;> simp_all
  · cases h
    exact .refl _ _

theorem Effect.expand (htask : s.tasks[k]? = some task) (hr : r.tasks = s.tasks)
    (hopens : ∀ j, s.metalMgr.isOpen j = false → r.metalMgr.isOpen j = true → site d task = some j)
    (hcloses : ∀ j, s.metalMgr.isOpen j = true → r.metalMgr.isOpen j = true) (h : r.expand d k task o = some t) :
    Effect s t (site d task) none := by
  have hkeep : Effect s r (site d task) none := by
    refine ⟨hopens, fun j hj hjr => ?_, fun m ⟨x, hx, he⟩ => ⟨x, by rwa [hr], he⟩⟩
    rw [hcloses j hj] at hjr
    cases hjr
  have hrtask : r.tasks[k]? = some task := by
    rw [hr]
    exact htask
  unfold State.expand State.stop at h
  split at h
  · cases h
    exact ⟨hkeep.opens, hkeep.closes, fun m hm => (hkeep.engaged m hm).set hrtask rfl (fun he => he)⟩
  · split at h
    · have hcancel := Effect.cancel hrtask h
      refine ⟨fun j hj hjt => ?_, fun j hj hjt => hcancel.closes j (hcloses j hj) hjt,
        fun m hm => hcancel.engaged m (hkeep.engaged m hm)⟩
      · cases hjr : r.metalMgr.isOpen j with
        | false => exact hcancel.opens j hjr hjt
        | true => exact hopens j hj hjr
    · cases h
      exact hkeep

theorem Effect.execute (htask : s.tasks[k]? = some task) (h : s.execute d k task o = some t) :
    Effect s t (site d task) (site d task) ∧
      ((∃ i, s.metalMgr.isOpen i = true ∧ t.metalMgr.isOpen i = false) → Engaged t k) := by
  have hweak : Effect s t (site d task) none → Effect s t (site d task) (site d task) ∧
      ((∃ i, s.metalMgr.isOpen i = true ∧ t.metalMgr.isOpen i = false) → Engaged t k) := fun he =>
    ⟨⟨he.opens, fun j hj hjt => (nomatch he.closes j hj hjt), he.engaged⟩,
      fun ⟨j, hj, hjt⟩ => nomatch he.closes j hj hjt⟩
  unfold State.execute at h
  split at h
  · cases h
    exact hweak (.refl _ _)
  · next htarget =>
    have hsite : site d task = task.buildPos.bind d.findNearestSpot := if_neg htarget
    split at h
    · exact hweak (.expand htask rfl (fun j hj hjt => by simp [hj] at hjt) (fun j hj => hj) h)
    · next i hi =>
      rw [hi] at hsite
      split at h
      · split at h
        · -- the build is ordered
          cases h
          refine ⟨⟨fun j hj hjt => ?_, fun j hj hjt => ?_, fun m hm => hm.set htask rfl fun _ => rfl⟩,
            fun _ => ⟨{ task with isEngaged := true }, ?_, rfl⟩⟩
          · simp only [isOpen_setShared] at hjt
            split at hjt <;> simp_all
          · by_cases heq : j = i
            · rw [hsite, heq]
            · simp [heq, hj] at hjt
          · exact List.getElem?_set_self (List.getElem?_eq_some_iff.mp htask).1
        · exact hweak (.expand (r := s.setOwn task.ai i true) htask rfl (fun j hj hjt => by simp [hj] at hjt)
            (fun j hj => hj) h)
      · refine hweak (.expand (r := (s.setShared d i true).setOwn task.ai i true) htask rfl
          (fun j hj hjt => ?_) (fun j hj => ?_) h)
        · by_cases heq : j = i
          · rw [hsite, heq]
          · simp [heq, hj] at hjt
        · simp only [metalMgr_setOwn, isOpen_setShared]
          split <;> simp_all

theorem execute_of_yields (hsite : site d task = some i) (hclosed : s.metalMgr.isOpen i = false)
    (hyields : Yields d s task o) (h : s.execute d k task o = some t) : t.metalMgr.isOpen i = false := by
  have htarget : task.hasTarget = false := by
    unfold site at hsite
    split at hsite <;> simp_all
  have hspot : task.buildPos.bind d.findNearestSpot = some i := by simpa [site, htarget] using hsite
  obtain ⟨hpossible, hyields⟩ := hyields
  unfold State.execute at h
  simp only [htarget, hspot, hpossible, Bool.false_eq_true, if_false, if_true, hclosed, Bool.or_false] at h
  split at h
  · cases h
    simp
  · next heng =>
    unfold State.expand at h
    split at h
    · cases h
      simpa using hclosed
    · next hnone =>
      have hassigned : o.isAssigned = false := by
        rcases hyields with hyes | hno | ⟨i', hi', hsome⟩
        · exact absurd hyes heng
        · exact hno
        · obtain rfl : i = i' := mem_unique hsite hi'
          simp [hnone] at hsome
      rw [hassigned] at h
      cases h
      simpa using hclosed

/-! ## Steps -/

def opened (d : Metals A P S C) (s : State A P S C) : Event A P S → Option S
  | .execute k _ => s.tasks[k]?.bind (site d)
  | .stop k _ => s.tasks[k]?.bind (site d)
  | .mexDestroyed _ pos => d.findNearestSpot pos
  | _ => none

def closed (d : Metals A P S C) (s : State A P S C) : Event A P S → Option S
  | .execute k _ => s.tasks[k]?.bind (site d)
  | _ => none

theorem Effect.handle {e : Event A P S} (h : e.handle d s = some t) : Effect s t (opened d s e) (closed d s e) ∧
    ((∃ i, s.metalMgr.isOpen i = true ∧ t.metalMgr.isOpen i = false) → ∃ k, taskOf e = some k ∧ Engaged t k) := by
  -- all steps but `Execute` close nothing
  have hnone : ∀ {a}, Effect s t a none → closed d s e = none → Effect s t a (closed d s e) ∧
      ((∃ i, s.metalMgr.isOpen i = true ∧ t.metalMgr.isOpen i = false) →
        ∃ k, taskOf e = some k ∧ Engaged t k) := fun he hc =>
    ⟨hc ▸ he, fun ⟨j, hj, hjt⟩ => nomatch he.closes j hj hjt⟩
  have henqueue : ∀ ai pos index, Effect s (s.enqueue ai pos index) none none := fun ai pos index =>
    .of_flags (s := s) (t := s.enqueue ai pos index) rfl (fun m hm => hm.append rfl) _ _
  cases e with
  | updateMetalTasks ai nearest isSite =>
    cases h
    refine hnone ?_ rfl
    unfold State.updateMetalTasks
    split
    · exact henqueue ..
    · exact .refl _ _
  | execute k o =>
    obtain ⟨task, htask, h⟩ := bind_eq_some_iff.mp h
    obtain ⟨heffect, hcloses⟩ := Effect.execute htask h
    have hsite : s.tasks[k]?.bind (site d) = site d task := by simp [htask]
    exact ⟨by simpa only [opened, closed, hsite] using heffect, fun hi => ⟨k, rfl, hcloses hi⟩⟩
  | stop k done =>
    obtain ⟨task, htask, h⟩ := bind_eq_some_iff.mp h
    have hsite : s.tasks[k]?.bind (site d) = site d task := by simp [htask]
    refine hnone ?_ rfl
    rw [opened, hsite]
    unfold State.stop at h
    split at h
    · cases h
      exact .refl _ _
    · exact .cancel htask h
  | setTarget k pos =>
    obtain ⟨task, htask, rfl⟩ := map_eq_some_iff.mp h
    exact hnone (.of_flags (s := s) (t := s.setTarget k task pos) rfl (fun m hm => hm.set htask rfl fun he => he) _ _) rfl
  | mexDestroyed ai pos =>
    cases h
    refine hnone ?_ rfl
    unfold State.mexDestroyed
    split
    · exact .refl _ _
    · next i hi =>
      refine ⟨fun j hj hjt => ?_, fun j hj hjt => ?_, fun _ => id⟩
      · by_cases heq : j = i
        · rw [heq]
          exact hi
        · simp [heq, hj] at hjt
      · simp only [metalMgr_setOwn, isOpen_setShared] at hjt
        split at hjt <;> simp_all
  | checkMex ai pos canBeBuilt =>
    cases h
    refine hnone ?_ rfl
    unfold State.checkMex
    split
    · exact .refl _ _
    · split
      · exact henqueue ..
      · exact .refl _ _

theorem opens_of_considerate {e : Event A P S} (hclosed : s.metalMgr.isOpen i = false) (hi : closer i = some k)
    (hok : Considerate d s closer e) (h : e.handle d s = some t) (hopen : t.metalMgr.isOpen i = true) :
    taskOf e = some k ∨ DestroysMex d i e := by
  have hopened := (Effect.handle h).1.opens i hclosed hopen
  cases e with
  | updateMetalTasks | setTarget | checkMex => cases hopened
  | mexDestroyed ai pos => exact .inr hopened
  | execute m o =>
    obtain ⟨task, htask, hsite⟩ := bind_eq_some_iff.mp hopened
    obtain ⟨task', htask', h⟩ := bind_eq_some_iff.mp h
    obtain rfl : task = task' := mem_unique htask htask'
    refine .inl (congrArg some ?_)
    by_contra hne
    have htaken : SiteTaken d closer m task := ⟨i, hsite, k, hi, fun heq => hne heq.symm⟩
    rw [execute_of_yields hsite hclosed (hok task htask htaken) h] at hopen
    cases hopen
  | stop m done =>
    obtain ⟨task, htask, hsite⟩ := bind_eq_some_iff.mp hopened
    obtain ⟨task', htask', h⟩ := bind_eq_some_iff.mp h
    obtain rfl : task = task' := mem_unique htask htask'
    refine .inl (congrArg some ?_)
    by_contra hne
    have htaken : SiteTaken d closer m task := ⟨i, hsite, k, hi, fun heq => hne heq.symm⟩
    rw [hok task htask htaken] at h
    cases h
    rw [hclosed] at hopen
    cases hopen

/-! ## Runs -/

theorem Run.closed_engaged {ok : State A P S C → (S → Option ℕ) → Event A P S → Prop} (h : Run d ok s closer)
    (hi : closer i = some k) : s.metalMgr.isOpen i = false ∧ Engaged s k := by
  induction h generalizing k with
  | init => cases hi
  | step e _ _ ht ih =>
    obtain ⟨heffect, hcloses⟩ := Effect.handle ht
    unfold closers at hi
    split at hi
    · cases hi
    · next hopen =>
      have hshut := Bool.eq_false_iff.mpr hopen
      refine ⟨hshut, ?_⟩
      split at hi
      · next hwas =>
        obtain ⟨m, hm, heng⟩ := hcloses ⟨i, hwas, hshut⟩
        obtain rfl : m = k := some.inj (hm.symm.trans hi)
        exact heng
      · exact heffect.engaged k (ih hi).2

/-- In every run of considerate steps, a spot that a task has closed by ordering to build there is closed, and a step
that opens it is one of that task, or the destruction of a mex on the spot. -/
theorem spots_reserved (h : Run d (Considerate d) s closer) (hi : closer i = some k) :
    (s.metalMgr.isOpen i = false ∧ Engaged s k) ∧
      ∀ e t, Considerate d s closer e → e.handle d s = some t → t.metalMgr.isOpen i = true →
        taskOf e = some k ∨ DestroysMex d i e :=
  ⟨h.closed_engaged hi, fun _ _ hok ht hopen => opens_of_considerate (h.closed_engaged hi).1 hi hok ht hopen⟩

/-! ## Two AIs and one spot -/

def oneSpot : Metals Bool Unit Unit Unit where
  position _ := ()
  findNearestSpot _ := some ()
  clusterId _ := ()
  mexMax _ := 10

def noOther : Outcome Unit := ⟨true, [], fun _ => true, true⟩

theorem run_oneSpot (ok : State Bool Unit Unit Unit → (Unit → Option ℕ) → Event Bool Unit Unit → Prop)
    (hok : ∀ s closer e, closer () = none → ok s closer e) : ∃ s closer, Run oneSpot ok s closer ∧ closer () = some 0 ∧
      s.tasks = [⟨false, true, false, some ()⟩, ⟨true, false, false, some ()⟩] ∧ s.metalMgr.isOpen () = false := by
  have hfirst := Run.step (.updateMetalTasks false [()] fun _ => true) (Run.init : Run oneSpot ok _ _)
    (hok _ _ _ rfl) rfl
  have hsecond := Run.step (.updateMetalTasks true [()] fun _ => true) hfirst (hok _ _ _ rfl) rfl
  exact ⟨_, _, .step (.execute 0 noOther) hsecond (hok _ _ _ rfl) rfl, rfl, rfl, rfl⟩

/-- The task of the first AI has closed the spot, and only a step of that task or the destruction of a mex opens it. -/
theorem spots_reserved_engaged : ∃ s closer, Run oneSpot (Considerate oneSpot) s closer ∧ closer () = some 0 ∧
    s.metalMgr.isOpen () = false ∧ ∀ e t, Considerate oneSpot s closer e → e.handle oneSpot s = some t →
      t.metalMgr.isOpen () = true → taskOf e = some 0 ∨ DestroysMex oneSpot () e := by
  have hok : ∀ s closer (e : Event Bool Unit Unit), closer () = none → Considerate oneSpot s closer e := by
    intro s closer e hnone
    cases e with
    | execute | stop =>
      rintro task - ⟨i, -, j, hj, -⟩
      exact nomatch hnone.symm.trans hj
    | _ => exact trivial
  obtain ⟨s, closer, hrun, hcloser, -, hclosed⟩ := run_oneSpot (Considerate oneSpot) hok
  exact ⟨s, closer, hrun, hcloser, hclosed, (spots_reserved hrun hcloser).2⟩

/-- The task of the other AI finds the spot closed and no other one: it falls back, and is cancelled, which opens the
spot. -/
theorem spots_reopened : ∃ s closer, Run oneSpot (fun _ _ _ => True) s closer ∧ closer () = some 0 ∧
    ∃ e t, e.handle oneSpot s = some t ∧ t.metalMgr.isOpen () = true ∧ taskOf e = some 1 ∧
      ¬ DestroysMex oneSpot () e := by
  obtain ⟨s, closer, hrun, hcloser, htasks, hclosed⟩ := run_oneSpot (fun _ _ _ => True) fun _ _ _ _ => trivial
  have htask : s.tasks[1]? = some ⟨true, false, false, some ()⟩ := by rw [htasks]; rfl
  let after := ((s.setOwn true () true).setShared oneSpot () true).setOwn true () true
  refine ⟨s, closer, hrun, hcloser, .execute 1 noOther,
    { after with tasks := s.tasks.set 1 ⟨true, false, false, none⟩ }, ?_, ?_, rfl, id⟩
  · simp [Event.handle, htask, State.execute, oneSpot, noOther, hclosed, State.expand, State.findSpot, State.stop,
      State.cancel, after]
  · simp [after]

end Circuit.Spec.SpotReservations
