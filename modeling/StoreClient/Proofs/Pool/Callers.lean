import StoreClient.Proofs.Pool.Uses
import StoreClient.Proofs.Pool.Waiting

/-!
# What a step does

A call adds the slots of the connection it ends with, if any, and takes its task away or leaves it
waiting. A pool that was disposed of stays so; hence whatever holds of a session in which it was not
disposed of needs to be followed through such sessions only.
-/

namespace StoreClient.Session

open Pool

variable {s : Session} {st : Step} {ops : List Op} {result : Session × Answer}

/-- The element of a key, and those of other keys. -/
theorem perm_cons_filter_key {α : Type} {key : α → Nat} {a : α} {l : List α}
    (hNodup : (l.map key).Nodup) (ha : a ∈ l) : l.Perm (a :: l.filter (key · != key a)) := by
  induction l with
  | nil => cases ha
  | cons b rest ih =>
    obtain ⟨hOther, hRest⟩ := List.nodup_cons.1 hNodup
    rcases List.mem_cons.1 ha with rfl | ha
    · have hKept : rest.filter (key · != key a) = rest := by
        refine List.filter_eq_self.2 fun c hc => bne_iff_ne.2 fun hEq => ?_
        exact hOther (List.mem_map.2 ⟨c, hc, hEq⟩)
      rw [List.filter_cons_of_neg (by simp), hKept]
    · have hNe : key b ≠ key a := fun hEq => hOther (List.mem_map.2 ⟨a, ha, hEq.symm⟩)
      rw [List.filter_cons_of_pos (by simpa using hNe)]
      exact ((ih hRest ha).cons b).trans (List.Perm.swap a b _)

/-- The slots that a call fills. -/
def slotsOf (guarded : Bool) (handles : List Handle) : List (Option Slot) :=
  handles.map fun handle => some { handle, guarded }

/-- What a caller is handed is in a new slot. -/
theorem deliver_eq (s : Session) (guarded : Bool) (outcome : Outcome) :
    (s.deliver guarded outcome).1 =
      { s with slots := s.slots ++ slotsOf guarded outcome.handles } := by
  cases outcome with
  | ok h => rfl
  | error e =>
    change s = { s with slots := s.slots ++ [] }
    rw [List.append_nil]

/-- A blocking call ends, and its connection is in a new slot. -/
theorem acquire_cases (s : Session) (guarded : Bool) :
    ∃ r handles, s.pool.CallEnds r handles ∧
      (s.acquire guarded).1 = { s with pool := r, slots := s.slots ++ slotsOf guarded handles } :=
  ⟨_, _, acquire_ends s.pool, deliver_eq _ guarded _⟩

/-- A task that goes on ends, as a blocking call does, or waits with a waiter that was queued last.
-/
theorem advanceTask_cases (s : Session) (n : Nat) (guarded : Bool) :
    (∃ r handles, s.pool.CallEnds r handles ∧ (s.advanceTask n guarded).1 =
      { s.removeTask n with pool := r, slots := s.slots ++ slotsOf guarded handles }) ∨
    ∃ r w deadline, s.pool.attempt = (r, .queued w) ∧ (s.advanceTask n guarded).1 =
      { s with pool := r }.putTask { number := n, waiter := w, deadline, guarded } := by
  unfold advanceTask
  rcases acquireStep_cases s.pool with ⟨r, outcome, hEnds, hStep⟩ | ⟨r, w, hAttempt, hStep⟩
  · rw [hStep]
    exact Or.inl ⟨r, _, hEnds, deliver_eq _ guarded outcome⟩
  · rw [hStep]
    exact Or.inr ⟨r, w, _, hAttempt, rfl⟩

/-- A task that is polled goes on unless its waiter was not completed and its time is not over. If
it goes on, its waiter was completed by then, at the latest by itself. -/
theorem pollTask_cases (s : Session) (t : Task) :
    (s.pool.isCompleted t.waiter = false ∧ (s.pollTask t).1 = s) ∨
      s.pollTask t =
        { s with pool := s.pool.timeOut t.waiter }.advanceTask t.number t.guarded := by
  unfold pollTask
  by_cases hDone : s.pool.isCompleted t.waiter = true
  · rw [if_pos hDone, timeOut_of_completed hDone]
    exact Or.inr rfl
  · rw [if_neg hDone]
    split
    · exact Or.inr rfl
    · exact Or.inl ⟨Bool.eq_false_iff.2 hDone, rfl⟩

/-- A task that goes on has a waiter that was completed by then, at the latest by itself. -/
theorem Resumes.applyAll_eq {t : Task} {before : List Op} (h : s.Resumes t before) :
    s.pool.applyAll before = s.pool.timeOut t.waiter := by
  cases h with
  | completed hDone => exact (timeOut_of_completed hDone).symm
  | overdue => rfl

/-! ## Disposal is for good -/

theorem putTask_pool (s : Session) (t : Task) : (s.putTask t).pool = s.pool := by
  unfold putTask
  split <;> rfl

theorem putTask_slots (s : Session) (t : Task) : (s.putTask t).slots = s.slots := by
  unfold putTask
  split <;> rfl

theorem acquire_settings (s : Session) (guarded : Bool) :
    (s.acquire guarded).1.pool.settings = s.pool.settings := by
  obtain ⟨r, handles, hEnds, hEq⟩ := acquire_cases s guarded
  rw [hEq]
  exact hEnds.settings_eq

theorem acquire_disposed (s : Session) (guarded : Bool) :
    (s.acquire guarded).1.pool.disposed = s.pool.disposed :=
  congrArg Prod.snd (acquire_settings s guarded)

theorem advanceTask_settings (s : Session) (n : Nat) (guarded : Bool) :
    (s.advanceTask n guarded).1.pool.settings = s.pool.settings := by
  rcases advanceTask_cases s n guarded with ⟨r, handles, hEnds, hEq⟩ | ⟨r, w, d, hAttempt, hEq⟩
  · rw [hEq]
    exact hEnds.settings_eq
  · rw [hEq, putTask_pool, ← attempt_settings s.pool, hAttempt]

/-- What precedes a call changes no setting, unless it is the disposal of the pool. -/
theorem Calls.settings_eq {guarded : Bool} {before : List Op} (h : s.Calls st guarded before)
    (hOpen : (s.pool.applyAll before).disposed = false) :
    (s.pool.applyAll before).settings = s.pool.settings := by
  cases h with
  | acquire => rfl
  | afterDisposal => cases (dispose_disposed s.pool).symm.trans hOpen
  | afterRelease => exact release_settings _ _

/-- No operation that is a step changes a setting, unless it disposes of the pool. -/
theorem Operates.settings_eq {op : Op} {answer : Answer} (h : s.Operates st op answer)
    (hOpen : (s.pool.apply op).disposed = false) :
    (s.pool.apply op).settings = s.pool.settings := by
  cases h with
  | openMinimum => exact settings_of_line (openMinimum_onlyConnections s.pool).line
  | dispose => cases (dispose_disposed s.pool).symm.trans hOpen
  | kill | revive | shut | cycleBuffers => rfl

/-- No step before the disposal changes a setting. -/
theorem Performs.settings_eq (h : s.Performs st ops result)
    (hOpen : result.1.pool.disposed = false) : result.1.pool.settings = s.pool.settings := by
  cases h with
  | idle => rfl
  | operation hOperates => exact hOperates.settings_eq hOpen
  | release => exact release_settings _ _
  | drop => rfl
  | dropGuard => exact release_settings _ _
  | cancel => exact settings_of_stock (abandon_onlyWaiters _ _).stock
  | call guarded before hCalls =>
    rw [acquire_disposed] at hOpen
    rw [acquire_settings]
    exact hCalls.settings_eq hOpen
  | start => exact advanceTask_settings _ _ _
  | poll n t before hTask hResumes =>
    rw [advanceTask_settings, hResumes.applyAll_eq]
    exact settings_of_stock (timeOut_sameStock _ _).stock

/-- A step after which the pool is not disposed of is no more than what the step says. -/
theorem step_of_open {st : Step} (hOpen : (s.step st).1.pool.disposed = false) :
    (s.step st).1 = (s.perform st).1 ∧ (s.step st).1.pool.settings = s.pool.settings := by
  have hSettle : (s.perform st).1.settle = (s.perform st).1 := by
    change (s.perform st).1.settle.pool.disposed = false at hOpen
    unfold settle at hOpen ⊢
    split
    · rfl
    · rw [if_neg ‹_›] at hOpen
      cases (dispose_disposed _).symm.trans hOpen
  have hEq : (s.step st).1 = (s.perform st).1 := hSettle
  rw [hEq] at hOpen ⊢
  exact ⟨rfl, (s.performs st).settings_eq hOpen⟩

theorem step_open {st : Step} (hOpen : (s.step st).1.pool.disposed = false) :
    s.pool.disposed = false :=
  (congrArg Prod.snd (step_of_open hOpen).2).symm.trans hOpen

/-- No run before the disposal changes a setting. -/
theorem run_settings {steps : List Step} (hOpen : (s.run steps).pool.disposed = false) :
    (s.run steps).pool.settings = s.pool.settings := by
  induction steps generalizing s with
  | nil => rfl
  | cons st rest ih =>
    have hRest : (s.run (st :: rest)).pool.settings = (s.step st).1.pool.settings := ih hOpen
    have hNext : (s.step st).1.pool.disposed = false :=
      (congrArg Prod.snd hRest).symm.trans hOpen
    exact hRest.trans (step_of_open hNext).2

end StoreClient.Session
