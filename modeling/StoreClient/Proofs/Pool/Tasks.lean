import StoreClient.Proofs.Pool.Wakeups

/-!
# Calls that wait

Pending tasks have different numbers and different waiters. A task that is polled after its waiter
was completed, or after its time, is given an outcome or waits with a new waiter.
-/

namespace StoreClient.Session

open Pool

variable {s : Session} {st : Step} {n : Nat}

theorem task?_eq_some {t : Task} (hTask : s.task? n = some t) : t ∈ s.tasks ∧ t.number = n := by
  unfold task? at hTask
  have hNumber := List.find?_some hTask
  exact ⟨List.mem_of_find?_eq_some hTask, beq_iff_eq.1 hNumber⟩

theorem number_ne_of_removeTask {t : Task} (ht : t ∈ (s.removeTask n).tasks) : t.number ≠ n :=
  bne_iff_ne.1 (List.mem_filter.1 ht).2

theorem putTask_started (s : Session) (t : Task) : (s.putTask t).started = s.started := by
  unfold putTask
  split <;> rfl

/-- A task that waits is put in the place of the one of its number. -/
theorem putTask_perm (hNodup : (s.tasks.map (·.number)).Nodup) (t : Task) :
    (s.putTask t).tasks.Perm (t :: (s.removeTask t.number).tasks) := by
  unfold putTask
  by_cases hAny : (s.tasks.any (·.number == t.number)) = true
  · rw [if_pos hAny]
    obtain ⟨u, hu, hNumber⟩ := List.any_eq_true.1 hAny
    have hEq : u.number = t.number := beq_iff_eq.1 hNumber
    have hSplit := perm_cons_filter_key hNodup hu
    have hOthers :
        (s.removeTask t.number).tasks.map (fun v => if v.number == t.number then t else v) =
          (s.removeTask t.number).tasks := by
      refine (List.map_congr_left fun v hv => ?_).trans (List.map_id _)
      have hNe : (v.number != t.number) = true := (List.mem_filter.1 hv).2
      rw [if_neg (by simpa using hNe)]
      rfl
    have hReplaced := hSplit.map fun v => if v.number == t.number then t else v
    rw [List.map_cons, if_pos hNumber, hEq] at hReplaced
    exact hReplaced.trans (List.Perm.of_eq (congrArg (t :: ·) hOthers))
  · rw [if_neg hAny]
    have hAll : (s.removeTask t.number).tasks = s.tasks := by
      refine List.filter_eq_self.2 fun v hv => bne_iff_ne.2 fun hEq => hAny ?_
      exact List.any_eq_true.2 ⟨v, hv, beq_iff_eq.2 hEq⟩
    rw [hAll]
    exact List.perm_append_singleton _ _

/-- The pending tasks of a pool that is not disposed of. -/
structure Awake (s : Session) : Prop where
  lt : ∀ t ∈ s.tasks, t.number < s.started
  nodup : (s.tasks.map (·.number)).Nodup
  pool : s.pool.Wakeful (s.tasks.map (·.waiter)) 0

theorem Awake.of_pool {after : Session} (hs : s.Awake) (hTasks : after.tasks = s.tasks)
    (hStarted : after.started = s.started)
    (hPool : after.pool.Wakeful (s.tasks.map (·.waiter)) 0) : after.Awake := by
  refine ⟨?_, ?_, ?_⟩
  · rw [hTasks, hStarted]
    exact hs.lt
  · rw [hTasks]
    exact hs.nodup
  · rw [hTasks]
    exact hPool

/-- The waiter of a task, and those of the others. -/
theorem Awake.split (hs : s.Awake) {t : Task} (ht : t ∈ s.tasks) :
    s.pool.Wakeful (t.waiter :: (s.removeTask t.number).tasks.map (·.waiter)) 0 :=
  hs.pool.perm ((perm_cons_filter_key hs.nodup ht).map Task.waiter)

/-- A task that goes on is given an outcome or has a new waiter. -/
theorem awake_advanceTask {guarded : Bool} (hLt : ∀ t ∈ s.tasks, t.number < s.started)
    (hNodup : (s.tasks.map (·.number)).Nodup) (hNumber : n < s.started)
    (hPool : s.pool.Wakeful ((s.removeTask n).tasks.map (·.waiter)) 1) :
    (s.advanceTask n guarded).1.Awake := by
  have hRest : ∀ t ∈ (s.removeTask n).tasks, t.number < s.started := fun t ht =>
    hLt t (List.mem_filter.1 ht).1
  have hRestNodup : ((s.removeTask n).tasks.map (·.number)).Nodup :=
    hNodup.sublist (List.filter_sublist.map _)
  rcases advanceTask_cases s n guarded with ⟨r, handles, hEnds, hEq⟩ | ⟨r, w, d, hAttempt, hEq⟩
  · rw [hEq]
    exact ⟨hRest, hRestNodup, hPool.callEnds hEnds⟩
  · have hQueued : r.Wakeful (w :: (s.removeTask n).tasks.map (·.waiter)) 0 := by
      have hEnd := hPool.attempt
      rw [hAttempt] at hEnd
      exact hEnd
    have hPut := putTask_perm (s := { s with pool := r }) hNodup
      { number := n, waiter := w, deadline := d, guarded }
    have hFresh : n ∉ (s.removeTask n).tasks.map (·.number) := by
      intro hMem
      obtain ⟨t, ht, hEq⟩ := List.mem_map.1 hMem
      exact number_ne_of_removeTask ht hEq
    rw [hEq]
    refine ⟨fun t ht => ?_, ?_, ?_⟩
    · rw [putTask_started]
      rcases List.mem_cons.1 (hPut.mem_iff.1 ht) with rfl | ht
      · exact hNumber
      · exact hRest t ht
    · exact (hPut.map Task.number).nodup_iff.2 (List.nodup_cons.2 ⟨hFresh, hRestNodup⟩)
    · rw [putTask_pool]
      exact hQueued.perm (hPut.map Task.waiter).symm

/-- A task that goes on and waits again has a waiter that nobody has completed. -/
theorem advanceTask_fresh {guarded : Bool} {t : Task} (hNodup : (s.tasks.map (·.number)).Nodup)
    (hPool : s.pool.Numbered) (ht : t ∈ (s.advanceTask n guarded).1.tasks)
    (hNumber : t.number = n) :
    (s.advanceTask n guarded).1.pool.isCompleted t.waiter = false := by
  rcases advanceTask_cases s n guarded with ⟨r, handles, -, hEq⟩ | ⟨r, w, d, hAttempt, hEq⟩
  · rw [hEq] at ht
    exact absurd hNumber (number_ne_of_removeTask ht)
  · have hPut := putTask_perm (s := { s with pool := r }) hNodup
      { number := n, waiter := w, deadline := d, guarded }
    rw [hEq] at ht ⊢
    rw [putTask_pool]
    rcases List.mem_cons.1 (hPut.mem_iff.1 ht) with rfl | ht
    · exact attempt_fresh hPool hAttempt
    · exact absurd hNumber (number_ne_of_removeTask ht)

/-- A step that is an operation leaves no place free for which nobody was woken up while callers
wait, unless it disposes of the pool. -/
theorem Awake.operated (hs : s.Awake) {op : Op} {answer : Answer}
    (hOperates : s.Operates st op answer) (hOpen : (s.pool.apply op).disposed = false) :
    (s.pool.apply op).Wakeful (s.tasks.map (·.waiter)) 0 := by
  cases hOperates with
  | openMinimum => exact hs.pool.openMinimum
  | dispose => cases (dispose_disposed s.pool).symm.trans hOpen
  | kill h => exact hs.pool.modify h _
  | revive h => exact hs.pool.modify h _
  | shut h => exact hs.pool.modify h _
  | cycleBuffers => exact hs.pool.congr rfl rfl

/-- What precedes a call leaves no place free for which nobody was woken up while callers wait,
unless it is the disposal of the pool. -/
theorem Awake.called (hs : s.Awake) {guarded : Bool} {before : List Op}
    (hCalls : s.Calls st guarded before) (hOpen : (s.pool.applyAll before).disposed = false) :
    (s.pool.applyAll before).Wakeful (s.tasks.map (·.waiter)) 0 := by
  cases hCalls with
  | acquire => exact hs.pool
  | afterDisposal => cases (dispose_disposed s.pool).symm.trans hOpen
  | afterRelease => exact hs.pool.release _

/-- A step before the disposal leaves no place free for which nobody was woken up while callers
wait. -/
theorem Awake.perform (hs : s.Awake) {ops : List Op} {result : Session × Answer}
    (hPerforms : s.Performs st ops result) (hOpen : result.1.pool.disposed = false) :
    result.1.Awake := by
  cases hPerforms with
  | idle => exact hs.of_pool rfl rfl hs.pool
  | operation hOperates => exact hs.of_pool rfl rfl (hs.operated hOperates hOpen)
  | release i slot => exact hs.of_pool rfl rfl (hs.pool.release slot.handle)
  | drop => exact hs.of_pool rfl rfl hs.pool
  | dropGuard i slot =>
    have hNoted : (s.pool.apply (.returning slot.handle)).Wakeful (s.tasks.map (·.waiter)) 0 :=
      hs.pool.congr rfl rfl
    exact hs.of_pool rfl rfl (hNoted.release slot.handle)
  | cancel n t hTask =>
    obtain ⟨hMem, rfl⟩ := task?_eq_some hTask
    exact ⟨fun u hu => hs.lt u (List.mem_filter.1 hu).1,
      hs.nodup.sublist (List.filter_sublist.map _), (hs.split hMem).abandon⟩
  | call guarded before hCalls =>
    rw [acquire_disposed] at hOpen
    obtain ⟨r, handles, hEnds, hEq⟩ :=
      acquire_cases { s with pool := s.pool.applyAll before } guarded
    rw [hEq]
    exact hs.of_pool rfl rfl (((hs.called hCalls hOpen).mono (Nat.zero_le 1)).callEnds hEnds)
  | start guarded =>
    -- the new task has no number of a pending one
    have hAll : (s.removeTask s.started).tasks = s.tasks :=
      List.filter_eq_self.2 fun t ht => bne_iff_ne.2 (Nat.ne_of_lt (hs.lt t ht))
    have hPool : s.pool.Wakeful ((s.removeTask s.started).tasks.map (·.waiter)) 1 := by
      rw [hAll]
      exact hs.pool.mono (Nat.zero_le 1)
    exact awake_advanceTask (s := { s with started := s.started + 1 })
      (fun t ht => Nat.lt_succ_of_lt (hs.lt t ht)) hs.nodup (Nat.lt_succ_self _) hPool
  | poll n t before hTask hResumes =>
    obtain ⟨hMem, rfl⟩ := task?_eq_some hTask
    rw [hResumes.applyAll_eq]
    exact awake_advanceTask (s := { s with pool := s.pool.timeOut t.waiter }) hs.lt hs.nodup
      (hs.lt t hMem) (hs.split hMem).timeOut

/-! ## Runs -/

theorem Awake.step (hs : s.Awake) (hOpen : (s.step st).1.pool.disposed = false) :
    (s.step st).1.Awake := by
  obtain ⟨hEq, -⟩ := step_of_open hOpen
  rw [hEq] at hOpen ⊢
  exact hs.perform (s.performs st) hOpen

/-- In a run before the disposal no place is free for which nobody was woken up while callers wait.
-/
theorem Awake.run {steps : List Step} (hs : s.pool.disposed = false → s.Awake)
    (hOpen : (s.run steps).pool.disposed = false) : (s.run steps).Awake := by
  induction steps generalizing s with
  | nil => exact hs hOpen
  | cons st rest ih => exact ih (fun hNext => (hs (step_open hNext)).step hNext) hOpen

theorem awake_fresh (endpoint : Endpoint) (config : PoolConfig) {factory : List FactoryOutcome}
    (hFactory : ∀ e, FactoryOutcome.failure e ∉ factory) :
    Awake { pool := fresh endpoint config factory } where
  lt := fun _ ht => absurd ht List.not_mem_nil
  nodup := List.nodup_nil
  pool :=
    { isOpen := rfl
      supplied := ⟨hFactory, Nat.zero_le _⟩
      numbered := ⟨fun _ hw => absurd hw List.not_mem_nil, fun _ hw => absurd hw List.not_mem_nil⟩
      lt := fun _ hw => absurd hw List.not_mem_nil
      nodup := List.nodup_nil
      queued := fun _ hw => absurd hw List.not_mem_nil
      waits := fun _ hw => absurd hw List.not_mem_nil
      enough := fun ⟨_, hw, _⟩ => absurd hw List.not_mem_nil }

theorem settle_of_task {t : Task} (ht : t ∈ s.settle.tasks) : s.settle = s := by
  unfold settle at ht ⊢
  split at ht
  · rw [if_pos ‹_›]
  · rename_i hNot
    refine absurd ?_ hNot
    have hSome : s.tasks.isEmpty = false := List.isEmpty_eq_false_iff.2 (List.ne_nil_of_mem ht)
    rw [isHeld, hSome, Bool.not_false, Bool.or_true, Bool.true_or]

/-- A task that still waits after a poll waits for a new wakeup. -/
theorem Awake.poll (hs : s.Awake) {t : Task} (ht : t ∈ (s.step (.poll n)).1.tasks)
    (hNumber : t.number = n) : (s.step (.poll n)).1.pool.isCompleted t.waiter = false := by
  have hStep : (s.step (.poll n)).1 = (s.perform (.poll n)).1 := settle_of_task ht
  rw [hStep, Session.perform] at ht ⊢
  split at ht
  · rename_i hNone
    exact absurd (beq_iff_eq.2 hNumber) (List.find?_eq_none.1 hNone t ht)
  · rename_i u hTask
    obtain ⟨hu, rfl⟩ := task?_eq_some hTask
    rcases pollTask_cases s u with ⟨hNot, hEq⟩ | hEq
    · rw [hEq] at ht ⊢
      rw [List.inj_on_of_nodup_map hs.nodup ht hu hNumber]
      exact hNot
    · rw [hEq] at ht ⊢
      exact advanceTask_fresh (s := { s with pool := s.pool.timeOut u.waiter }) hs.nodup
        (hs.split hu).timeOut.numbered ht hNumber

/-- The calls whose waiters were completed since they were last polled. -/
def signaled (s : Session) : List Task := s.tasks.filter fun t => s.pool.isCompleted t.waiter

/-- Whatever callers do to a pool, as long as its factory does not fail and it is not disposed of:
if a call waits for a wakeup, no more places are free than there are calls that were woken and have
not been polled since. A poll uses a wakeup up. Hence, when all who were woken have been polled or
have given up, nobody waits unless all connections are in use and there may be no more. -/
theorem no_wakeup_is_lost (endpoint : Endpoint) (config : PoolConfig)
    (factory : List FactoryOutcome) (steps : List Step)
    (hFactory : ∀ e, FactoryOutcome.failure e ∉ factory)
    (hOpen : (run { pool := fresh endpoint config factory } steps).pool.disposed = false) :
    let s := run { pool := fresh endpoint config factory } steps
    ((∃ t ∈ s.tasks, s.pool.isCompleted t.waiter = false) →
      s.pool.idle.length + (config.maxSize - s.pool.liveCount) ≤ s.signaled.length) ∧
    (∀ n, ∀ t ∈ (s.step (.poll n)).1.tasks, t.number = n →
      (s.step (.poll n)).1.pool.isCompleted t.waiter = false) ∧
    (s.signaled = [] → s.tasks ≠ [] → s.pool.idle = [] ∧ s.pool.liveCount = config.maxSize) := by
  intro s
  have hs : s.Awake := Awake.run (fun _ => awake_fresh endpoint config hFactory) hOpen
  have hConfig : s.pool.config = config := congrArg Prod.fst (run_settings hOpen)
  have hEnough : (∃ t ∈ s.tasks, s.pool.isCompleted t.waiter = false) →
      s.pool.idle.length + (config.maxSize - s.pool.liveCount) ≤ s.signaled.length := by
    rintro ⟨t, ht, hNot⟩
    have hFree := hs.pool.enough ⟨t.waiter, List.mem_map.2 ⟨t, ht, rfl⟩, hNot⟩
    rw [free, hConfig, List.countP_map, List.countP_eq_length_filter] at hFree
    exact hFree
  refine ⟨hEnough, fun n t => hs.poll, fun hNone hTasks => ?_⟩
  obtain ⟨t, ht⟩ := List.exists_mem_of_ne_nil _ hTasks
  have hNot : s.pool.isCompleted t.waiter = false := by
    refine Bool.eq_false_iff.2 fun hDone => ?_
    have hMem : t ∈ s.signaled := List.mem_filter.2 ⟨ht, hDone⟩
    rw [hNone] at hMem
    cases hMem
  have hFree := hEnough ⟨t, ht, hNot⟩
  have hRoom := hs.pool.supplied.room
  rw [hNone, List.length_nil] at hFree
  rw [hConfig] at hRoom
  refine ⟨List.length_eq_zero_iff.1 ?_, ?_⟩ <;> omega

/-- Three calls wait for the only connection. The first one is woken but gives up, so that the
second one is woken and takes the connection, and the third one still waits. -/
theorem wakeup_handed_on :
    let s := run { pool := fresh ⟨.v4 [127, 0, 0, 1], 11210⟩ { maxSize := 1 } [.connection] }
      [.acquire true, .start false, .start false, .start false, .drop 0, .cancel 0, .poll 1]
    s.tasks.map (·.number) = [2] ∧ s.pool.idle = [] ∧ s.pool.liveCount = 1 := by
  have hFactory : ∀ e, FactoryOutcome.failure e ∉ [FactoryOutcome.connection] := by
    intro e hMem
    cases List.mem_singleton.1 hMem
  obtain ⟨-, -, hWaits⟩ :=
    no_wakeup_is_lost ⟨.v4 [127, 0, 0, 1], 11210⟩ { maxSize := 1 } _
      [.acquire true, .start false, .start false, .start false, .drop 0, .cancel 0, .poll 1]
      hFactory (by decide +kernel)
  exact ⟨by decide +kernel, hWaits (by decide +kernel) (by decide +kernel)⟩

end StoreClient.Session
