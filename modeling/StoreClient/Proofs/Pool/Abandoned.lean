import StoreClient.Proofs.Pool.Agreement
import StoreClient.Proofs.Pool.Attempts
import StoreClient.Proofs.Pool.Mortality
import StoreClient.Proofs.Pool.Omission

/-!
# Calls that are given up before they are woken

A call that has to wait, and is given up before anybody has completed its waiter, leaves no trace.
Two runs are compared: one with the call, and one without anything that it does. At every moment the
second session is the first one with the call left out. While the call waits this is so because
nobody wakes it, and afterwards because its waiter was completed.
-/

namespace StoreClient

open Pool

namespace Session

variable {s : Session} {t : Task} {st : Step} {ops : List Op} {result : Session × Answer} {u : Use}
  {n m : Nat} {w : WaiterId}
  {guarded : Bool}

/-! ## The tasks of a run -/

theorem task?_removeTask_self (s : Session) (n : Nat) : (s.removeTask n).task? n = none := by
  refine List.find?_eq_none.2 fun t ht hEq => ?_
  exact number_ne_of_removeTask ht (beq_iff_eq.1 hEq)

theorem task?_removeTask_of_ne (hm : m ≠ n) : (s.removeTask n).task? m = s.task? m := by
  show (s.tasks.filter (·.number != n)).find? (·.number == m) = s.tasks.find? (·.number == m)
  rw [List.find?_filter]
  refine congrArg (s.tasks.find? ·) (funext fun t => ?_)
  by_cases hFound : t.number = m
  · simp [hFound, hm]
  · simp [hFound]

theorem task?_putTask_of_ne (hm : m ≠ t.number) : (s.putTask t).task? m = s.task? m := by
  have hOthers : ((s.putTask t).removeTask t.number).task? m =
      (s.removeTask t.number).task? m :=
    congrArg (List.find? fun u : Task => u.number == m) (removeTask_putTask s t)
  rw [task?_removeTask_of_ne hm, task?_removeTask_of_ne hm] at hOthers
  exact hOthers

/-- A task that goes on changes no other one. -/
theorem task?_advanceTask_of_ne (hm : m ≠ n) :
    (s.advanceTask n guarded).1.task? m = s.task? m := by
  rcases advanceTask_cases s n guarded with ⟨r, handles, -, hEq⟩ | ⟨r, v, d, -, hEq⟩
  · rw [hEq]
    exact task?_removeTask_of_ne hm
  · rw [hEq]
    exact task?_putTask_of_ne (s := { s with pool := r }) hm

/-- A task that goes on and waits again has the next waiter. -/
theorem waiter_advanceTask (hTask : (s.advanceTask n guarded).1.task? n = some t) :
    t.waiter = s.pool.waiterCount := by
  rcases advanceTask_cases s n guarded with ⟨r, handles, -, hEq⟩ | ⟨r, v, d, hAttempt, hEq⟩
  · rw [hEq] at hTask
    cases (task?_removeTask_self s n).symm.trans hTask
  · have hPut := task?_putTask { s with pool := r }
      { number := n, waiter := v, deadline := d, guarded }
    rw [hEq] at hTask
    cases hPut.symm.trans hTask
    exact (waiterCount_of_queued hAttempt).1

/-- The task that a step is about. -/
def taskOf? (s : Session) : Step → Option Nat
  | .start _ => some s.started
  | .poll m => some m
  | .cancel m => some m
  | _ => none

theorem task?_congr {after : Session} (hTasks : after.tasks = s.tasks) (m : Nat) :
    after.task? m = s.task? m :=
  congrArg (List.find? fun u : Task => u.number == m) hTasks

/-- A step changes no task but the one that it is about. -/
theorem Performs.task?_eq (h : s.Performs st ops result) (hOther : s.taskOf? st ≠ some m) :
    result.1.task? m = s.task? m := by
  cases h with
  | idle | operation | release | drop | dropGuard => rfl
  | cancel k t =>
    have hm : m ≠ k := fun hEq => hOther (congrArg some hEq.symm)
    exact task?_removeTask_of_ne (s := { s with pool := _ }) hm
  | call guarded before =>
    exact task?_congr (acquire_tasks { s with pool := s.pool.applyAll before } guarded) m
  | start guarded =>
    have hm : m ≠ s.started := fun hEq => hOther (congrArg some hEq.symm)
    exact task?_advanceTask_of_ne (s := { s with started := s.started + 1 }) hm
  | poll k t before hTask =>
    have hm : m ≠ t.number := fun hEq =>
      hOther (congrArg some ((task?_eq_some hTask).2.symm.trans hEq.symm))
    exact task?_advanceTask_of_ne (s := { s with pool := s.pool.applyAll before }) hm

/-- A task that waits after a step has waited with this waiter before, or has a new one. -/
theorem Performs.waiter (h : s.Performs st ops result) (hTask : result.1.task? m = some t) :
    s.task? m = some t ∨ s.pool.waiterCount ≤ t.waiter := by
  by_cases hOther : s.taskOf? st = some m
  · cases h with
    | idle | operation | release | drop | dropGuard => exact Or.inl hTask
    | cancel k u =>
      cases hOther
      cases (task?_removeTask_self { s with pool := s.pool.abandon u.waiter } m).symm.trans hTask
    | call guarded before hCalls => cases hCalls <;> cases hOther
    | start guarded =>
      cases hOther
      exact Or.inr (waiter_advanceTask (s := { s with started := s.started + 1 }) hTask).ge
    | poll k u before hFound hResumes =>
      cases hOther
      rw [hResumes.applyAll_eq, ← (task?_eq_some hFound).2] at hTask
      rw [waiter_advanceTask (s := { s with pool := s.pool.timeOut u.waiter }) hTask]
      exact Or.inr (timeOut_queue s.pool u.waiter).2.ge
  · rw [h.task?_eq hOther] at hTask
    exact Or.inl hTask

theorem putTask_eq (s : Session) (t : Task) :
    s.putTask t = { s with tasks := (s.putTask t).tasks } := by
  unfold putTask
  split <;> rfl

/-- What a call that goes on leaves as it is. -/
theorem advanceTask_frame (s : Session) (n : Nat) (guarded : Bool) :
    (s.advanceTask n guarded).1.started = s.started ∧
      (s.advanceTask n guarded).1.owned = s.owned := by
  rcases advanceTask_cases s n guarded with ⟨r, handles, -, hEq⟩ | ⟨r, v, d, -, hEq⟩
  · rw [hEq]
    exact ⟨rfl, rfl⟩
  · rw [hEq, putTask_eq]
    exact ⟨rfl, rfl⟩

theorem acquire_frame (s : Session) (guarded : Bool) :
    (s.acquire guarded).1.started = s.started ∧ (s.acquire guarded).1.owned = s.owned := by
  obtain ⟨r, handles, -, hEq⟩ := acquire_cases s guarded
  rw [hEq]
  exact ⟨rfl, rfl⟩

/-- Calls are only ever begun, and the handle of the pool is kept until it is dropped. -/
theorem Performs.frame (h : s.Performs st ops result) :
    s.started ≤ result.1.started ∧ (st ≠ .dropPool → result.1.owned = s.owned) := by
  cases h with
  | idle hIdle =>
    refine ⟨Nat.le_refl _, fun hKeep => ?_⟩
    cases hIdle with
    | dropPool => exact absurd rfl hKeep
    | _ => rfl
  | operation | release | drop | dropGuard | cancel => exact ⟨Nat.le_refl _, fun _ => rfl⟩
  | call guarded before =>
    obtain ⟨hStarted, hOwned⟩ := acquire_frame { s with pool := s.pool.applyAll before } guarded
    exact ⟨hStarted.ge, fun _ => hOwned⟩
  | start guarded =>
    obtain ⟨hStarted, hOwned⟩ :=
      advanceTask_frame { s with started := s.started + 1 } s.started guarded
    exact ⟨(Nat.le_succ s.started).trans hStarted.ge, fun _ => hOwned⟩
  | poll n t before =>
    obtain ⟨hStarted, hOwned⟩ :=
      advanceTask_frame { s with pool := s.pool.applyAll before } t.number t.guarded
    exact ⟨hStarted.ge, fun _ => hOwned⟩

theorem settle_frame (s : Session) : s.settle.started = s.started ∧ s.settle.owned = s.owned := by
  unfold settle
  split <;> exact ⟨rfl, rfl⟩

theorem task?_settle (s : Session) (m : Nat) : s.settle.task? m = s.task? m :=
  task?_congr (settle_tasks s) m

/-- Every use keeps a waiter apart from what other calls wait with. -/
theorem Veiled.use (hs : s.Veiled n w) (u : Use) : (s.use u).Veiled n w := by
  have hQueued : w < (s.use u).pool.waiterCount := by
    rw [use_pool]
    exact Nat.lt_of_lt_of_le hs.queued (waiterCount_le_applyAll s.pool _)
  cases u with
  | step st =>
    refine ⟨hQueued, ?_, fun m hm t hTask => ?_⟩
    · show n < (s.perform st).1.settle.started
      rw [(settle_frame _).1]
      exact Nat.lt_of_lt_of_le hs.begun (s.performs st).frame.1
    · have hPerformed : (s.perform st).1.task? m = some t :=
        (task?_settle _ m).symm.trans hTask
      rcases (s.performs st).waiter hPerformed with hBefore | hNew
      · exact hs.others m hm t hBefore
      · exact Nat.ne_of_gt (Nat.lt_of_lt_of_le hs.queued hNew)
  | giveBack h =>
    rw [Session.use] at hQueued ⊢
    split at hQueued
    · rw [if_pos ‹_›]
      exact ⟨hQueued, hs.begun, hs.others⟩
    · rw [if_neg ‹_›]
      exact hs

/-! ## Uses with and without a call -/

/-- A use comes to the same where a call is left out, or is left out with it. -/
structure Mirrored (n : Nat) (w : WaiterId) (s : Session) (u : Use) : Prop where
  gone : u.without n = none → (s.use u).without n w = s.without n w
  kept : ∀ u', u.without n = some u' →
    (s.without n w).use u' = (s.use u).without n w ∧
      (s.without n w).answer u' = (s.answer u).without n

/-- Only the polls of a call and its end are left out with it. -/
theorem eq_of_without_none (hNone : u.without n = none) :
    u = .step (.poll n) ∨ u = .step (.cancel n) := by
  cases u with
  | giveBack h => cases hNone
  | step st =>
    have hStep : st.without n = none := Option.map_eq_none_iff.1 hNone
    cases st with
    | poll m =>
      by_cases hm : m = n
      · exact Or.inl (hm ▸ rfl)
      · rw [Step.without, if_neg hm] at hStep
        cases hStep
    | cancel m =>
      by_cases hm : m = n
      · exact Or.inr (hm ▸ rfl)
      · rw [Step.without, if_neg hm] at hStep
        cases hStep
    | _ => cases hStep

/-- What is not about a call leaves its task as it is. -/
theorem Veiled.task?_use {u' : Use} (hs : s.Veiled n w) (hUse : u.without n = some u') :
    (s.use u).task? n = s.task? n := by
  cases u with
  | giveBack h =>
    rw [Session.use]
    split <;> rfl
  | step st =>
    have hOther : s.taskOf? st ≠ some n := by
      intro hTask
      cases st with
      | start guarded => exact Nat.ne_of_gt hs.begun (Option.some.inj hTask)
      | poll m =>
        cases hTask
        simp [Use.without, Step.without] at hUse
      | cancel m =>
        cases hTask
        simp [Use.without, Step.without] at hUse
      | _ => cases hTask
    exact (task?_settle _ n).trans ((s.performs st).task?_eq hOther)

/-- A pool that is kept alive without a task is so with it. -/
theorem isHeld_of_removeTask (hHeld : (s.removeTask n).isHeld = true) : s.isHeld = true := by
  cases hTasks : s.tasks with
  | nil =>
    have hSame : (s.removeTask n).tasks = s.tasks := by
      rw [removeTask, hTasks]
      rfl
    have hEq : s.removeTask n = s := congrArg (fun tasks => ({ s with tasks } : Session)) hSame
    rw [hEq] at hHeld
    exact hHeld
  | cons t rest =>
    rw [isHeld, hTasks]
    simp

/-- Something keeps the pool alive, or it was disposed of. -/
def Settled (s : Session) : Prop := s.isHeld = true ∨ s.pool.disposed = true

theorem settle_of_isHeld (hHeld : s.isHeld = true) : s.settle = s := if_pos hHeld

theorem Settled.settle_eq (hs : s.Settled) : s.settle = s :=
  hs.elim settle_of_isHeld settle_of_disposed

/-- After each use a pool that nothing keeps alive has been disposed of. -/
theorem Settled.use (hs : s.Settled) (u : Use) : (s.use u).Settled := by
  cases u with
  | step st =>
    show (s.perform st).1.settle.isHeld = true ∨ (s.perform st).1.settle.pool.disposed = true
    rw [isHeld_settle]
    by_cases hHeld : (s.perform st).1.isHeld = true
    · exact Or.inl hHeld
    · rw [settle, if_neg hHeld]
      exact Or.inr (dispose_disposed _)
  | giveBack h =>
    rw [Session.use]
    split
    · have hSettings : (s.pool.release h).disposed = s.pool.disposed :=
        congrArg Prod.snd (release_settings s.pool h)
      exact hs.imp id fun hDisposed => hSettings.trans hDisposed
    · exact hs

/-- A call waits with its waiter. -/
structure Pending (n : Nat) (w : WaiterId) (s : Session) : Prop where
  veiled : s.Veiled n w
  task : ∃ t, s.task? n = some t ∧ t.waiter = w

/-- A call that waited was given up. -/
structure Gone (n : Nat) (w : WaiterId) (s : Session) : Prop where
  veiled : s.Veiled n w
  task : s.task? n = none
  completed : s.pool.isCompleted w = true
  settled : s.Settled

theorem completes_useAll (s : Session) (uses : List Use) :
    s.pool.Completes (s.useAll uses).pool := by
  rw [useAll_pool]
  exact completes_applyAll s.pool _

theorem completes_use (s : Session) (u : Use) : s.pool.Completes (s.use u).pool :=
  completes_useAll s [u]

/-- A poll that does not complete the waiter finds the call waiting. -/
theorem use_poll_of_waiting (hTask : s.task? n = some t)
    (hNot : (s.use (.step (.poll n))).pool.isCompleted t.waiter = false) :
    s.use (.step (.poll n)) = s := by
  have hPerform : s.perform (.poll n) = s.pollTask t := by
    rw [perform, hTask]
  have hUse : s.use (.step (.poll n)) = (s.pollTask t).1.settle := by
    rw [← hPerform]
    rfl
  rcases pollTask_cases s t with ⟨-, hEq⟩ | hEq
  · rw [hUse, hEq]
    exact settle_of_mem (task?_eq_some hTask).1
  · have hLater : (s.pool.timeOut t.waiter).Completes (s.use (.step (.poll n))).pool := by
      have hCall : (s.pool.timeOut t.waiter).Completes (s.pollTask t).1.pool := by
        rw [hEq, advanceTask_pool]
        exact completes_applyAll _ _
      rw [hUse]
      exact hCall.trans (completes_settle _)
    cases hNot.symm.trans (hLater.isCompleted (isCompleted_timeOut s.pool t.waiter))

/-- Whoever gives a wait up has its waiter completed if nobody else has completed it. -/
theorem use_cancel_of_waiting (hTask : s.task? n = some t)
    (hNot : s.pool.isCompleted t.waiter = false) :
    s.use (.step (.cancel n)) =
      ({ s with pool := s.pool.complete t.waiter }.removeTask n).settle := by
  have hAbandon : s.pool.abandon t.waiter = s.pool.complete t.waiter := by
    rw [abandon, hNot, if_neg Bool.false_ne_true]
  have hPerform : s.perform (.cancel n) =
      ({ s with pool := s.pool.abandon t.waiter }.removeTask n, .existed true) := by
    rw [perform, hTask]
  show (s.perform (.cancel n)).1.settle = _
  rw [hPerform, hAbandon]

theorem removeTask_of_none (hNone : s.task? n = none) : s.removeTask n = s := by
  have hKept : s.tasks.filter (·.number != n) = s.tasks := by
    refine List.filter_eq_self.2 fun t ht => bne_iff_ne.2 fun hEq => ?_
    exact List.find?_eq_none.1 hNone t ht (beq_iff_eq.2 hEq)
  exact congrArg (fun tasks => ({ s with tasks } : Session)) hKept

/-- A use that is left out is mirrored if it changes nothing else. -/
theorem Mirrored.of_left_out (hUse : u.without n = none)
    (hSame : (s.use u).without n w = s.without n w) : s.Mirrored n w u where
  gone := fun _ => hSame
  kept := fun u' hKept => by
    rw [hUse] at hKept
    cases hKept

theorem Mirrored.of_kept {u' : Use} (hs : s.Veiled n w) (hUse : u.without n = some u')
    (hLeaves : Leaves w s.pool (s.use u).pool)
    (hHeld : ((s.use u).removeTask n).isHeld = (s.use u).isHeld) : s.Mirrored n w u where
  gone := fun hNone => by cases hUse.symm.trans hNone
  kept := fun _ hKept => use_without hs hKept hLeaves hHeld

/-- As long as nobody wakes it, a call that waits makes no difference to what others do. -/
theorem Pending.use (hs : s.Pending n w) (hNot : (s.use u).pool.isCompleted w = false)
    (hHeld : ((s.use u).removeTask n).isHeld = true) :
    s.Mirrored n w u ∧ (s.use u).Pending n w := by
  obtain ⟨hVeiled, t, hTask, rfl⟩ := hs
  cases hUse : u.without n with
  | some u' =>
    have hLeaves : Leaves t.waiter s.pool (s.use u).pool := fun hDone => by
      cases hNot.symm.trans hDone
    have hSame : ((s.use u).removeTask n).isHeld = (s.use u).isHeld :=
      hHeld.trans (isHeld_of_removeTask hHeld).symm
    exact ⟨.of_kept hVeiled hUse hLeaves hSame,
      hVeiled.use u, t, (hVeiled.task?_use hUse).trans hTask, rfl⟩
  | none =>
    have hSame : s.use u = s := by
      rcases eq_of_without_none hUse with rfl | rfl
      · exact use_poll_of_waiting hTask hNot
      · -- who gives the call up completes its waiter
        have hWaits := (completes_use s _).not_completed hNot
        have hDone : (s.pool.complete t.waiter).isCompleted t.waiter = true :=
          (isCompleted_complete _ _ _).2 (Or.inl rfl)
        rw [use_cancel_of_waiting hTask hWaits] at hNot
        cases hNot.symm.trans ((completes_settle _).isCompleted hDone)
    refine ⟨.of_left_out hUse (congrArg (·.without n t.waiter) hSame), ?_⟩
    rw [hSame]
    exact ⟨hVeiled, t, hTask, rfl⟩

/-- To give up a wait that was not completed changes nothing else. -/
theorem Pending.cancel (hs : s.Pending n w) (hNot : s.pool.isCompleted w = false)
    (hHeld : (s.removeTask n).isHeld = true) :
    s.Mirrored n w (.step (.cancel n)) ∧ (s.use (.step (.cancel n))).Gone n w := by
  obtain ⟨hVeiled, t, hTask, rfl⟩ := hs
  have hUse : Use.without n (.step (.cancel n)) = none := by
    simp [Use.without, Step.without]
  have hAfter : s.use (.step (.cancel n)) =
      { s with pool := s.pool.complete t.waiter }.removeTask n := by
    rw [use_cancel_of_waiting hTask hNot]
    exact settle_of_isHeld hHeld
  have hRemoved : ((s.removeTask n).removeTask n).tasks = (s.removeTask n).tasks :=
    congrArg Session.tasks (removeTask_of_none (task?_removeTask_self s n))
  have hSame : (s.use (.step (.cancel n))).without n t.waiter = s.without n t.waiter := by
    rw [hAfter]
    show ({ s.without n t.waiter with
      pool := (s.pool.complete t.waiter).without t.waiter
      tasks := ((s.removeTask n).removeTask n).tasks.map (·.without n t.waiter) } : Session) = _
    rw [without_complete, hRemoved]
    rfl
  refine ⟨.of_left_out hUse hSame, hVeiled.use _, ?_, ?_, ?_⟩
  · rw [hAfter]
    exact task?_removeTask_self _ n
  · rw [hAfter]
    exact (isCompleted_complete s.pool _ _).2 (Or.inl rfl)
  · rw [hAfter]
    exact Or.inl hHeld

/-- A call that was given up makes no difference any more. -/
theorem Gone.use (hs : s.Gone n w) (u : Use) : s.Mirrored n w u ∧ (s.use u).Gone n w := by
  have hDone : (s.use u).pool.isCompleted w = true := (completes_use s u).isCompleted hs.completed
  have hSettled := hs.settled.use u
  cases hUse : u.without n with
  | some u' =>
    have hTask : (s.use u).task? n = none := (hs.veiled.task?_use hUse).trans hs.task
    have hSame : ((s.use u).removeTask n).isHeld = (s.use u).isHeld := by
      rw [removeTask_of_none hTask]
    exact ⟨.of_kept hs.veiled hUse (fun _ => hs.completed) hSame,
      hs.veiled.use u, hTask, hDone, hSettled⟩
  | none =>
    have hSame : s.use u = s := by
      rcases eq_of_without_none hUse with rfl | rfl
      · show (s.perform (.poll n)).1.settle = s
        rw [perform, hs.task]
        exact hs.settled.settle_eq
      · show (s.perform (.cancel n)).1.settle = s
        rw [perform, hs.task]
        exact hs.settled.settle_eq
    refine ⟨.of_left_out hUse (congrArg (·.without n w) hSame), ?_⟩
    rw [hSame]
    exact hs

/-! ## Runs -/

/-- As long as nobody completes the waiter, the call keeps waiting, and every use comes to the same
without it. -/
theorem Pending.useAll {uses : List Use} (hs : s.Pending n w)
    (hNot : (s.useAll uses).pool.isCompleted w = false)
    (hHeld : ∀ part, part <+: uses → ((s.useAll part).removeTask n).isHeld = true) :
    (∀ v ∈ s.visits uses, v.1.Mirrored n w v.2) ∧ (s.useAll uses).Pending n w := by
  induction uses generalizing s with
  | nil => exact ⟨nofun, hs⟩
  | cons u uses ih =>
    have hFirst := (completes_useAll (s.use u) uses).not_completed hNot
    have hOne : [u] <+: u :: uses := List.cons_prefix_cons.2 ⟨rfl, List.nil_prefix⟩
    obtain ⟨hMirrored, hNext⟩ := hs.use hFirst (hHeld [u] hOne)
    obtain ⟨hRest, hLast⟩ := ih hNext hNot fun part hPart =>
      hHeld (u :: part) (List.cons_prefix_cons.2 ⟨rfl, hPart⟩)
    refine ⟨fun v hv => ?_, hLast⟩
    rcases List.mem_cons.1 hv with rfl | hv
    · exact hMirrored
    · exact hRest v hv

/-- After a call was given up, every use comes to the same without it. -/
theorem Gone.visits (hs : s.Gone n w) (uses : List Use) :
    ∀ v ∈ s.visits uses, v.1.Mirrored n w v.2 := by
  induction uses generalizing s with
  | nil => exact nofun
  | cons u uses ih =>
    intro v hv
    obtain ⟨hMirrored, hNext⟩ := hs.use u
    rcases List.mem_cons.1 hv with rfl | hv
    · exact hMirrored
    · exact ih hNext v hv

/-- What some uses meet is what the first ones meet and then the others. -/
theorem visits_append (s : Session) (uses uses' : List Use) :
    s.visits (uses ++ uses') = s.visits uses ++ (s.useAll uses).visits uses' := by
  induction uses generalizing s with
  | nil => rfl
  | cons u uses ih => exact congrArg ((s, u) :: ·) (ih (s.use u))

/-- A run comes to the same where a call is left out, if each of its uses does. -/
theorem useAll_without (uses : List Use) (hAll : ∀ v ∈ s.visits uses, v.1.Mirrored n w v.2) :
    (s.without n w).useAll (uses.filterMap (Use.without n)) = (s.useAll uses).without n w := by
  induction uses generalizing s with
  | nil => rfl
  | cons u uses ih =>
    have hFirst : s.Mirrored n w u := hAll (s, u) List.mem_cons_self
    have hRest := ih fun v hv => hAll v (List.mem_cons_of_mem _ hv)
    cases hUse : u.without n with
    | none =>
      rw [List.filterMap_cons_none hUse, ← hFirst.gone hUse]
      exact hRest
    | some u' =>
      rw [List.filterMap_cons_some hUse]
      show ((s.without n w).use u').useAll _ = _
      rw [(hFirst.kept u' hUse).1]
      exact hRest

/-! ## Calls that wait in vain -/

/-- A call that is begun has to wait, and nobody wakes it in the course of some uses, during which
the pool does not live by this call alone. -/
structure WaitsInVain (s : Session) (guarded : Bool) (during : List Use) : Prop where
  waits : ((s.use (.step (.start guarded))).task? s.started).isSome = true
  unwoken :
    ((s.use (.step (.start guarded))).useAll during).pool.isCompleted s.pool.waiterCount = false
  held : ∀ part, part <+: during →
    (((s.use (.step (.start guarded))).useAll part).removeTask s.started).isHeld = true

/-- The handle of a pool is there until it is dropped. -/
theorem useAll_owned {uses : List Use} (hOwned : s.owned = true)
    (hNot : .step .dropPool ∉ uses) : (s.useAll uses).owned = true := by
  induction uses generalizing s with
  | nil => exact hOwned
  | cons u uses ih =>
    obtain ⟨hFirst, hRest⟩ := not_or.1 (mt List.mem_cons.2 hNot)
    refine ih ?_ hRest
    cases u with
    | step st =>
      have hKeeps : st ≠ .dropPool := fun hEq => hFirst (hEq ▸ rfl)
      show (s.perform st).1.settle.owned = true
      rw [(settle_frame _).2, (s.performs st).frame.2 hKeeps]
      exact hOwned
    | giveBack h =>
      rw [use]
      split <;> exact hOwned

/-- The handle of the pool, which every call borrows, keeps the pool alive. -/
theorem WaitsInVain.of_owned {during : List Use}
    (hWaits : ((s.use (.step (.start guarded))).task? s.started).isSome = true)
    (hUnwoken : ((s.use (.step (.start guarded))).useAll during).pool.isCompleted
      s.pool.waiterCount = false)
    (hOwned : s.owned = true) (hNot : .step .dropPool ∉ during) :
    s.WaitsInVain guarded during where
  waits := hWaits
  unwoken := hUnwoken
  held := by
    intro part hPart
    have hBorrowed : (s.useAll (.step (.start guarded) :: part)).owned = true := by
      refine useAll_owned hOwned fun hMem => ?_
      rcases List.mem_cons.1 hMem with hEq | hMem
      · cases hEq
      · exact hNot (hPart.subset hMem)
    have hStill : (((s.use (.step (.start guarded))).useAll part).removeTask s.started).owned =
        true := hBorrowed
    rw [isHeld, hStill]
    rfl

/-- A call that has to wait is queued in its first attempt. -/
theorem use_start_of_waiting
    (hWaits : ((s.use (.step (.start guarded))).task? s.started).isSome = true) :
    ∃ (r : Pool) (v : WaiterId) (deadline : Nat), s.pool.attempt = (r, .queued v) ∧
      s.use (.step (.start guarded)) =
        ({ s with pool := r, started := s.started + 1 } : Session).putTask
          { number := s.started, waiter := v, deadline, guarded } := by
  let begun : Session := { s with started := s.started + 1 }
  have hUse : s.use (.step (.start guarded)) =
      (begun.advanceTask s.started guarded).1.settle := rfl
  rcases advanceTask_cases begun s.started guarded with
    ⟨r, handles, -, hEq⟩ | ⟨r, v, d, hAttempt, hEq⟩
  · rw [hUse, task?_settle, hEq] at hWaits
    cases (congrArg Option.isSome (task?_removeTask_self s s.started)).symm.trans hWaits
  · have hFound := task?_putTask { begun with pool := r }
      { number := s.started, waiter := v, deadline := d, guarded }
    refine ⟨r, v, d, hAttempt, ?_⟩
    rw [hUse, hEq]
    exact settle_of_mem (task?_eq_some hFound).1

/-- The session in which a call has just begun to wait is the one before, but for the call, if no
idle connection had to be evicted. -/
theorem start_of_waiting (hs : s.Enrolled) (hList : s.Enlisted)
    (hNone : s.pool.idle = [])
    (hWaits : ((s.use (.step (.start guarded))).task? s.started).isSome = true) :
    (s.use (.step (.start guarded))).without s.started s.pool.waiterCount = s ∧
      (s.use (.step (.start guarded))).Pending s.started s.pool.waiterCount := by
  obtain ⟨r, v, d, hAttempt, hAfter⟩ := use_start_of_waiting hWaits
  obtain ⟨rfl, rfl⟩ := attempt_of_queued hNone hAttempt
  let t : Task := { number := s.started, waiter := s.pool.waiterCount, deadline := d, guarded }
  let queued : Session := { s with pool := s.pool.enqueue.1, started := s.started + 1 }
  have hOthers : ((queued.putTask t).removeTask s.started).tasks = s.tasks :=
    (removeTask_putTask queued t).trans hList.removeTask_started
  have hTasks : s.tasks.map (·.without s.started s.pool.waiterCount) = s.tasks := by
    refine (List.map_congr_left fun u hu => ?_).trans (List.map_id _)
    have hNumber := renumber_of_lt (hList.lt u hu)
    have hWaiter := renumber_of_lt (hs.attended.queued u hu)
    rw [Task.without, hNumber, hWaiter]
    rfl
  rw [hAfter]
  refine ⟨?_, ⟨?_, ?_, fun m hm u hu => ?_⟩, t, task?_putTask queued t, rfl⟩
  · show ({ queued.putTask t with
      pool := (queued.putTask t).pool.without s.pool.waiterCount
      tasks := ((queued.putTask t).removeTask s.started).tasks.map
        (·.without s.started s.pool.waiterCount)
      started := (queued.putTask t).started - 1 } : Session) = s
    rw [hOthers, hTasks, putTask_pool, putTask_started, hs.numbered.without_last, putTask_eq]
    rfl
  · rw [putTask_pool]
    exact Nat.lt_succ_self _
  · rw [putTask_started]
    exact Nat.lt_succ_self _
  · rw [task?_putTask_of_ne hm] at hu
    exact Nat.ne_of_lt (hs.attended.queued u (task?_eq_some hu).1)

/-! ## Traces of a call -/

/-- A call that is begun, and given up after some uses, makes no difference. Without anything that
it does, the pool is the same at every moment but for the line, in which every other waiter is
completed at the same moment, and everybody else is answered the same. -/
def LeavesNoTrace (s : Session) (guarded : Bool) (during after : List Use) : Prop :=
  let n := s.started
  let w := s.pool.waiterCount
  let d := s.use (.step (.start guarded))
  let rest := during ++ .step (.cancel n) :: after
  (∀ part, part <+: rest →
    let a := d.useAll part
    let b := s.useAll (part.filterMap (Use.without n))
    b = a.without n w ∧ b.pool = a.pool.relined b.pool.line ∧
      ∀ v ≠ w, b.pool.isCompleted (renumber w v) = a.pool.isCompleted v) ∧
    ∀ part u u', part ++ [u] <+: rest → u.without n = some u' →
      (s.useAll (part.filterMap (Use.without n))).answer u' =
        ((d.useAll part).answer u).without n

variable {during after : List Use}

/-- A wait in vain makes no difference where no connection was evicted for it. -/
theorem WaitsInVain.leavesNoTrace (hVain : s.WaitsInVain guarded during) (hs : s.Enrolled)
    (hList : s.Enlisted) (hNone : s.pool.idle = []) : s.LeavesNoTrace guarded during after := by
  unfold LeavesNoTrace
  intro n w d rest
  obtain ⟨hBegun, hPending⟩ := start_of_waiting hs hList hNone hVain.waits
  obtain ⟨hDuring, hWaiting⟩ := hPending.useAll hVain.unwoken hVain.held
  obtain ⟨hCancel, hGone⟩ :=
    hWaiting.cancel hVain.unwoken (hVain.held during (List.prefix_refl during))
  -- the call waits, is given up, and is gone
  have hAll : ∀ v ∈ d.visits rest, v.1.Mirrored n w v.2 := by
    intro v hv
    rw [visits_append] at hv
    rcases List.mem_append.1 hv with hv | hv
    · exact hDuring v hv
    · rcases List.mem_cons.1 hv with rfl | hv
      · exact hCancel
      · exact hGone.visits after v hv
  have hPart : ∀ part, part <+: rest →
      s.useAll (part.filterMap (Use.without n)) = (d.useAll part).without n w := by
    rintro part ⟨later, hRest⟩
    have hMirrored : ∀ v ∈ d.visits part, v.1.Mirrored n w v.2 := by
      intro v hv
      refine hAll v ?_
      rw [← hRest, visits_append]
      exact List.mem_append_left _ hv
    have hSame := useAll_without part hMirrored
    rw [show d.without n w = s from hBegun] at hSame
    exact hSame
  refine ⟨fun part hPrefix => ?_, fun part u u' hPrefix hUse => ?_⟩
  · intro a b
    have hSame : b = a.without n w := hPart part hPrefix
    rw [hSame]
    exact ⟨rfl, rfl, fun v hv => isCompleted_without a.pool hv⟩
  · have hBefore : part <+: rest := (List.prefix_append part [u]).trans hPrefix
    obtain ⟨later, hRest⟩ := hPrefix
    have hVisited : (d.useAll part, u) ∈ d.visits rest := by
      rw [← hRest, List.append_assoc, visits_append]
      exact List.mem_append_right _ List.mem_cons_self
    rw [hPart part hBefore]
    exact ((hAll _ hVisited).kept u' hUse).2

/-- A call that has to wait leaves no connection idle, so that those that were idle before tell of
it. -/
theorem WaitsInVain.idle_of_leavesNoTrace (hVain : s.WaitsInVain guarded during)
    (hTrace : s.LeavesNoTrace guarded during after) : s.pool.idle = [] := by
  obtain ⟨r, v, d, hAttempt, hAfter⟩ := use_start_of_waiting hVain.waits
  obtain ⟨q, -, hNone, -, -, rfl, -⟩ := attempt_queued hAttempt
  have hPool : (s.use (.step (.start guarded))).pool = q.enqueue.1 := by
    rw [hAfter, putTask_pool]
  have hSame : s.pool = (s.use (.step (.start guarded))).pool.relined s.pool.line :=
    (hTrace.1 [] List.nil_prefix).2.1
  rw [hPool] at hSame
  rw [hSame]
  exact hNone

/-- A call that waits in vain and is given up leaves no trace exactly if no connection was idle when
it was begun: any that was then is dead, and is evicted for the call. As long as the factory gives
each connection the id that it is told, this is so if no connection has come back to life before,
and if callers have given back only what they held. -/
theorem abandoned_wait_leaves_no_trace_iff (endpoint : Endpoint) (config : PoolConfig)
    (factory : List FactoryOutcome) (before : List Use) (guarded : Bool) (during after : List Use)
    (hVain : (useAll { pool := fresh endpoint config factory } before).WaitsInVain guarded
      during) :
    let s := useAll { pool := fresh endpoint config factory } before
    (s.LeavesNoTrace guarded during after ↔ s.pool.idle = []) ∧
      (KeepsIds 1 factory →
        ((∀ h, .step (.revive h) ∉ before) ∨
          ∃ steps, before = steps.map .step ∧
            (Custody.start endpoint config factory).Honest steps) →
        s.LeavesNoTrace guarded during after) := by
  intro s
  have hs : s.Enrolled := (enrolled_fresh endpoint config factory).useAll before
  have hList : s.Enlisted := ((enlisted_fresh endpoint config factory).useAll before).1
  refine ⟨⟨hVain.idle_of_leavesNoTrace, hVain.leavesNoTrace hs hList⟩, fun hIds hBefore => ?_⟩
  refine hVain.leavesNoTrace hs hList ?_
  obtain ⟨r, v, d, hAttempt, -⟩ := use_start_of_waiting hVain.waits
  have hOpen : s.pool.disposed = false := open_of_queued hAttempt
  rcases hBefore with hDie | ⟨steps, hSteps, hHonest⟩
  · exact (mortal_useAll (mortal_fresh endpoint config hIds) hDie hOpen).idle_of_queued hAttempt
  · have hRun : ((Custody.start endpoint config factory).run steps).session = s := by
      rw [Custody.run_session]
      show _ = useAll _ before
      rw [hSteps]
      exact (List.foldl_map (f := Use.step) (g := use)).symm
    have hReached := Custody.reached_run endpoint config factory steps hHonest
    rw [hRun] at hReached
    obtain ⟨⟨held, hOwned⟩, -⟩ := hReached.owned hIds hOpen
    exact hOwned.idle_of_queued hAttempt

/-- Of two calls that wait for the only connection the first one is given up, and the second one is
served as if it had been the only one. -/
theorem given_up_and_served :
    let s := useAll { pool := fresh ⟨.v4 [127, 0, 0, 1], 11210⟩ { maxSize := 1 } [] }
      [.step (.acquire true)]
    let a := s.useAll [.step (.start false), .step (.start false), .step (.poll 0),
      .step (.cancel 0), .step (.drop 0), .step (.poll 1)]
    let b := s.useAll [.step (.start false), .step (.drop 0), .step (.poll 0)]
    b = a.without 0 0 ∧ a.slots = [none, some ⟨0, false⟩] := by
  have hIds : KeepsIds 1 [] := by
    intro i dead id hAt
    cases hAt
  have hTrace := (abandoned_wait_leaves_no_trace_iff ⟨.v4 [127, 0, 0, 1], 11210⟩ { maxSize := 1 } []
    [.step (.acquire true)] false [.step (.start false), .step (.poll 0)]
    [.step (.drop 0), .step (.poll 1)]
    (WaitsInVain.of_owned (by decide +kernel) (by decide +kernel) (by decide +kernel)
      (by simp))).2 hIds (Or.inl (by simp))
  refine ⟨?_, by decide +kernel⟩
  exact (hTrace.1 _ (List.prefix_refl _)).1

/-- A connection is closed when it is given back dead, comes back to life, is given back once more
and dies again. It is idle then, until a call evicts it that has to wait for another connection and
is given up at once. -/
theorem evicted_by_a_wait_in_vain :
    let s := useAll { pool := fresh ⟨.v4 [127, 0, 0, 1], 11210⟩ { maxSize := 1 } [] }
      [.step (.acquire false), .step (.kill 0), .step (.release 0), .step (.acquire false),
        .step (.revive 0), .step (.release 0), .step (.kill 0)]
    s.WaitsInVain false [] ∧ ¬ s.LeavesNoTrace false [] [] ∧ s.pool.idle = [0] ∧
      (s.useAll [.step (.start false), .step (.cancel 0)]).pool.idle = [] := by
  intro s
  have hVain : s.WaitsInVain false [] :=
    .of_owned (by decide +kernel) (by decide +kernel) (by decide +kernel) List.not_mem_nil
  have hIdle : s.pool.idle = [0] := by decide +kernel
  refine ⟨hVain, fun hTrace => ?_, hIdle, by decide +kernel⟩
  cases (hVain.idle_of_leavesNoTrace hTrace).symm.trans hIdle

end Session

end StoreClient
