import StoreClient.Proofs.Pool.Journal
import StoreClient.Proofs.Pool.Tasks
import Mathlib.Data.Finset.Max

/-!
# Wakeups that come to nothing

A release wakes one caller, who then tries to get a connection. If the caller has given its wait up
by then, the wakeup goes to the next one. It does not if the connection was dead and the factory
fails to make another one: the caller is refused, and whoever waits behind it keeps waiting, in a
pool with room for a connection.
-/

namespace StoreClient.Session

open Pool

variable {s : Session} {n : Nat} {t u : Task} {e : PoolError}

/-- Among the pending tasks other than one, this one has been waiting longest. -/
def WaitsLongest (s : Session) (n : Nat) (u : Task) : Prop :=
  (u ∈ s.tasks ∧ u.number ≠ n ∧ s.pool.isCompleted u.waiter = false) ∧
    ∀ v ∈ s.tasks, v.number ≠ n → s.pool.isCompleted v.waiter = false → u.waiter ≤ v.waiter

instance (s : Session) (n : Nat) (u : Task) : Decidable (s.WaitsLongest n u) :=
  inferInstanceAs (Decidable (_ ∧ _))

/-- If any other task waits, one of them has been waiting longest. -/
theorem exists_waitsLongest (hu : u ∈ s.tasks) (hNe : u.number ≠ n)
    (hWaits : s.pool.isCompleted u.waiter = false) : ∃ v, s.WaitsLongest n v := by
  let waiting := s.tasks.toFinset.filter fun v => v.number ≠ n ∧ s.pool.isCompleted v.waiter = false
  have hMem (v : Task) : v ∈ waiting ↔
      v ∈ s.tasks ∧ v.number ≠ n ∧ s.pool.isCompleted v.waiter = false := by
    simp [waiting]
  obtain ⟨v, hv, hFirst⟩ :=
    Finset.exists_min_image waiting (·.waiter) ⟨u, (hMem u).2 ⟨hu, hNe, hWaits⟩⟩
  refine ⟨v, (hMem v).1 hv, fun w hw hOther hWaiting => ?_⟩
  exact hFirst w ((hMem w).2 ⟨hw, hOther, hWaiting⟩)

/-- What a poll leaves behind that sees the factory fail after its task was woken: no connection is
idle, there is room for one, and the waiters of others are as they were. -/
theorem poll_of_failed (hs : s.Enrolled) (hOpen : s.pool.disposed = false)
    (hTask : s.task? n = some t) (hWoken : s.pool.isCompleted t.waiter = true)
    (hError : (s.step (.poll n)).2.error? = some e)
    (hFailed : (s.pool.events (s.useOps (.step (.poll n)))).getLast? = some (.failed e)) :
    ∃ r : Pool, (s.perform (.poll n)).1 = { s with pool := r }.removeTask n ∧ r.idle = [] ∧
      r.liveCount < r.config.maxSize ∧
      ∀ w < s.pool.waiterCount, r.isCompleted w = s.pool.isCompleted w := by
  have hNumber : t.number = n := (task?_eq_some hTask).2
  have hPoll : s.perform (.poll n) = s.advanceTask n t.guarded := by
    rw [perform, hTask]
    dsimp only
    rw [pollTask, if_pos hWoken, hNumber]
  have hOps : s.performOps (.poll n) = s.pool.callStepOps := by
    rw [performOps, hTask]
    exact if_pos hWoken
  have hRefused : (s.advanceTask n t.guarded).2.error? = some e := by
    rw [← hPoll]
    exact hError
  have hStep : s.pool.acquireStep = (s.pool.acquireStep.1, .done (.error e)) :=
    Prod.ext rfl (acquireStep_of_error hRefused)
  obtain ⟨q, before, hOwn, hLast, hPool, hEvents⟩ := advanceTask_error hs.numbered hRefused
  have hStill : q.disposed = false := (congrArg Prod.snd hOwn.settings).trans hOpen
  rw [events_step, hOps, hEvents] at hFailed
  have hEnd : q.attemptEvents.getLast? = some (.failed e) := by
    rcases attemptEvents_of_refused hLast hStill with ⟨hEvent, -⟩ | hEvent
    · rw [hEvent]
      rfl
    · rw [hEvent, List.getLast?_concat] at hFailed
      cases hFailed
  obtain ⟨hIdle, hRoom, hLine⟩ := attempt_of_failed hEnd
  refine ⟨q.attempt.1, ?_, hIdle, hRoom, fun w hw => ?_⟩
  · rw [hPoll, advanceTask, hStep, ← applyAll_callStepOps, hPool]
    rfl
  · rw [isCompleted_congr hLine, hOwn.others w hw]

/-- A task that was woken is polled and sees the factory fail. Whoever else waits is not woken in
its place and keeps waiting, although no connection is idle and there is room for one. So the wakeup
is handed on to the task that has been waiting longest exactly if no other task waits. -/
theorem failed_wakeup_handed_on_iff (endpoint : Endpoint) (config : PoolConfig)
    (factory : List FactoryOutcome) (uses : List Use) (n : Nat) (t : Task) (e : PoolError)
    (hOpen : (useAll { pool := fresh endpoint config factory } uses).pool.disposed = false)
    (hTask : (useAll { pool := fresh endpoint config factory } uses).task? n = some t)
    (hWoken : (useAll { pool := fresh endpoint config factory } uses).pool.isCompleted t.waiter =
      true)
    (hError : ((useAll { pool := fresh endpoint config factory } uses).step (.poll n)).2.error? =
      some e)
    (hFailed : ((useAll { pool := fresh endpoint config factory } uses).pool.events
      ((useAll { pool := fresh endpoint config factory } uses).useOps
        (.step (.poll n)))).getLast? = some (.failed e)) :
    let s := useAll { pool := fresh endpoint config factory } uses
    let after := (s.step (.poll n)).1
    (∀ u ∈ s.tasks, u.number ≠ n → s.pool.isCompleted u.waiter = false →
        u ∈ after.tasks ∧ after.pool.isCompleted u.waiter = false ∧ after.pool.idle = [] ∧
          after.pool.liveCount < config.maxSize) ∧
      ((∀ u, s.WaitsLongest n u → after.pool.isCompleted u.waiter = true) ↔
        ∀ u ∈ s.tasks, u.number ≠ n → s.pool.isCompleted u.waiter = true) := by
  intro s after
  have hs : s.Enrolled := (enrolled_fresh endpoint config factory).useAll uses
  have hConfig : after.pool.config = config := by
    have hAfter : after = s.useAll [.step (.poll n)] := rfl
    rw [hAfter, ← useAll_append]
    exact useAll_induction (P := fun p => p.config = config)
      (fun p op hp => (apply_config p op).trans hp) rfl _
  obtain ⟨r, hPoll, hIdle, hRoom, hOthers⟩ := poll_of_failed hs hOpen hTask hWoken hError hFailed
  have hKeep : ∀ u ∈ s.tasks, u.number ≠ n → s.pool.isCompleted u.waiter = false →
      u ∈ after.tasks ∧ after.pool.isCompleted u.waiter = false ∧ after.pool.idle = [] ∧
        after.pool.liveCount < config.maxSize := by
    intro u hu hNe hWaits
    have hLeft : u ∈ ({ s with pool := r }.removeTask n).tasks :=
      List.mem_filter.2 ⟨hu, bne_iff_ne.2 hNe⟩
    have hAfter : after = { s with pool := r }.removeTask n := by
      change (s.perform (.poll n)).1.settle = _
      rw [hPoll]
      exact settle_of_task ((settle_tasks _).symm ▸ hLeft)
    have hWaiter : r.isCompleted u.waiter = false :=
      (hOthers _ (hs.attended.queued u hu)).trans hWaits
    rw [hAfter] at hConfig ⊢
    rw [← hConfig]
    exact ⟨hLeft, hWaiter, hIdle, hRoom⟩
  refine ⟨hKeep, fun hHanded u hu hNe => ?_, fun hNone u hu => ?_⟩
  · -- somebody else waits longest if anybody does
    by_contra hNot
    have hWaits : s.pool.isCompleted u.waiter = false := Bool.eq_false_iff.2 hNot
    obtain ⟨v, hv⟩ := exists_waitsLongest hu hNe hWaits
    obtain ⟨hMem, hOther, hWaiting⟩ := hv.1
    cases (hKeep v hMem hOther hWaiting).2.1.symm.trans (hHanded v hv)
  · obtain ⟨hMem, hOther, hWaiting⟩ := hu.1
    cases hWaiting.symm.trans (hNone u hMem hOther)

/-- The only connection dies and is given back, so that the first of three tasks is woken, and the
factory fails for it. The last one still waits. -/
theorem last_waits_after_failure :
    let after := (step
      (useAll
        { pool := fresh ⟨.v4 [127, 0, 0, 1], 11210⟩ { maxSize := 1 }
            [.connection, .failure (.connect "refused")] }
        [.step (.acquire false), .step (.start false), .step (.start false), .step (.start true),
          .step (.kill 0), .step (.release 0)]) (.poll 0)).1
    after.pool.isCompleted 2 = false ∧ after.pool.liveCount < 1 := by
  obtain ⟨hKeep, -⟩ :=
    failed_wakeup_handed_on_iff ⟨.v4 [127, 0, 0, 1], 11210⟩ { maxSize := 1 }
      [.connection, .failure (.connect "refused")]
      [.step (.acquire false), .step (.start false), .step (.start false), .step (.start true),
        .step (.kill 0), .step (.release 0)]
      0 { number := 0, waiter := 0, deadline := 2500, guarded := false } (.connect "refused")
      (by decide +kernel) (by decide +kernel) (by decide +kernel) (by decide +kernel)
      (by decide +kernel)
  obtain ⟨-, hWaits, -, hRoom⟩ :=
    hKeep { number := 2, waiter := 2, deadline := 2500, guarded := true } (by decide +kernel)
      (by decide) (by decide +kernel)
  exact ⟨hWaits, hRoom⟩

/-- The second of two tasks has been waiting longest when the first one sees the factory fail, and
is not woken. -/
theorem wakeup_lost_by_failure :
    let s := useAll
      { pool := fresh ⟨.v4 [127, 0, 0, 1], 11210⟩ { maxSize := 1 }
          [.connection, .failure (.connect "refused")] }
      [.step (.acquire false), .step (.start false), .step (.start false), .step (.kill 0),
        .step (.release 0)]
    let after := (s.step (.poll 0)).1
    s.pool.disposed = false ∧ s.pool.isCompleted 0 = true ∧
      (s.step (.poll 0)).2.error? = some (.connect "refused") ∧
      s.WaitsLongest 0 { number := 1, waiter := 1, deadline := 2500, guarded := false } ∧
      after.pool.isCompleted 1 = false ∧ after.pool.idle = [] ∧ after.pool.liveCount = 0 := by
  decide +kernel

end StoreClient.Session
