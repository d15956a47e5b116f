import StoreClient.Proofs.Pool.Parts
import Mathlib.Data.Nat.Basic
import Mathlib.Order.Basic

/-!
# Waiting for a connection

A waiter gets the next number when its caller is queued, and is completed later on, if ever. Waking
looks for the first waiter in the queue that was not completed. A call that blocks its caller
attempts to get a connection until it is not queued any more; in between it is queued and times out.
-/

namespace StoreClient.Pool

open Relation

variable {p q : Pool}

/-! ## Completed waiters -/

theorem isCompleted_congr (h : q.line = p.line) (w : WaiterId) :
    q.isCompleted w = p.isCompleted w :=
  congrArg (fun l => l.completed.contains w) h

theorem isCompleted_cons {v : WaiterId} (h : q.completed = v :: p.completed) (w : WaiterId) :
    q.isCompleted w = true ↔ w = v ∨ p.isCompleted w = true := by
  simp [isCompleted, h]

theorem not_completed_of_cons {v w : WaiterId} (h : q.completed = v :: p.completed)
    (hNot : q.isCompleted w = false) : w ≠ v ∧ p.isCompleted w = false := by
  refine ⟨fun hEq => ?_, Bool.eq_false_iff.2 fun hDone => ?_⟩
  · cases hNot.symm.trans ((isCompleted_cons h w).2 (Or.inl hEq))
  · cases hNot.symm.trans ((isCompleted_cons h w).2 (Or.inr hDone))

theorem complete_of_not_completed {w : WaiterId} (h : p.isCompleted w = false) :
    p.complete w = { p with completed := w :: p.completed } := by
  have hNot : ¬ p.isCompleted w = true := by
    rw [h]
    exact Bool.false_ne_true
  rw [complete, if_neg hNot]

/-- A wakeup drops the waiters that were completed before, and completes the first other one. -/
theorem wakeNext_cases (p : Pool) :
    ((∀ w ∈ p.queue, p.isCompleted w = true) ∧ p.wakeNext = { p with queue := [] }) ∨
    ∃ done w rest, p.queue = done ++ w :: rest ∧ (∀ v ∈ done, p.isCompleted v = true) ∧
      p.isCompleted w = false ∧
      p.wakeNext = { p with queue := rest, completed := w :: p.completed } := by
  have hSplit := List.takeWhile_append_dropWhile (p := p.isCompleted) (l := p.queue)
  have hDone : ∀ v ∈ p.queue.takeWhile p.isCompleted, p.isCompleted v = true :=
    List.all_eq_true.1 List.all_takeWhile
  unfold wakeNext
  cases hDrop : p.queue.dropWhile p.isCompleted with
  | nil =>
    rw [hDrop, List.append_nil] at hSplit
    rw [hSplit] at hDone
    exact Or.inl ⟨hDone, rfl⟩
  | cons w rest =>
    have hNot : p.isCompleted w = false := by
      have hHead := List.head_dropWhile_not p.isCompleted (l := p.queue)
        (by rw [hDrop]; exact List.cons_ne_nil w rest)
      simpa only [hDrop, List.head_cons] using hHead
    refine Or.inr ⟨_, w, rest, ?_, hDone, hNot, ?_⟩
    · rw [← hDrop, hSplit]
    · have hNot' : ({ p with queue := rest } : Pool).isCompleted w = false := hNot
      exact complete_of_not_completed hNot'

/-- A wait that was completed in time does not time out. -/
theorem timeOut_of_completed {w : WaiterId} (h : p.isCompleted w = true) : p.timeOut w = p := by
  unfold timeOut
  rw [if_pos h]

/-- A wait that times out is counted as a failure. -/
theorem timeOut_of_not_completed {w : WaiterId} (h : p.isCompleted w = false) :
    ∃ metrics log, p.timeOut w =
      { p with completed := w :: p.completed, failures := p.failures + 1, metrics, log } := by
  have hNot : ¬ p.isCompleted w = true := by
    rw [h]
    exact Bool.false_ne_true
  unfold timeOut
  rw [if_neg hNot, complete_of_not_completed h]
  exact ⟨_, _, rfl⟩

theorem timeOut_line (p : Pool) (w : WaiterId) : (p.timeOut w).line = (p.complete w).line := by
  cases hDone : p.isCompleted w with
  | true => rw [timeOut_of_completed hDone, complete, if_pos hDone]
  | false =>
    obtain ⟨metrics, log, hEq⟩ := timeOut_of_not_completed hDone
    rw [hEq, complete_of_not_completed hDone]
    rfl

/-! ## Numbers of waiters -/

/-- All waiters have a number that was given out. -/
structure Numbered (p : Pool) : Prop where
  queue : ∀ w ∈ p.queue, w < p.waiterCount
  completed : ∀ w ∈ p.completed, w < p.waiterCount

/-- The numbers of waiters are a matter of the line alone. -/
theorem Numbered.congr (hp : p.Numbered) (h : q.line = p.line) : q.Numbered := by
  have hQueue : q.queue = p.queue := congrArg Line.queue h
  have hCount : q.waiterCount = p.waiterCount := congrArg Line.waiterCount h
  have hCompleted : q.completed = p.completed := congrArg Line.completed h
  refine ⟨?_, ?_⟩
  · rw [hQueue, hCount]
    exact hp.queue
  · rw [hCompleted, hCount]
    exact hp.completed

/-- The next number has not been given out, so no waiter of it is completed. -/
theorem Numbered.fresh (hp : p.Numbered) : p.isCompleted p.waiterCount = false := by
  refine Bool.eq_false_iff.2 fun h => ?_
  have hMem : p.waiterCount ∈ p.completed := List.contains_iff_mem.1 h
  exact Nat.lt_irrefl _ (hp.completed _ hMem)

theorem Numbered.enqueue (hp : p.Numbered) : p.enqueue.1.Numbered := by
  refine ⟨fun w hw => ?_, fun w hw => Nat.lt_succ_of_lt (hp.completed w hw)⟩
  rcases List.mem_append.1 hw with hw | hw
  · exact Nat.lt_succ_of_lt (hp.queue w hw)
  · rw [List.mem_singleton.1 hw]
    exact Nat.lt_succ_self _

theorem Numbered.complete (hp : p.Numbered) {w : WaiterId} (hw : w < p.waiterCount) :
    (p.complete w).Numbered := by
  unfold Pool.complete
  split
  · exact hp
  · refine ⟨hp.queue, fun v hv => ?_⟩
    rcases List.mem_cons.1 hv with rfl | hv
    · exact hw
    · exact hp.completed v hv

/-- Only waiters that were numbered are woken up. -/
theorem Numbered.wakeNext (hp : p.Numbered) : p.wakeNext.Numbered := by
  rcases wakeNext_cases p with ⟨-, h⟩ | ⟨done, w, rest, hQueue, -, -, h⟩
  · rw [h]
    exact ⟨fun w hw => absurd hw List.not_mem_nil, hp.completed⟩
  · have hMem : ∀ v ∈ w :: rest, v < p.waiterCount := fun v hv =>
      hp.queue v (by rw [hQueue]; exact List.mem_append_right _ hv)
    rw [h]
    refine ⟨fun v hv => hMem v (List.mem_cons_of_mem _ hv), fun v hv => ?_⟩
    rcases List.mem_cons.1 hv with rfl | hv
    · exact hMem v List.mem_cons_self
    · exact hp.completed v hv

theorem Numbered.timeOut (hp : p.Numbered) {w : WaiterId} (hw : w < p.waiterCount) :
    (p.timeOut w).Numbered := by
  unfold Pool.timeOut
  split
  · exact hp
  · exact (hp.complete hw).congr rfl

/-! ## Calls that block -/

/-- Nobody is queued at a pool that has been disposed of. -/
theorem open_of_queued {r : Pool} {w : WaiterId} (h : p.attempt = (r, .queued w)) :
    p.disposed = false := by
  cases hDisposed : p.disposed with
  | false => rfl
  | true => cases (attempt_of_disposed hDisposed).symm.trans h

/-- A caller is queued only where no connection is idle and there is no room for one. -/
theorem attempt_queued {r : Pool} {w : WaiterId} (h : p.attempt = (r, .queued w)) :
    ∃ q, ReflTransGen EvictsFirst p q ∧ q.idle = [] ∧ q.config.maxSize ≤ q.liveCount ∧
      q.failures < q.config.maxAcquireRetryCount ∧ r = q.enqueue.1 ∧ w = q.waiterCount := by
  obtain ⟨q, hEvicts, hEnd⟩ := attempt_cases (open_of_queued h)
  rcases hEnd with ⟨h', rest, -, -, hEnd⟩ | ⟨-, -, hEnd⟩ | ⟨hIdle, hFull, hFailures, hEnd⟩ |
    ⟨-, -, -, hEnd⟩
  · cases hEnd.symm.trans h
  · rcases grow_cases q with ⟨q', e, -, hGrow⟩ | ⟨q', h', -, hGrow⟩
    · cases hGrow.symm.trans (hEnd.symm.trans h)
    · cases hGrow.symm.trans (hEnd.symm.trans h)
  · cases hEnd.symm.trans h
    exact ⟨q, hEvicts, hIdle, hFull, hFailures, rfl, rfl⟩
  · cases hEnd.symm.trans h

/-- A caller who is queued has a waiter that nobody has completed. -/
theorem attempt_fresh {r : Pool} {w : WaiterId} (hp : p.Numbered)
    (h : p.attempt = (r, .queued w)) : r.isCompleted w = false := by
  obtain ⟨q, hEvicts, -, -, -, rfl, rfl⟩ := attempt_queued h
  have hq : q.Numbered := hp.congr (onlyConnections_of_evictsFirst hEvicts).line
  exact hq.fresh

/-- An attempt changes the line only if its caller is queued. -/
theorem attempt_line (p : Pool) :
    (∃ w, p.attempt.2 = .queued w) ∨ p.attempt.1.line = p.line := by
  cases hDisposed : p.disposed with
  | true =>
    rw [attempt_of_disposed hDisposed]
    exact Or.inr rfl
  | false =>
    obtain ⟨q, hEvicts, hEnd⟩ := attempt_cases hDisposed
    rw [← (onlyConnections_of_evictsFirst hEvicts).line]
    rcases hEnd with ⟨h, rest, -, -, hEnd⟩ | ⟨-, -, hEnd⟩ | ⟨-, -, -, hEnd⟩ | ⟨-, -, -, hEnd⟩
    · rw [hEnd]
      exact Or.inr rfl
    · rw [hEnd]
      exact Or.inr (grow_line q)
    · rw [hEnd]
      exact Or.inl ⟨q.waiterCount, rfl⟩
    · rw [hEnd]
      exact Or.inr rfl

/-- An attempt leaves the line as it is, but for a caller who is queued in the end. -/
theorem attempt_line_or_enqueue (p : Pool) :
    (∃ q : Pool, q.line = p.line ∧ p.attempt.1 = q.enqueue.1) ∨ p.attempt.1.line = p.line := by
  refine (attempt_line p).imp_left ?_
  rintro ⟨w, hQueued⟩
  have hAttempt : p.attempt = (p.attempt.1, .queued w) := Prod.ext rfl hQueued
  obtain ⟨q, hEvicts, -, -, -, hEnd, -⟩ := attempt_queued hAttempt
  exact ⟨q, (onlyConnections_of_evictsFirst hEvicts).line, hEnd⟩

/-- An attempt ends in the queue, and the wait ends without a connection. -/
def WaitsOut (p q : Pool) : Prop :=
  ∃ r w, p.attempt = (r, .queued w) ∧ q = r.timeOut w

/-- A wait that has ended without a connection counts as one more failure. -/
theorem WaitsOut.failures_lt (h : WaitsOut p q) (hp : p.Numbered) :
    p.failures < p.config.maxAcquireRetryCount ∧ q.failures = p.failures + 1 ∧
      q.config = p.config ∧ q.Numbered := by
  obtain ⟨r, w, hAttempt, rfl⟩ := h
  have hOpen : r.isCompleted w = false := attempt_fresh hp hAttempt
  obtain ⟨p', hEvicts, -, -, hFailures, rfl, rfl⟩ := attempt_queued hAttempt
  have hLine := (onlyConnections_of_evictsFirst hEvicts).line
  have hConfig : p'.config = p.config := congrArg Line.config hLine
  have hp' : p'.Numbered := hp.congr hLine
  rw [(onlyConnections_of_evictsFirst hEvicts).failures, hConfig] at hFailures
  refine ⟨hFailures, ?_, ?_, hp'.enqueue.timeOut (Nat.lt_succ_self _)⟩
  · obtain ⟨metrics, log, hTimeOut⟩ := timeOut_of_not_completed hOpen
    rw [hTimeOut, ← (onlyConnections_of_evictsFirst hEvicts).failures]
    rfl
  · rw [← hConfig]
    exact congrArg Stock.config (timeOut_sameStock _ _).stock

/-- The connection that an attempt ends with. -/
def Attempt.handles : Attempt → List Handle
  | .ready h => [h]
  | .queued _ => []
  | .refused _ => []

/-- The waiter that an attempt leaves in the queue. -/
def Attempt.waiters : Attempt → List WaiterId
  | .ready _ => []
  | .queued w => [w]
  | .refused _ => []

/-- The connection that a call ends with. -/
def Outcome.handles : Outcome → List Handle
  | .ok h => [h]
  | .error _ => []

/-- A call ends: after some waits without a connection, an attempt gives it the connection or the
error it ends with. -/
def CallEnds (p r : Pool) (handles : List Handle) : Prop :=
  ∃ q, ReflTransGen WaitsOut p q ∧ r = q.attempt.1 ∧ handles = q.attempt.2.handles ∧
    (p.Numbered → ∀ w, q.attempt.2 ≠ .queued w)

/-- An attempt that does not queue its caller is the end of a call. -/
theorem ends_at_once {r : Pool} {a : Attempt} {bound : Prop} (hAttempt : p.attempt = (r, a))
    (hNot : ∀ w, a ≠ .queued w) :
    ∃ q, ReflTransGen WaitsOut p q ∧ r = q.attempt.1 ∧ a.handles = q.attempt.2.handles ∧
      (p.Numbered → bound → ∀ w, q.attempt.2 ≠ .queued w) := by
  refine ⟨p, .refl, ?_⟩
  rw [hAttempt]
  exact ⟨rfl, rfl, fun _ _ => hNot⟩

/-- A blocking call whose bound on the waits is at least the number of failures that are left. The
bound is never what ends it. -/
theorem acquireWithin_ends (p : Pool) (waits : Nat) :
    ∃ q, ReflTransGen WaitsOut p q ∧ (p.acquireWithin waits).1 = q.attempt.1 ∧
      (p.acquireWithin waits).2.handles = q.attempt.2.handles ∧
      (p.Numbered → p.config.maxAcquireRetryCount ≤ p.failures + waits →
        ∀ w, q.attempt.2 ≠ .queued w) := by
  induction waits generalizing p with
  | zero =>
    unfold acquireWithin
    rcases hAttempt : p.attempt with ⟨r, h | w | e⟩
    · exact ends_at_once hAttempt fun _ hQueued => by cases hQueued
    · refine ⟨p, .refl, ?_⟩
      rw [hAttempt]
      refine ⟨rfl, rfl, fun hp hWaits => ?_⟩
      have hWait : WaitsOut p (r.timeOut w) := ⟨r, w, hAttempt, rfl⟩
      have hLeft := (hWait.failures_lt hp).1
      omega
    · exact ends_at_once hAttempt fun _ hQueued => by cases hQueued
  | succ waits ih =>
    unfold acquireWithin
    rcases hAttempt : p.attempt with ⟨r, h | w | e⟩
    · exact ends_at_once hAttempt fun _ hQueued => by cases hQueued
    · have hWait : WaitsOut p (r.timeOut w) := ⟨r, w, hAttempt, rfl⟩
      obtain ⟨q, hWaitsOut, hPool, hHandles, hNotQueued⟩ := ih (r.timeOut w)
      refine ⟨q, .head hWait hWaitsOut, hPool, hHandles, fun hp hWaits => ?_⟩
      obtain ⟨-, hFailures, hConfig, hNumbered⟩ := hWait.failures_lt hp
      refine hNotQueued hNumbered ?_
      rw [hConfig, hFailures]
      omega
    · exact ends_at_once hAttempt fun _ hQueued => by cases hQueued

/-- A blocking call is some waits and then an attempt that ends it. -/
theorem acquire_ends (p : Pool) : p.CallEnds p.acquire.1 p.acquire.2.handles := by
  obtain ⟨q, hWaitsOut, hPool, hHandles, hNotQueued⟩ :=
    acquireWithin_ends p (p.config.maxAcquireRetryCount - p.failures)
  exact ⟨q, hWaitsOut, hPool, hHandles, fun hp => hNotQueued hp (by omega)⟩

/-- A call that does not block ends or leaves its caller in the queue. -/
theorem acquireStep_cases (p : Pool) :
    (∃ r outcome, p.CallEnds r outcome.handles ∧ p.acquireStep = (r, .done outcome)) ∨
      ∃ r w, p.attempt = (r, .queued w) ∧ p.acquireStep = (r, .waiting w) := by
  unfold acquireStep
  split
  · exact Or.inl ⟨p.acquire.1, p.acquire.2, acquire_ends p, rfl⟩
  · rcases hAttempt : p.attempt with ⟨r, h | w | e⟩
    · refine Or.inl ⟨r, .ok h, ⟨p, .refl, ?_⟩, rfl⟩
      rw [hAttempt]
      exact ⟨rfl, rfl, fun _ v hv => by cases hv⟩
    · exact Or.inr ⟨r, w, rfl, rfl⟩
    · refine Or.inl ⟨r, .error e, ⟨p, .refl, ?_⟩, rfl⟩
      rw [hAttempt]
      exact ⟨rfl, rfl, fun _ v hv => by cases hv⟩

/-! ## What only a disposal changes -/

/-- What only a disposal changes. -/
def settings (p : Pool) : PoolConfig × Bool := (p.config, p.disposed)

theorem settings_of_line (h : q.line = p.line) : q.settings = p.settings :=
  congrArg (fun l => (l.config, l.disposed)) h

theorem settings_of_stock (h : q.stock = p.stock) : q.settings = p.settings :=
  congrArg (fun k => (k.config, k.disposed)) h

/-- An attempt changes no setting. -/
theorem attempt_settings (p : Pool) : p.attempt.1.settings = p.settings := by
  rcases attempt_line_or_enqueue p with ⟨q, hLine, hEnd⟩ | hLine
  · rw [hEnd, settings_of_stock (enqueue_sameStock q).stock, settings_of_line hLine]
  · exact settings_of_line hLine

theorem WaitsOut.settings_eq (h : WaitsOut p q) : q.settings = p.settings := by
  obtain ⟨r, w, hAttempt, rfl⟩ := h
  rw [settings_of_stock (timeOut_sameStock r w).stock, ← attempt_settings p, hAttempt]

theorem CallEnds.settings_eq {handles : List Handle} (h : CallEnds p q handles) :
    q.settings = p.settings := by
  obtain ⟨r, hWaitsOut, rfl, -⟩ := h
  rw [attempt_settings]
  induction hWaitsOut with
  | refl => rfl
  | tail _ hLast ih => exact hLast.settings_eq.trans ih

theorem release_settings (p : Pool) (h : Handle) : (p.release h).settings = p.settings := by
  obtain ⟨q, hSettled, hEq⟩ := release_cases p h
  rw [hEq, settings_of_stock (wakeNext_onlyWaiters q).stock, settings_of_line hSettled.line]

end StoreClient.Pool
