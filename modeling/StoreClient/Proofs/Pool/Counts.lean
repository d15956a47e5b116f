import StoreClient.Proofs.Pool.Journal
import StoreClient.Proofs.Pool.Queue
import Mathlib.Algebra.Group.Prod

/-!
# What a pool counts about its callers

A pool counts the callers that were given a connection, those that it refused one, and the waits
that ended without a connection. The counts are those of the events (`counts_applyAll`). A call
that is answered by a pool that was not disposed of has waited a number of times, and then there is
one event that tells its answer (`acquire_events`).
-/

namespace StoreClient

namespace Pool

open Relation

variable {p q r : Pool} {w : WaiterId} {ops : List Op} {events events' : List Event}

/-- Whether a caller was given a connection. -/
def Event.isCheckedOut : Event → Bool
  | .checkedOut _ => true
  | _ => false

/-- Whether a caller was told an error. -/
def Event.isDenied : Event → Bool
  | .failed _ | .refused _ => true
  | _ => false

/-! ## The counts are those of the events -/

/-- What a pool counts about its callers: connections given, errors, and waits without either. -/
def counts (p : Pool) : Nat × Nat × Nat :=
  (p.metrics.successful, p.metrics.failed, p.metrics.timedOut)

/-- The same of a list of events. -/
def countsOf (events : List Event) : Nat × Nat × Nat :=
  (events.countP Event.isCheckedOut, events.countP Event.isDenied,
    events.countP Event.isTimedOut)

theorem countsOf_append (events events' : List Event) :
    countsOf (events ++ events') = countsOf events + countsOf events' := by
  simp [countsOf]

/-- What tells callers nothing leaves the counts as they are. -/
theorem SameTally.counts (h : SameTally p q) : q.counts = p.counts := by
  rw [Pool.counts, Pool.counts, h.successful, h.failed, h.timedOut]

/-- A caller is given a connection, told an error or queued, and nothing else is counted. -/
theorem attempt_counts (p : Pool) : p.attempt.1.counts = p.counts + countsOf p.attemptEvents := by
  cases hDisposed : p.disposed with
  | true =>
    rw [attemptEvents_of_disposed hDisposed, attempt_of_disposed hDisposed]
    rfl
  | false =>
    have hDenied {q : Pool} {e : PoolError} (hAttempt : p.attempt = (q, .refused e)) :
        countsOf p.attemptEvents = (0, 1, 0) := by
      simp only [attemptEvents, hAttempt, hDisposed, Bool.false_eq_true, if_false]
      split <;> rfl
    obtain ⟨q, hEvicts, hEnd⟩ := attempt_cases hDisposed
    rw [← (onlyConnections_of_evictsFirst hEvicts).counts]
    rcases hEnd with ⟨h, rest, -, -, hEnd⟩ | ⟨-, -, hEnd⟩ | ⟨-, -, -, hEnd⟩ | ⟨-, -, -, hEnd⟩
    · rw [attemptEvents, hEnd]
      rfl
    · rcases grow_cases q with ⟨q', e, hCreate, hGrow⟩ | ⟨q', h, hCreate, hGrow⟩
      · have hBefore := (create_onlyConnections hCreate).counts
        rw [hGrow] at hEnd
        rw [hDenied hEnd, hEnd, ← hBefore]
        rfl
      · have hBefore := (create_onlyConnections hCreate).counts
        rw [hGrow] at hEnd
        rw [attemptEvents, hEnd, ← hBefore]
        rfl
    · rw [attemptEvents, hEnd]
      rfl
    · rw [hDenied hEnd, hEnd]
      rfl

/-- Each operation counts its events and nothing else. -/
theorem apply_counts (p : Pool) (op : Op) :
    (p.apply op).counts = p.counts + countsOf (p.eventsOf op) := by
  rcases apply_sameTally p op with rfl | ⟨w, rfl⟩ | ⟨hSame, hNone⟩
  · exact attempt_counts p
  · rw [apply, eventsOf]
    cases hDone : p.isCompleted w with
    | true =>
      rw [timeOut_of_completed hDone]
      rfl
    | false =>
      unfold timeOut
      rw [hDone, complete_of_not_completed hDone]
      rfl
  · rw [hNone]
    exact hSame.counts

/-- What a pool counts about its callers is what has happened. -/
theorem counts_applyAll (p : Pool) (ops : List Op) :
    (p.applyAll ops).counts = p.counts + countsOf (p.events ops) := by
  induction ops generalizing p with
  | nil => rfl
  | cons op ops ih =>
    have hRest : (p.applyAll (op :: ops)).counts = ((p.apply op).applyAll ops).counts := rfl
    rw [hRest, ih, apply_counts, events, countsOf_append]
    exact Prod.ext (Nat.add_assoc _ _ _) (Prod.ext (Nat.add_assoc _ _ _) (Nat.add_assoc _ _ _))

/-! ## Waits that nobody ended -/

/-- The waiter whose wait ends in an operation, unless somebody has completed it. -/
def lapses (p : Pool) : Op → List WaiterId
  | .timeOut w => if p.isCompleted w then [] else [w]
  | _ => []

/-- The waiters that nobody has completed before their waits end. -/
def lapsed (p : Pool) : List Op → List WaiterId
  | [] => []
  | op :: ops => p.lapses op ++ (p.apply op).lapsed ops

/-- A wait that ends without a connection is one event, and no other operation ends one. -/
theorem lapses_eq (p : Pool) (op : Op) :
    p.lapses op = [] ∧ (p.eventsOf op).countP Event.isTimedOut = 0 ∨
      ∃ w, op = .timeOut w ∧ p.isCompleted w = false ∧ p.lapses op = [w] ∧
        p.eventsOf op = [.timedOut] := by
  cases op with
  | timeOut w =>
    cases hDone : p.isCompleted w with
    | true => simp [lapses, eventsOf, hDone]
    | false => simp [lapses, eventsOf, hDone]
  | attempt =>
    refine Or.inl ⟨rfl, ?_⟩
    rw [eventsOf, attemptEvents]
    split
    · rfl
    · rfl
    · split
      · rfl
      · split <;> rfl
  | _ => exact Or.inl ⟨rfl, rfl⟩

/-- As many waits have ended without a connection as there are events of this kind. -/
theorem length_lapsed (p : Pool) (ops : List Op) :
    (p.lapsed ops).length = (p.events ops).countP Event.isTimedOut := by
  induction ops generalizing p with
  | nil => rfl
  | cons op ops ih =>
    rw [lapsed, events, List.length_append, List.countP_append, ih]
    rcases lapses_eq p op with ⟨hNone, hCount⟩ | ⟨w, -, -, hOne, hEvents⟩
    · rw [hNone, hCount, List.length_nil]
    · rw [hOne, hEvents]
      rfl

/-- A wait ends without a connection only if its waiter was not completed before. -/
theorem not_completed_of_lapsed (hw : w ∈ p.lapsed ops) : p.isCompleted w = false := by
  induction ops generalizing p with
  | nil => cases hw
  | cons op ops ih =>
    rcases List.mem_append.1 hw with hw | hw
    · rcases lapses_eq p op with ⟨hNone, -⟩ | ⟨v, -, hNot, hOne, -⟩
      · rw [hNone] at hw
        cases hw
      · rw [hOne] at hw
        rw [List.mem_singleton.1 hw]
        exact hNot
    · refine Bool.eq_false_iff.2 fun hDone => ?_
      cases (ih hw).symm.trans ((completes_apply p op).isCompleted hDone)

theorem completed_of_lapses {op : Op} (hw : w ∈ p.lapses op) :
    (p.apply op).isCompleted w = true := by
  rcases lapses_eq p op with ⟨hNone, -⟩ | ⟨v, rfl, -, hOne, -⟩
  · rw [hNone] at hw
    cases hw
  · rw [hOne] at hw
    have hLine := isCompleted_congr (timeOut_line p v) w
    rw [apply, hLine, isCompleted_complete]
    exact Or.inl (List.mem_singleton.1 hw)

/-- Afterwards its waiter is completed. -/
theorem completed_of_lapsed (hw : w ∈ p.lapsed ops) : (p.applyAll ops).isCompleted w = true := by
  induction ops generalizing p with
  | nil => cases hw
  | cons op ops ih =>
    rcases List.mem_append.1 hw with hw | hw
    · exact (completes_applyAll _ ops).isCompleted (completed_of_lapses hw)
    · exact ih hw

/-- No wait ends twice. -/
theorem nodup_lapsed (p : Pool) (ops : List Op) : (p.lapsed ops).Nodup := by
  induction ops generalizing p with
  | nil => exact List.nodup_nil
  | cons op ops ih =>
    refine List.nodup_append.2 ⟨?_, ih (p.apply op), fun v hv w hw => ?_⟩
    · rcases lapses_eq p op with ⟨hNone, -⟩ | ⟨w, -, -, hOne, -⟩
      · rw [hNone]
        exact List.nodup_nil
      · rw [hOne]
        exact List.nodup_singleton w
    · rintro rfl
      cases (not_completed_of_lapsed hw).symm.trans (completed_of_lapses hv)

/-! ## Calls -/

/-- Nothing that is done to a pool changes its server. -/
theorem apply_endpoint (p : Pool) (op : Op) : (p.apply op).endpoint = p.endpoint := by
  rcases apply_sameTally p op with rfl | ⟨w, rfl⟩ | ⟨hSame, -⟩
  · rw [apply]
    cases hDisposed : p.disposed with
    | true => rw [attempt_of_disposed hDisposed]
    | false =>
      rcases attempt_events hDisposed with ⟨r, h, hEnd, hAnew, -⟩ | ⟨q, hEvicts, -, hEnd⟩
      · rw [hEnd]
        exact congrArg Standing.endpoint hAnew
      · have hEndpoint : q.endpoint = p.endpoint :=
          (onlyConnections_of_evictsFirst hEvicts).endpoint
        rw [← hEndpoint]
        rcases hEnd with ⟨-, e, metrics, log, -, hEnd, -⟩ | ⟨-, -, hEnd, -⟩ | ⟨-, -, hEnd, -⟩ <;>
          rw [hEnd] <;> rfl
  · rw [apply]
    cases hDone : p.isCompleted w with
    | true => rw [timeOut_of_completed hDone]
    | false =>
      obtain ⟨metrics, log, hEq⟩ := timeOut_of_not_completed hDone
      rw [hEq]
  · exact hSame.endpoint

/-- No operation changes what a pool was built with. -/
theorem applyAll_built (p : Pool) (ops : List Op) :
    (p.applyAll ops).endpoint = p.endpoint ∧ (p.applyAll ops).config = p.config :=
  applyAll_induction (P := fun q => q.endpoint = p.endpoint ∧ q.config = p.config)
    (fun q op hq => ⟨(apply_endpoint q op).trans hq.1, (apply_config q op).trans hq.2⟩)
    ⟨rfl, rfl⟩ ops

/-- An event tells what a call is answered: a connection, the error that the factory gives next, or
that none is available. -/
inductive Tells (p : Pool) : Outcome → Event → Prop
  | given (h : Handle) : Tells p (.ok h) (.checkedOut h)
  | failed {e : PoolError} (hHead : p.factory.head? = some (.failure e)) :
    Tells p (.error e) (.failed e)
  | refused (n : Nat) :
    Tells p (.error (.unavailable p.endpoint n)) (.refused (.unavailable p.endpoint n))

/-- What the last attempt of a call comes to. -/
theorem attempt_tells (hOpen : p.disposed = false) :
    (∃ r w, p.attempt = (r, .queued w) ∧ p.attemptEvents = []) ∨
      ∃ x, p.attemptEvents = [x] ∧
        ((∃ r h, p.attempt = (r, .ready h) ∧ p.Tells (.ok h) x) ∨
          ∃ r e, p.attempt = (r, .refused e) ∧ p.Tells (.error e) x) := by
  rcases attempt_events hOpen with ⟨r, h, hEnd, -, hEvents⟩ | ⟨q, hEvicts, -, hEnd⟩
  · exact Or.inr ⟨_, hEvents, Or.inl ⟨r, h, hEnd, .given h⟩⟩
  · have hEndpoint : q.endpoint = p.endpoint :=
      (onlyConnections_of_evictsFirst hEvicts).endpoint
    rcases hEnd with ⟨-, e, metrics, log, hHead, hEnd, hEvents⟩ | ⟨-, -, hEnd, hEvents⟩ |
      ⟨-, -, hEnd, hEvents⟩
    · exact Or.inr ⟨_, hEvents, Or.inr ⟨_, e, hEnd, .failed hHead⟩⟩
    · exact Or.inl ⟨_, _, hEnd, hEvents⟩
    · rw [hEndpoint] at hEvents
      refine Or.inr ⟨_, hEvents, Or.inr ⟨_, _, hEnd, ?_⟩⟩
      rw [hEndpoint]
      exact .refused q.failures

theorem events_attempt (p : Pool) : p.events [.attempt] = p.attemptEvents := List.append_nil _

theorem Tells.congr {outcome : Outcome} {x : Event} (h : q.Tells outcome x)
    (hEndpoint : q.endpoint = p.endpoint) (hFactory : q.factory = p.factory) :
    p.Tells outcome x := by
  cases h with
  | given h => exact .given h
  | failed hHead =>
    rw [hFactory] at hHead
    exact .failed hHead
  | refused n =>
    rw [hEndpoint]
    exact .refused n

theorem WaitsOut.endpoint_eq (h : WaitsOut p q) : q.endpoint = p.endpoint := by
  obtain ⟨r, w, hAttempt, rfl⟩ := h
  have hQueued := apply_endpoint p .attempt
  rw [apply, hAttempt] at hQueued
  exact (apply_endpoint r (.timeOut w)).trans hQueued

theorem eventsOf_timeOut_of_queued (hp : p.Numbered) (hAttempt : p.attempt = (r, .queued w)) :
    r.eventsOf (.timeOut w) = [.timedOut] := by
  rw [eventsOf, attempt_fresh hp hAttempt]
  rfl

/-- A call of a pool that was not disposed of waits a number of times and is answered then. -/
theorem acquireWithin_events {waits : Nat} (hp : p.Numbered) (hOpen : p.disposed = false)
    (hWaits : p.config.maxAcquireRetryCount ≤ p.failures + waits) :
    ∃ n x, p.events (p.acquireOps waits) = List.replicate n .timedOut ++ [x] ∧
      p.Tells (p.acquireWithin waits).2 x := by
  induction waits generalizing p with
  | zero =>
    rw [acquireWithin, acquireOps]
    rcases attempt_tells hOpen with ⟨r, w, hAttempt, -⟩ |
      ⟨x, hEvents, ⟨r, h, hAttempt, hTells⟩ | ⟨r, e, hAttempt, hTells⟩⟩
    · -- no caller is queued once as many waits were counted as there may be
      have hWait : WaitsOut p (r.timeOut w) := ⟨r, w, hAttempt, rfl⟩
      have hLeft := (hWait.failures_lt hp).1
      omega
    · rw [hAttempt]
      exact ⟨0, x, (events_attempt p).trans hEvents, hTells⟩
    · rw [hAttempt]
      exact ⟨0, x, (events_attempt p).trans hEvents, hTells⟩
  | succ waits ih =>
    rw [acquireWithin, acquireOps]
    rcases attempt_tells hOpen with ⟨r, w, hAttempt, hEvents⟩ |
      ⟨x, hEvents, ⟨r, h, hAttempt, hTells⟩ | ⟨r, e, hAttempt, hTells⟩⟩
    · have hWait : WaitsOut p (r.timeOut w) := ⟨r, w, hAttempt, rfl⟩
      obtain ⟨-, hFailures, hConfig, hNumbered⟩ := hWait.failures_lt hp
      have hStill : (r.timeOut w).disposed = false :=
        (congrArg Prod.snd hWait.settings_eq).trans hOpen
      have hLeft : (r.timeOut w).config.maxAcquireRetryCount
          ≤ (r.timeOut w).failures + waits := by
        rw [hConfig, hFailures]
        omega
      obtain ⟨n, x, hRest, hTells⟩ := ih hNumbered hStill hLeft
      refine ⟨n + 1, x, ?_, ?_⟩
      · have hLapse := eventsOf_timeOut_of_queued hp hAttempt
        rw [hAttempt]
        show p.attemptEvents ++ p.attempt.1.events _ = _
        rw [hEvents, hAttempt, events, hLapse]
        exact congrArg (Event.timedOut :: ·) hRest
      · rw [hAttempt]
        exact hTells.congr hWait.endpoint_eq hWait.ownWaits.factory
    · rw [hAttempt]
      exact ⟨0, x, (events_attempt p).trans hEvents, hTells⟩
    · rw [hAttempt]
      exact ⟨0, x, (events_attempt p).trans hEvents, hTells⟩

/-- The events of a blocking call are its waits and then what it is told. -/
theorem acquire_events (hp : p.Numbered) (hOpen : p.disposed = false) :
    ∃ n x, p.events p.callOps = List.replicate n .timedOut ++ [x] ∧ p.Tells p.acquire.2 x :=
  acquireWithin_events hp hOpen (by omega)

/-- A call at a disposed pool is no event. -/
theorem events_callOps_of_disposed (hDisposed : p.disposed = true) : p.events p.callOps = [] := by
  have hAttempt := attempt_of_disposed hDisposed
  have hOps (waits : Nat) : p.acquireOps waits = [.attempt] := by
    cases waits with
    | zero => rfl
    | succ waits => rw [acquireOps, hAttempt]
  rw [callOps, hOps]
  exact (events_attempt p).trans (attemptEvents_of_disposed hDisposed)

theorem events_callStepOps_of_disposed (hDisposed : p.disposed = true) :
    p.events p.callStepOps = [] := by
  unfold callStepOps
  split
  · exact events_callOps_of_disposed hDisposed
  · exact (events_attempt p).trans (attemptEvents_of_disposed hDisposed)

/-- A call that does not block is answered, or waits and nothing is counted. -/
theorem acquireStep_events (hp : p.Numbered) (hOpen : p.disposed = false) :
    (∃ r w, p.acquireStep = (r, .waiting w) ∧ p.events p.callStepOps = []) ∨
      ∃ r outcome n x, p.acquireStep = (r, .done outcome) ∧
        p.events p.callStepOps = List.replicate n .timedOut ++ [x] ∧ p.Tells outcome x := by
  unfold acquireStep callStepOps
  split
  · obtain ⟨n, x, hEvents, hTells⟩ := acquire_events hp hOpen
    exact Or.inr ⟨_, _, n, x, rfl, hEvents, hTells⟩
  · rcases attempt_tells hOpen with ⟨r, w, hAttempt, hEvents⟩ |
      ⟨x, hEvents, ⟨r, h, hAttempt, hTells⟩ | ⟨r, e, hAttempt, hTells⟩⟩
    · rw [hAttempt]
      exact Or.inl ⟨r, w, rfl, (events_attempt p).trans hEvents⟩
    · rw [hAttempt]
      exact Or.inr ⟨r, _, 0, x, rfl, (events_attempt p).trans hEvents, hTells⟩
    · rw [hAttempt]
      exact Or.inr ⟨r, _, 0, x, rfl, (events_attempt p).trans hEvents, hTells⟩

end Pool

end StoreClient
