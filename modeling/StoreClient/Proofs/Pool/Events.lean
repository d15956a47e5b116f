import StoreClient.Proofs.Pool.Disposal

/-!
# Events of a pool

What decides about the count of failures is written down as it happens: that a caller was given a
connection or refused one, that the factory failed for a caller, and that a wait ended without a
connection. Everything else leaves the count as it is.

The operations of a caller come in a certain order: the end of a wait is followed by another attempt
of the same caller at once (`Regular`), and the last attempt of a call decides what the call is
answered (`Refuses`).
-/

namespace StoreClient

namespace Pool

open Relation

variable {p q : Pool} {w : WaiterId} {ops : List Op}

/-! ## Events -/

/-- What decides about the count of failures. -/
inductive Event where
  /-- A caller was given a connection. -/
  | checkedOut (h : Handle)
  /-- A wait ended without a connection. -/
  | timedOut
  /-- The factory failed for a caller. -/
  | failed (e : PoolError)
  /-- A caller was refused because of too many waits. -/
  | refused (e : PoolError)
deriving DecidableEq, Repr

/-- Whether the count of failures starts anew with the event. -/
def Event.resets : Event → Bool
  | .checkedOut _ | .refused _ => true
  | .timedOut | .failed _ => false

/-- Whether a wait ended without a connection. -/
def Event.isTimedOut : Event → Bool
  | .timedOut => true
  | _ => false

/-- Whether the factory failed. -/
def Event.isFailed : Event → Bool
  | .failed _ => true
  | _ => false

/-- The events of an attempt. An error comes from the factory exactly if the factory was called. -/
def attemptEvents (p : Pool) : List Event :=
  match p.attempt with
  | (_, .ready h) => [.checkedOut h]
  | (_, .queued _) => []
  | (q, .refused e) =>
    if p.disposed then [] else if p.nextId < q.nextId then [.failed e] else [.refused e]

/-- The events of an operation. -/
def eventsOf (p : Pool) : Op → List Event
  | .attempt => p.attemptEvents
  | .timeOut w => if p.isCompleted w then [] else [.timedOut]
  | _ => []

/-- The events of some operations. -/
def events (p : Pool) : List Op → List Event
  | [] => []
  | op :: ops => p.eventsOf op ++ (p.apply op).events ops

/-- A refusal after the disposal is no event. -/
theorem attemptEvents_of_disposed (hDisposed : p.disposed = true) : p.attemptEvents = [] := by
  rw [attemptEvents, attempt_of_disposed hDisposed]
  exact if_pos hDisposed

/-- Events happen in the order of the operations. -/
theorem events_append (p : Pool) (ops ops' : List Op) :
    p.events (ops ++ ops') = p.events ops ++ (p.applyAll ops).events ops' := by
  induction ops generalizing p with
  | nil => rfl
  | cons op ops ih =>
    have hRest := ih (p.apply op)
    simp only [List.cons_append, events, hRest, List.append_assoc]
    rfl

/-! ## Standing -/

/-- What is fixed for a pool, and its count of failures. -/
structure Standing where
  endpoint : Endpoint
  config : PoolConfig
  failures : Nat

/-- The standing of a pool. -/
def standing (p : Pool) : Standing where
  endpoint := p.endpoint
  config := p.config
  failures := p.failures

/-- What tells callers nothing leaves the standing as it is. -/
theorem SameTally.standing (h : SameTally p q) : q.standing = p.standing := by
  rw [Pool.standing, Pool.standing, h.endpoint, h.config, h.failures]

/-- Only an attempt and the end of a wait are events, and tell callers anything. -/
theorem apply_sameTally (p : Pool) (op : Op) :
    op = .attempt ∨ (∃ w, op = .timeOut w) ∨ SameTally p (p.apply op) ∧ p.eventsOf op = [] := by
  cases op with
  | attempt => exact Or.inl rfl
  | timeOut w => exact Or.inr (Or.inl ⟨w, rfl⟩)
  | openMinimum => exact Or.inr (Or.inr ⟨(openMinimum_onlyConnections p).toSameTally, rfl⟩)
  | abandon w => exact Or.inr (Or.inr ⟨(abandon_onlyWaiters p w).toSameTally, rfl⟩)
  | release h => exact Or.inr (Or.inr ⟨release_sameTally p h, rfl⟩)
  | dispose => exact Or.inr (Or.inr ⟨dispose_sameTally p, rfl⟩)
  | setDead | shut | returning | cycleBuffers =>
    exact Or.inr (Or.inr ⟨⟨rfl, rfl, rfl, rfl, rfl, rfl⟩, rfl⟩)

/-- Nothing that is done to a pool changes its configuration. -/
theorem apply_config (p : Pool) (op : Op) : (p.apply op).config = p.config := by
  rcases apply_sameTally p op with rfl | ⟨w, rfl⟩ | ⟨hSame, -⟩
  · exact congrArg Prod.fst (attempt_settings p)
  · exact congrArg Stock.config (timeOut_sameStock p w).stock
  · exact hSame.config

/-- An operation by which nobody tries to get a connection and no wait ends. Only a wait that was
begun is given up. -/
def Quiet (p : Pool) : Op → Prop
  | .attempt => False
  | .timeOut _ => False
  | .abandon w => w < p.waiterCount
  | _ => True

/-- A quiet operation tells callers nothing. -/
theorem Quiet.sameTally {op : Op} (hQuiet : p.Quiet op) :
    SameTally p (p.apply op) ∧ p.eventsOf op = [] := by
  rcases apply_sameTally p op with rfl | ⟨w, rfl⟩ | hSame
  · exact hQuiet.elim
  · exact hQuiet.elim
  · exact hSame

/-! ## Attempts -/

/-- Evictions do not call the factory. -/
theorem factory_of_evictsFirst (h : ReflTransGen EvictsFirst p q) :
    q.factory = p.factory ∧ q.nextId = p.nextId := by
  induction h with
  | refl => exact ⟨rfl, rfl⟩
  | @tail r _ _ hLast ih =>
    obtain ⟨h, rest, -, -, rfl⟩ := hLast
    obtain ⟨metrics, hEq⟩ := destroy_eq { r with idle := rest } h
    have hStock := evict_stock { r with idle := rest } h
    rw [hEq] at hStock
    exact ⟨(congrArg Stock.factory hStock).trans ih.1, (congrArg Stock.nextId hStock).trans ih.2⟩

/-- A caller gets the new connection and the count starts anew, or the failure of the factory is
counted. -/
theorem grow_events (p : Pool) :
    (∃ r h, p.grow = (r, .ready h) ∧ r.standing = { p.standing with failures := 0 }) ∨
    ∃ e metrics log, p.factory.head? = some (.failure e) ∧
      p.grow = ({ p with
        nextId := p.nextId + 1
        factory := p.factory.tail
        failures := p.failures + 1
        metrics
        log }, .refused e) := by
  rcases grow_cases p with ⟨r, e, hCreate, hGrow⟩ | ⟨r, h, hCreate, hGrow⟩
  · rcases create_cases p with ⟨e', log, hHead, hError⟩ | ⟨c, metrics, log, -, -, hOk⟩
    · cases hError.symm.trans hCreate
      exact Or.inr ⟨e, _, _, hHead, hGrow⟩
    · cases hOk.symm.trans hCreate
  · have hStanding := (create_onlyConnections hCreate).standing
    refine Or.inl ⟨_, h, hGrow, ?_⟩
    rw [← hStanding]
    rfl

/-- What an attempt comes to in a pool that was not disposed of, and what is written down about
it. -/
theorem attempt_events (hOpen : p.disposed = false) :
    (∃ r h, p.attempt = (r, .ready h) ∧ r.standing = { p.standing with failures := 0 } ∧
        p.attemptEvents = [.checkedOut h]) ∨
    ∃ q, ReflTransGen EvictsFirst p q ∧ q.idle = [] ∧
      ((q.liveCount < q.config.maxSize ∧ ∃ e metrics log, p.factory.head? = some (.failure e) ∧
          p.attempt = ({ q with
            nextId := q.nextId + 1
            factory := q.factory.tail
            failures := q.failures + 1
            metrics
            log }, .refused e) ∧
          p.attemptEvents = [.failed e]) ∨
        (q.config.maxSize ≤ q.liveCount ∧ q.failures < q.config.maxAcquireRetryCount ∧
          p.attempt = q.enqueue ∧ p.attemptEvents = []) ∨
        (q.config.maxSize ≤ q.liveCount ∧ q.config.maxAcquireRetryCount ≤ q.failures ∧
          p.attempt = q.refuse ∧
          p.attemptEvents = [.refused (.unavailable q.endpoint q.failures)])) := by
  have hReady {r : Pool} {h : Handle} (hAttempt : p.attempt = (r, .ready h)) :
      p.attemptEvents = [.checkedOut h] := by
    rw [attemptEvents, hAttempt]
  have hNot : ¬ p.disposed = true := by
    rw [hOpen]
    exact Bool.false_ne_true
  obtain ⟨q, hEvicts, hEnd⟩ := attempt_cases hOpen
  have hStanding := (onlyConnections_of_evictsFirst hEvicts).standing
  obtain ⟨hFactory, hNext⟩ := factory_of_evictsFirst hEvicts
  rw [← hStanding]
  rcases hEnd with ⟨h, rest, -, -, hEnd⟩ | ⟨hIdle, hRoom, hEnd⟩ | ⟨hIdle, hFull, hFew, hEnd⟩ |
    ⟨hIdle, hFull, hMany, hEnd⟩
  · -- an idle connection is handed out
    exact Or.inl ⟨_, h, hEnd, rfl, hReady hEnd⟩
  · -- the factory is called
    rcases grow_events q with ⟨r, h, hGrow, hAnew⟩ | ⟨e, metrics, log, hHead, hGrow⟩
    · rw [hGrow] at hEnd
      exact Or.inl ⟨r, h, hEnd, hAnew, hReady hEnd⟩
    · rw [hGrow] at hEnd
      rw [hFactory] at hHead
      refine Or.inr ⟨q, hEvicts, hIdle, Or.inl ⟨hRoom, e, metrics, log, hHead, hEnd, ?_⟩⟩
      -- an id is used up whenever the factory is called, and only then
      have hCalled : p.nextId < q.nextId + 1 := by omega
      rw [attemptEvents, hEnd]
      dsimp only
      rw [if_neg hNot, if_pos hCalled]
  · -- the caller is queued
    refine Or.inr ⟨q, hEvicts, hIdle, Or.inr (Or.inl ⟨hFull, hFew, hEnd, ?_⟩)⟩
    rw [attemptEvents, hEnd]
    rfl
  · -- the caller is refused
    refine Or.inr ⟨q, hEvicts, hIdle, Or.inr (Or.inr ⟨hFull, hMany, hEnd, ?_⟩)⟩
    have hCalled : ¬ p.nextId < q.nextId := by omega
    rw [attemptEvents, hEnd]
    dsimp only [refuse, note]
    rw [if_neg hNot, if_neg hCalled]

/-- Who is refused a connection that was not disposed of meets with an event. -/
theorem attemptEvents_of_refused {e : PoolError} (hRefused : p.attempt.2 = .refused e)
    (hOpen : p.disposed = false) :
    p.attemptEvents = [.failed e] ∧ p.factory.head? = some (.failure e) ∨
      p.attemptEvents = [.refused e] := by
  rcases attempt_events hOpen with ⟨r, h, hEnd, -, -⟩ | ⟨q, -, -, hEnd⟩
  · rw [hEnd] at hRefused
    cases hRefused
  · rcases hEnd with ⟨-, e', metrics, log, hHead, hEnd, hEvents⟩ | ⟨-, -, hEnd, -⟩ |
      ⟨-, -, hEnd, hEvents⟩
    · rw [hEnd] at hRefused
      cases hRefused
      exact Or.inl ⟨hEvents, hHead⟩
    · rw [hEnd] at hRefused
      cases hRefused
    · rw [hEnd] at hRefused
      cases hRefused
      exact Or.inr hEvents

/-- Who sees the factory fail was let in by a pool with room for a connection, in which none is
idle. -/
theorem attempt_of_failed {e : PoolError} (hFailed : p.attemptEvents.getLast? = some (.failed e)) :
    p.attempt.1.idle = [] ∧ p.attempt.1.liveCount < p.attempt.1.config.maxSize ∧
      p.attempt.1.line = p.line := by
  cases hDisposed : p.disposed with
  | true =>
    rw [attemptEvents_of_disposed hDisposed] at hFailed
    cases hFailed
  | false =>
    rcases attempt_events hDisposed with ⟨r, h, -, -, hEvents⟩ | ⟨q, hEvicts, hIdle, hEnd⟩
    · rw [hEvents] at hFailed
      cases hFailed
    · rcases hEnd with ⟨hRoom, e, metrics, log, -, hEnd, -⟩ | ⟨-, -, -, hEvents⟩ |
        ⟨-, -, -, hEvents⟩
      · have hLine := (onlyConnections_of_evictsFirst hEvicts).line
        rw [hEnd]
        exact ⟨hIdle, hRoom, hLine⟩
      · rw [hEvents] at hFailed
        cases hFailed
      · rw [hEvents] at hFailed
        cases hFailed

/-! ## The order of operations -/

/-- Operations in an order in which callers can do them: only a wait that was begun ends or is given
up, and after the end of a wait its caller tries again at once. -/
inductive Regular : Pool → List Op → Prop
  | nil (p : Pool) : Regular p []
  | quiet {p : Pool} {op : Op} {ops : List Op} (hQuiet : p.Quiet op)
      (hRest : Regular (p.apply op) ops) : Regular p (op :: ops)
  | attempt {p : Pool} {ops : List Op} (hRest : Regular p.attempt.1 ops) :
      Regular p (.attempt :: ops)
  | timeOut {p : Pool} {w : WaiterId} {ops : List Op} (hBegun : w < p.waiterCount)
      (hRest : Regular (p.timeOut w).attempt.1 ops) : Regular p (.timeOut w :: .attempt :: ops)

theorem Regular.one {op : Op} (hQuiet : p.Quiet op) : p.Regular [op] := .quiet hQuiet (.nil _)

theorem Regular.afterWait (hBegun : w < p.waiterCount)
    (hCall : (p.timeOut w).Regular (.attempt :: ops)) :
    p.Regular (.timeOut w :: .attempt :: ops) := by
  cases hCall with
  | quiet hQuiet _ => exact hQuiet.elim
  | attempt hRest => exact .timeOut hBegun hRest

/-- Regular operations may follow one another. -/
theorem Regular.append {ops' : List Op} (hOps : p.Regular ops)
    (hOps' : (p.applyAll ops).Regular ops') : p.Regular (ops ++ ops') := by
  induction hOps with
  | nil p => exact hOps'
  | quiet hQuiet _ ih => exact .quiet hQuiet (ih hOps')
  | attempt _ ih => exact .attempt (ih hOps')
  | timeOut hBegun _ ih => exact .timeOut hBegun (ih hOps')

theorem acquireOps_eq (p : Pool) (waits : Nat) :
    ∃ ops, p.acquireOps waits = .attempt :: ops := by
  cases waits <;> exact ⟨_, rfl⟩

/-- A blocking call attempts again after each of its waits. -/
theorem regular_acquireOps (p : Pool) (waits : Nat) : p.Regular (p.acquireOps waits) := by
  induction waits generalizing p with
  | zero => exact .attempt (.nil _)
  | succ waits ih =>
    unfold acquireOps
    rcases hAttempt : p.attempt with ⟨r, h | w | e⟩
    · exact .attempt (.nil _)
    · obtain ⟨q, -, -, -, -, rfl, rfl⟩ := attempt_queued hAttempt
      obtain ⟨ops, hOps⟩ := acquireOps_eq (q.enqueue.1.timeOut q.waiterCount) waits
      have hRest := ih (q.enqueue.1.timeOut q.waiterCount)
      refine .attempt ?_
      rw [hAttempt]
      dsimp only
      rw [hOps] at hRest ⊢
      exact .afterWait (Nat.lt_succ_self _) hRest
    · exact .attempt (.nil _)

theorem callStepOps_eq (p : Pool) : ∃ ops, p.callStepOps = .attempt :: ops := by
  unfold callStepOps
  split
  · exact acquireOps_eq p _
  · exact ⟨[], rfl⟩

theorem regular_callStepOps (p : Pool) : p.Regular p.callStepOps := by
  unfold callStepOps
  split
  · exact regular_acquireOps p _
  · exact .attempt (.nil _)

theorem Numbered.attempt (hp : p.Numbered) : p.attempt.1.Numbered := by
  rcases attempt_line_or_enqueue p with ⟨q, hLine, hEnd⟩ | hLine
  · rw [hEnd]
    exact (hp.congr hLine).enqueue
  · exact hp.congr hLine

theorem Numbered.completeAll (hp : p.Numbered) {waiters : List WaiterId}
    (hWaiters : ∀ w ∈ waiters, w < p.waiterCount) : (waiters.foldl Pool.complete p).Numbered := by
  induction waiters generalizing p with
  | nil => exact hp
  | cons w rest ih =>
    refine ih (hp.complete (hWaiters w List.mem_cons_self)) fun v hv => ?_
    rw [(complete_queue p w).2]
    exact hWaiters v (List.mem_cons_of_mem _ hv)

/-- Quiet operations complete only waiters that were numbered. -/
theorem Numbered.quiet {op : Op} (hp : p.Numbered) (hQuiet : p.Quiet op) :
    (p.apply op).Numbered := by
  cases op with
  | openMinimum => exact hp.congr (openMinimum_onlyConnections p).line
  | attempt => exact hQuiet.elim
  | timeOut w => exact hQuiet.elim
  | abandon w =>
    unfold apply abandon
    dsimp only
    split
    · have hNoted : (p.note .debug "abandoned wait was signaled, waking next").Numbered :=
        hp.congr rfl
      exact hNoted.wakeNext
    · exact hp.complete hQuiet
  | release h =>
    obtain ⟨q, hSettled, hEq⟩ := release_cases p h
    rw [apply, hEq]
    exact (hp.congr hSettled.line).wakeNext
  | dispose =>
    cases hDisposed : p.disposed with
    | true =>
      rw [apply, dispose_of_disposed hDisposed]
      exact hp
    | false =>
      obtain ⟨log, hEq⟩ := dispose_of_open hDisposed
      have hMarked : ({ p with disposed := true } : Pool).Numbered := ⟨hp.queue, hp.completed⟩
      have hRetired : p.retired.Numbered := hMarked.congr (retired_line p)
      rw [apply, hEq]
      have hWoken := hRetired.completeAll hRetired.queue
      exact ⟨fun w hw => absurd hw List.not_mem_nil, hWoken.completed⟩
  | setDead | shut | returning | cycleBuffers => exact hp.congr rfl

/-- Whatever is done regularly, only numbered waiters are completed. -/
theorem Regular.numbered (hOps : p.Regular ops) (hp : p.Numbered) : (p.applyAll ops).Numbered := by
  induction hOps with
  | nil p => exact hp
  | quiet hQuiet _ ih => exact ih (hp.quiet hQuiet)
  | attempt _ ih => exact ih hp.attempt
  | timeOut hBegun _ ih => exact ih (hp.timeOut hBegun).attempt

/-! ## The last attempt of a call -/

/-- What the waits of one caller leave as it is: what the factory gives, and the waiters that were
queued before. -/
structure OwnWaits (p q : Pool) : Prop where
  settings : q.settings = p.settings
  factory : q.factory = p.factory
  waiterCount : p.waiterCount ≤ q.waiterCount
  others : ∀ w < p.waiterCount, q.isCompleted w = p.isCompleted w

theorem OwnWaits.refl (p : Pool) : p.OwnWaits p := ⟨rfl, rfl, Nat.le_refl _, fun _ _ => rfl⟩

/-- Waits of one caller may follow one another. -/
theorem OwnWaits.trans {r : Pool} (hFirst : p.OwnWaits q) (hLast : q.OwnWaits r) :
    p.OwnWaits r where
  settings := hLast.settings.trans hFirst.settings
  factory := hLast.factory.trans hFirst.factory
  waiterCount := hFirst.waiterCount.trans hLast.waiterCount
  others := fun w hw =>
    (hLast.others w (Nat.lt_of_lt_of_le hw hFirst.waiterCount)).trans (hFirst.others w hw)

/-- A wait that ends without a connection completes nobody who was queued before. -/
theorem WaitsOut.ownWaits (h : WaitsOut p q) : p.OwnWaits q := by
  have hSettings := h.settings_eq
  obtain ⟨r, w, hAttempt, rfl⟩ := h
  obtain ⟨q, hEvicts, -, -, -, rfl, rfl⟩ := attempt_queued hAttempt
  have hLine := (onlyConnections_of_evictsFirst hEvicts).line
  have hCount : q.waiterCount = p.waiterCount := congrArg Line.waiterCount hLine
  refine ⟨hSettings, ?_, ?_, fun v hv => ?_⟩
  · rw [← (factory_of_evictsFirst hEvicts).1]
    exact congrArg Stock.factory (timeOut_sameStock _ _).stock
  · rw [(timeOut_queue _ _).2, ← hCount]
    exact Nat.le_succ _
  · rw [← hCount] at hv
    have hCompleted := isCompleted_complete q.enqueue.1 q.waiterCount v
    rw [isCompleted_congr (timeOut_line _ _), ← isCompleted_congr hLine, Bool.eq_iff_iff,
      hCompleted]
    have hNe : v ≠ q.waiterCount := Nat.ne_of_lt hv
    exact ⟨fun h => h.resolve_left hNe, Or.inr⟩

/-- A call ends with an error: after waits of its own, its last attempt is refused. -/
def Refuses (p : Pool) (ops : List Op) (e : PoolError) : Prop :=
  ∃ q before, p.OwnWaits q ∧ q.attempt.2 = .refused e ∧ p.applyAll ops = q.attempt.1 ∧
    p.events ops = before ++ q.attemptEvents

theorem refuses_attempt {e : PoolError} (hRefused : p.attempt.2 = .refused e) :
    p.Refuses [.attempt] e :=
  ⟨p, [], OwnWaits.refl p, hRefused, rfl, List.append_nil _⟩

/-- What a caller is refused with after a wait, it is refused with in all. -/
theorem Refuses.afterWait {r : Pool} {e : PoolError} (hAttempt : p.attempt = (r, .queued w))
    (h : (r.timeOut w).Refuses ops e) : p.Refuses (.attempt :: .timeOut w :: ops) e := by
  obtain ⟨q, before, hOwn, hRefused, hPool, hEvents⟩ := h
  have hWait : WaitsOut p (r.timeOut w) := ⟨r, w, hAttempt, rfl⟩
  refine ⟨q, p.attemptEvents ++ (r.eventsOf (.timeOut w) ++ before), hWait.ownWaits.trans hOwn,
    hRefused, ?_, ?_⟩
  · change p.attempt.1.applyAll _ = _
    rw [hAttempt]
    exact hPool
  · change p.attemptEvents ++ p.attempt.1.events _ = _
    rw [hAttempt, List.append_assoc, List.append_assoc, ← hEvents]
    rfl

/-- A blocking call that is refused ends in an attempt that is refused, if it may wait until the
bound is reached. -/
theorem acquireWithin_refuses {waits : Nat} {e : PoolError} (hp : p.Numbered)
    (hWaits : p.config.maxAcquireRetryCount ≤ p.failures + waits)
    (hError : (p.acquireWithin waits).2 = .error e) : p.Refuses (p.acquireOps waits) e := by
  induction waits generalizing p with
  | zero =>
    rw [acquireWithin] at hError
    rcases hAttempt : p.attempt with ⟨r, h | w | e'⟩
    · rw [hAttempt] at hError
      cases hError
    · -- no caller is queued once as many waits were counted as there may be
      have hWait : WaitsOut p (r.timeOut w) := ⟨r, w, hAttempt, rfl⟩
      have hLeft := (hWait.failures_lt hp).1
      omega
    · rw [hAttempt] at hError
      cases hError
      exact refuses_attempt (by rw [hAttempt])
  | succ waits ih =>
    rw [acquireWithin] at hError
    rw [acquireOps]
    rcases hAttempt : p.attempt with ⟨r, h | w | e'⟩
    · rw [hAttempt] at hError
      cases hError
    · rw [hAttempt] at hError
      have hWait : WaitsOut p (r.timeOut w) := ⟨r, w, hAttempt, rfl⟩
      obtain ⟨-, hFailures, hConfig, hNumbered⟩ := hWait.failures_lt hp
      have hBound : (r.timeOut w).config.maxAcquireRetryCount
          ≤ (r.timeOut w).failures + waits := by
        rw [hConfig, hFailures]
        omega
      exact (ih hNumbered hBound hError).afterWait hAttempt
    · rw [hAttempt] at hError
      cases hError
      exact refuses_attempt (by rw [hAttempt])

theorem acquire_refuses {e : PoolError} (hp : p.Numbered) (hError : p.acquire.2 = .error e) :
    p.Refuses p.callOps e :=
  acquireWithin_refuses hp (by omega) hError

/-- A call that does not block is refused by its last attempt. -/
theorem acquireStep_refuses {e : PoolError} (hp : p.Numbered)
    (hError : p.acquireStep.2 = .done (.error e)) : p.Refuses p.callStepOps e := by
  unfold acquireStep at hError
  unfold callStepOps
  split
  · rename_i hZero
    rw [if_pos hZero] at hError
    injection hError with hError
    exact acquire_refuses hp hError
  · rename_i hNonzero
    rw [if_neg hNonzero] at hError
    rcases hAttempt : p.attempt with ⟨r, h | w | e'⟩
    · rw [hAttempt] at hError
      cases hError
    · rw [hAttempt] at hError
      cases hError
    · rw [hAttempt] at hError
      cases hError
      exact refuses_attempt (by rw [hAttempt])

/-- The last event tells where an error comes from: from the factory, which gives it next, or from
the pool. -/
def EndsInError (p : Pool) (ops : List Op) (e : PoolError) : Prop :=
  ∃ before, p.events ops = before ++ [.failed e] ∧ p.factory.head? = some (.failure e) ∨
    p.events ops = before ++ [.refused e]

/-- A refusal before the disposal is the last event of the call. -/
theorem Refuses.endsInError {e : PoolError} (h : p.Refuses ops e) (hNot : e ≠ .closed) :
    p.EndsInError ops e := by
  obtain ⟨q, before, hOwn, hRefused, -, hEvents⟩ := h
  have hOpen : q.disposed = false := by
    refine Bool.eq_false_iff.2 fun hDisposed => ?_
    rw [attempt_of_disposed hDisposed] at hRefused
    cases hRefused
    exact hNot rfl
  rw [EndsInError, hEvents, ← hOwn.factory]
  rcases attemptEvents_of_refused hRefused hOpen with ⟨hLast, hHead⟩ | hLast
  · rw [hLast]
    exact ⟨before, Or.inl ⟨rfl, hHead⟩⟩
  · rw [hLast]
    exact ⟨before, Or.inr rfl⟩

/-- An operation that leaves the factory alone may come first. -/
theorem EndsInError.cons {op : Op} {e : PoolError} (hFactory : (p.apply op).factory = p.factory)
    (h : (p.apply op).EndsInError ops e) : p.EndsInError (op :: ops) e := by
  obtain ⟨before, h⟩ := h
  refine ⟨p.eventsOf op ++ before, ?_⟩
  rw [events, List.append_assoc, List.append_assoc, ← hFactory]
  rcases h with ⟨hEvents, hHead⟩ | hEvents
  · exact Or.inl ⟨by rw [hEvents], hHead⟩
  · exact Or.inr (by rw [hEvents])

theorem release_factory (p : Pool) (h : Handle) : (p.release h).factory = p.factory := by
  have hStock := release_stock p h
  obtain ⟨metrics, hDestroyed⟩ := destroy_eq (p.modify h (Connection.markUsed false)) h
  rw [hDestroyed] at hStock
  split at hStock <;> exact congrArg Stock.factory hStock

end Pool

end StoreClient
