import StoreClient.Proofs.Pool.Counts
import StoreClient.Proofs.Pool.Failures
import StoreClient.Proofs.Pool.Intact

/-!
# Calls of an exhausted pool

A pool is exhausted if its idle connections are dead and there would be no room for a connection
even if they were gone. Exactly then a call is queued or refused. A call with which nobody
interferes is a number of waits and an attempt that is answered (`acquire_waitsFor`). In an
exhausted pool it waits until the bound on the failures is reached, in any other pool it does not
wait.
-/

namespace StoreClient.Pool

open Relation

variable {p q r : Pool} {h : Handle} {k : Nat} {outcome : Outcome}

/-! ## Exhausted pools -/

/-- No idle connection is alive, and there is no room for another one, nor will there be any when
the idle ones are gone. -/
structure Exhausted (p : Pool) : Prop where
  dead : ∀ h ∈ p.idle, p.isDead h = true
  full : ¬ p.Vacant

theorem Exhausted.of_stock (hp : p.Exhausted) (hStock : q.stock = p.stock) : q.Exhausted := by
  have hIdle : q.idle = p.idle := congrArg Stock.idle hStock
  refine ⟨fun h hh => ?_, fun hVacant => hp.full (hVacant.of_stock hStock.symm)⟩
  rw [isDead_congr (congrArg Stock.connections hStock)]
  exact hp.dead h (hIdle ▸ hh)

/-- No connection dies by an eviction. -/
theorem EvictsFirst.isDead_eq (hEvicts : EvictsFirst p q) (g : Handle) :
    q.isDead g = p.isDead g := by
  obtain ⟨h, rest, -, -, rfl⟩ := hEvicts
  have hConnections := congrArg Stock.connections (evict_stock { p with idle := rest } h)
  exact (isDead_congr hConnections g).trans (isDead_destroy { p with idle := rest } h g)

/-- An eviction makes as much room as it takes from that which the idle connections have. -/
theorem EvictsFirst.vacant_iff (hEvicts : EvictsFirst p q) (hMax : 0 < p.config.maxSize) :
    q.Vacant ↔ p.Vacant := by
  refine ⟨fun hq => ?_, fun hp => hp.evictsFirst hMax hEvicts⟩
  obtain ⟨h, hIdle, hConfig, hCount, hIds⟩ := hEvicts.idleIds_eq
  unfold Vacant at hq ⊢
  rw [hConfig, hCount, hIds] at hq
  by_cases hTracks : p.tracks h = true
  · have hIn : p.idOf h ∈ p.idleIds :=
      (mem_idleIds p _).2 ⟨⟨h, hIdle, rfl⟩, (tracks_iff p h).1 hTracks⟩
    have hCard := Finset.card_erase_of_mem hIn
    have hSome : 0 < p.idleIds.card := Finset.card_pos.2 ⟨_, hIn⟩
    rw [if_pos hTracks, hCard] at hq
    omega
  · have hOut : p.idOf h ∉ p.idleIds := by
      intro hIn
      exact hTracks ((tracks_iff p h).2 ((mem_idleIds p _).1 hIn).2)
    rw [if_neg hTracks, Finset.erase_eq_of_notMem hOut] at hq
    exact hq

/-- An eviction neither exhausts a pool nor ends its exhaustion. -/
theorem EvictsFirst.exhausted_iff (hEvicts : EvictsFirst p q) (hMax : 0 < p.config.maxSize) :
    q.Exhausted ↔ p.Exhausted := by
  have hVacant := hEvicts.vacant_iff hMax
  have hDead := hEvicts.isDead_eq
  obtain ⟨h, rest, hIdle, hFirst, rfl⟩ := hEvicts
  have hLeft : (evict { p with idle := rest } h).idle = rest := by
    have hStock := congrArg Stock.idle (evict_stock { p with idle := rest } h)
    exact hStock.trans (destroy_idle _ h)
  refine ⟨fun hq => ⟨fun g hg => ?_, fun hp => hq.full (hVacant.2 hp)⟩,
    fun hp => ⟨fun g hg => ?_, fun hq => hp.full (hVacant.1 hq)⟩⟩
  · rw [hIdle] at hg
    rcases List.mem_cons.1 hg with rfl | hg
    · exact hFirst
    · rw [← hDead]
      exact hq.dead g (hLeft.symm ▸ hg)
  · rw [hLeft] at hg
    rw [hDead]
    exact hp.dead g (hIdle.symm ▸ List.mem_cons_of_mem h hg)

theorem exhausted_iff_of_evictsFirst (hEvicts : ReflTransGen EvictsFirst p q)
    (hMax : 0 < p.config.maxSize) : q.Exhausted ↔ p.Exhausted := by
  induction hEvicts with
  | refl => exact Iff.rfl
  | @tail r q hFirst hLast ih =>
    have hConfig : r.config = p.config := (onlyConnections_of_evictsFirst hFirst).config
    have hRoom : 0 < r.config.maxSize := by rw [hConfig]; exact hMax
    exact (hLast.exhausted_iff hRoom).trans ih

/-- A pool without idle connections and without room is exhausted. -/
theorem exhausted_of_full (hIdle : p.idle = []) (hFull : p.config.maxSize ≤ p.liveCount) :
    p.Exhausted := by
  refine ⟨fun h hh => ?_, fun hVacant => ?_⟩
  · rw [hIdle] at hh
    cases hh
  · have hRoom := hVacant.room hIdle
    omega

/-- Only in an exhausted pool a caller is queued. -/
theorem exhausted_of_queued {w : WaiterId} (hMax : 0 < p.config.maxSize)
    (hAttempt : p.attempt = (r, .queued w)) : p.Exhausted := by
  obtain ⟨q, hEvicts, hIdle, hFull, -, -, -⟩ := attempt_queued hAttempt
  exact (exhausted_iff_of_evictsFirst hEvicts hMax).1 (exhausted_of_full hIdle hFull)

/-- In an exhausted pool a caller is queued, or refused if too many waits were counted. -/
theorem Exhausted.attempt (hp : p.Exhausted) (hMax : 0 < p.config.maxSize)
    (hOpen : p.disposed = false) :
    (∃ q r w, p.attempt = (r, .queued w) ∧ ReflTransGen EvictsFirst p q ∧ r = q.enqueue.1 ∧
        p.failures < p.config.maxAcquireRetryCount) ∨
      ∃ r, p.attempt = (r, .refused (.unavailable p.endpoint p.failures)) ∧
        p.config.maxAcquireRetryCount ≤ p.failures := by
  obtain ⟨q, hEvicts, hEnd⟩ := attempt_cases hOpen
  have hq : q.Exhausted := (exhausted_iff_of_evictsFirst hEvicts hMax).2 hp
  have hStanding := (onlyConnections_of_evictsFirst hEvicts).standing
  have hEndpoint : q.endpoint = p.endpoint := congrArg Standing.endpoint hStanding
  have hConfig : q.config = p.config := congrArg Standing.config hStanding
  have hFailures : q.failures = p.failures := congrArg Standing.failures hStanding
  rcases hEnd with ⟨h, rest, hIdle, hAlive, -⟩ | ⟨-, hRoom, -⟩ | ⟨-, -, hFew, hEnd⟩ |
    ⟨-, -, hMany, hEnd⟩
  · have hDead : q.isDead h = true := hq.dead h (by simp [hIdle])
    rw [hAlive] at hDead
    cases hDead
  · exact absurd (vacant_of_room hRoom) hq.full
  · rw [hConfig, hFailures] at hFew
    exact Or.inl ⟨q, _, _, hEnd, hEvicts, rfl, hFew⟩
  · rw [hConfig, hFailures] at hMany
    refine Or.inr ⟨q.refuse.1, ?_, hMany⟩
    rw [hEnd, ← hEndpoint, ← hFailures]
    rfl

/-! ## A number of waits -/

/-- A number of waits end without a connection, one after the other. -/
inductive WaitsFor : Pool → Nat → Pool → Prop
  | done (p : Pool) : WaitsFor p 0 p
  | wait {p q r : Pool} {k : Nat} (hFirst : WaitsOut p q) (hRest : WaitsFor q k r) :
    WaitsFor p (k + 1) r

/-- What a caller is told after an attempt, unless he is queued. -/
def Attempt.outcome? : Attempt → Option Outcome
  | .ready h => some (.ok h)
  | .queued _ => none
  | .refused e => some (.error e)

/-- A call with which nobody interferes is a number of waits and an attempt that is answered. -/
theorem acquireWithin_waitsFor {waits : Nat} (hp : p.Numbered)
    (hWaits : p.config.maxAcquireRetryCount ≤ p.failures + waits) :
    ∃ k q outcome, WaitsFor p k q ∧ q.attempt.2.outcome? = some outcome ∧
      p.acquireWithin waits = (q.attempt.1, outcome) := by
  induction waits generalizing p with
  | zero =>
    rw [acquireWithin]
    rcases hAttempt : p.attempt with ⟨r, h | w | e⟩
    · exact ⟨0, p, .ok h, .done p, by rw [hAttempt]; rfl, by rw [hAttempt]⟩
    · -- no caller is queued once as many waits were counted as there may be
      have hWait : WaitsOut p (r.timeOut w) := ⟨r, w, hAttempt, rfl⟩
      have hLeft := (hWait.failures_lt hp).1
      omega
    · exact ⟨0, p, .error e, .done p, by rw [hAttempt]; rfl, by rw [hAttempt]⟩
  | succ waits ih =>
    rw [acquireWithin]
    rcases hAttempt : p.attempt with ⟨r, h | w | e⟩
    · exact ⟨0, p, .ok h, .done p, by rw [hAttempt]; rfl, by rw [hAttempt]⟩
    · have hWait : WaitsOut p (r.timeOut w) := ⟨r, w, hAttempt, rfl⟩
      obtain ⟨-, hFailures, hConfig, hNumbered⟩ := hWait.failures_lt hp
      have hLeft : (r.timeOut w).config.maxAcquireRetryCount
          ≤ (r.timeOut w).failures + waits := by
        rw [hConfig, hFailures]
        omega
      obtain ⟨k, q, outcome, hRest, hLast, hEnd⟩ := ih hNumbered hLeft
      exact ⟨k + 1, q, outcome, .wait hWait hRest, hLast, hEnd⟩
    · exact ⟨0, p, .error e, .done p, by rw [hAttempt]; rfl, by rw [hAttempt]⟩

/-- A blocking call waits some number of times, and its last attempt is answered. -/
theorem acquire_waitsFor (hp : p.Numbered) :
    ∃ k q outcome, WaitsFor p k q ∧ q.attempt.2.outcome? = some outcome ∧
      p.acquire = (q.attempt.1, outcome) :=
  acquireWithin_waitsFor hp (by omega)

/-- A call that does not block comes to the same if its first attempt is answered. -/
theorem acquireStep_of_outcome (hTime : p.config.waitTimeout ≠ 0)
    (hLast : p.attempt.2.outcome? = some outcome) :
    p.acquireStep = (p.attempt.1, .done outcome) := by
  unfold acquireStep
  rw [if_neg hTime]
  rcases hAttempt : p.attempt with ⟨r, h | w | e⟩ <;> rw [hAttempt] at hLast <;> cases hLast <;> rfl

/-- A call that has to wait and does not block stops at its first wait, unless there is no time to
wait. -/
theorem acquireStep_of_queued {w : WaiterId} (hTime : p.config.waitTimeout ≠ 0)
    (hAttempt : p.attempt = (r, .queued w)) : p.acquireStep = (r, .waiting w) := by
  unfold acquireStep
  rw [if_neg hTime, hAttempt]

/-- A wait queues one more waiter, and its end is counted. -/
theorem WaitsOut.counted (hp : p.Numbered) (hWait : WaitsOut p q) :
    q.waiterCount = p.waiterCount + 1 ∧ q.metrics.timedOut = p.metrics.timedOut + 1 := by
  obtain ⟨r, w, hAttempt, rfl⟩ := hWait
  have hNone : p.attemptEvents = [] := by
    rw [attemptEvents, hAttempt]
  have hQueued := attempt_counts p
  have hLapsed := apply_counts r (.timeOut w)
  rw [hAttempt, hNone] at hQueued
  rw [eventsOf_timeOut_of_queued hp hAttempt] at hLapsed
  obtain ⟨q, hEvicts, -, -, -, rfl, rfl⟩ := attempt_queued hAttempt
  have hCount : q.waiterCount = p.waiterCount :=
    congrArg Line.waiterCount (onlyConnections_of_evictsFirst hEvicts).line
  refine ⟨?_, ?_⟩
  · rw [(timeOut_queue _ _).2, ← hCount]
    rfl
  · have hBefore : q.enqueue.1.metrics.timedOut = p.metrics.timedOut := congrArg (·.2.2) hQueued
    rw [← hBefore]
    exact congrArg (·.2.2) hLapsed

/-- Each wait has a waiter of its own, and is counted once. -/
theorem WaitsFor.counted (hp : p.Numbered) (hWaits : WaitsFor p k q) :
    q.waiterCount = p.waiterCount + k ∧ q.metrics.timedOut = p.metrics.timedOut + k := by
  induction hWaits with
  | done p => exact ⟨rfl, rfl⟩
  | wait hFirst _ ih =>
    obtain ⟨hCount, hLapsed⟩ := hFirst.counted hp
    obtain ⟨hCountRest, hLapsedRest⟩ := ih (hFirst.failures_lt hp).2.2.2
    omega

/-- The attempt that is answered in the end waits no more. -/
theorem WaitsFor.counted_last (hp : p.Numbered) (hWaits : WaitsFor p k q)
    (hLast : q.attempt.2.outcome? = some outcome) :
    q.attempt.1.waiterCount = p.waiterCount + k ∧
      q.attempt.1.metrics.timedOut = p.metrics.timedOut + k := by
  obtain ⟨hCount, hLapsed⟩ := hWaits.counted hp
  have hLine : q.attempt.1.line = q.line := by
    refine (attempt_line q).resolve_left ?_
    rintro ⟨w, hQueued⟩
    rw [hQueued] at hLast
    cases hLast
  have hNone : (q.eventsOf .attempt).countP Event.isTimedOut = 0 := by
    rcases lapses_eq q .attempt with ⟨-, hNone⟩ | ⟨w, hOp, -⟩
    · exact hNone
    · cases hOp
  have hSame : q.attempt.1.waiterCount = q.waiterCount := congrArg Line.waiterCount hLine
  have hCounts : q.attempt.1.metrics.timedOut =
      q.metrics.timedOut + q.attemptEvents.countP Event.isTimedOut :=
    congrArg (·.2.2) (attempt_counts q)
  rw [eventsOf] at hNone
  omega

theorem WaitsFor.config_eq (hp : p.Numbered) (hWaits : WaitsFor p k q) : q.config = p.config := by
  induction hWaits with
  | done p => rfl
  | wait hFirst _ ih =>
    obtain ⟨-, -, hConfig, hNext⟩ := hFirst.failures_lt hp
    exact (ih hNext).trans hConfig

/-! ## How often a call waits -/

/-- A caller waits only at an exhausted pool. -/
theorem WaitsOut.exhausted (hMax : 0 < p.config.maxSize) (hWait : WaitsOut p q) :
    p.Exhausted := by
  obtain ⟨r, w, hAttempt, -⟩ := hWait
  exact exhausted_of_queued hMax hAttempt

/-- A wait that ends without a connection leaves the pool exhausted. -/
theorem Exhausted.waitsOut (hp : p.Exhausted) (hMax : 0 < p.config.maxSize)
    (hWait : WaitsOut p q) : q.Exhausted := by
  obtain ⟨r, w, hAttempt, rfl⟩ := hWait
  obtain ⟨q, hEvicts, -, -, -, rfl, rfl⟩ := attempt_queued hAttempt
  have hq : q.Exhausted := (exhausted_iff_of_evictsFirst hEvicts hMax).2 hp
  exact hq.of_stock ((timeOut_sameStock _ _).stock.trans (enqueue_sameStock q).stock)

/-- Nobody waits at a pool that was disposed of. -/
theorem waits_of_disposed (hDisposed : p.disposed = true) (hWaits : WaitsFor p k q) : k = 0 := by
  cases hWaits with
  | done => rfl
  | wait hFirst _ =>
    obtain ⟨r, w, hAttempt, -⟩ := hFirst
    rw [attempt_of_disposed hDisposed] at hAttempt
    cases hAttempt

/-- A call does not wait in a pool that is not exhausted. -/
theorem waits_of_not_exhausted (hMax : 0 < p.config.maxSize) (hNot : ¬ p.Exhausted)
    (hWaits : WaitsFor p k q) : k = 0 := by
  cases hWaits with
  | done => rfl
  | wait hFirst _ => exact absurd (hFirst.exhausted hMax) hNot

/-- In an exhausted pool a call waits until the bound on the failures is reached, and is refused. -/
theorem Exhausted.waits (hp : p.Exhausted) (hMax : 0 < p.config.maxSize)
    (hOpen : p.disposed = false) (hNumbered : p.Numbered) (hWaits : WaitsFor p k q)
    (hLast : q.attempt.2.outcome? = some outcome) :
    k = p.config.maxAcquireRetryCount - p.failures ∧
      outcome =
        .error (.unavailable p.endpoint (max p.failures p.config.maxAcquireRetryCount)) := by
  induction hWaits with
  | done p =>
    rcases hp.attempt hMax hOpen with ⟨q, r, w, hAttempt, -⟩ | ⟨r, hAttempt, hMany⟩
    · rw [hAttempt] at hLast
      cases hLast
    · rw [hAttempt] at hLast
      cases hLast
      rw [Nat.max_eq_left hMany]
      exact ⟨by omega, rfl⟩
  | @wait p q r k hFirst _ ih =>
    obtain ⟨hFew, hFailures, hConfig, hNext⟩ := hFirst.failures_lt hNumbered
    have hStill : q.disposed = false := (congrArg Prod.snd hFirst.settings_eq).trans hOpen
    have hRoom : 0 < q.config.maxSize := by rw [hConfig]; exact hMax
    obtain ⟨hCount, hOutcome⟩ := ih (hp.waitsOut hMax hFirst) hRoom hStill hNext hLast
    rw [hConfig, hFailures] at hCount hOutcome
    rw [hFirst.endpoint_eq, Nat.max_eq_right hFew] at hOutcome
    rw [Nat.max_eq_right (Nat.le_of_lt hFew)]
    exact ⟨by omega, hOutcome⟩

/-- Where each live connection is idle or held, an exhausted pool is one with no idle connection and
no room. -/
theorem Owned.exhausted_iff {held : List Handle} (hp : p.Owned [] held) :
    p.Exhausted ↔ p.idle = [] ∧ p.liveCount = p.config.maxSize := by
  have hRoom := hp.tracked.room
  constructor
  · intro hExhausted
    have hFull : p.config.maxSize + p.idleIds.card ≤ p.liveCount := Nat.le_of_not_lt hExhausted.full
    have hNone : p.idleIds = ∅ := Finset.card_eq_zero.1 (by omega)
    refine ⟨List.eq_nil_iff_forall_not_mem.2 fun h hh => ?_, by omega⟩
    have hLive : h ∈ p.idle ++ held := List.mem_append_left _ hh
    have hIn : p.idOf h ∈ p.idleIds :=
      (mem_idleIds p _).2 ⟨⟨h, hh, rfl⟩, (tracks_iff p h).1 (hp.tracked.tracks hLive)⟩
    rw [hNone] at hIn
    exact absurd hIn (Finset.notMem_empty _)
  · rintro ⟨hIdle, hFull⟩
    exact exhausted_of_full hIdle hFull.ge

end StoreClient.Pool
