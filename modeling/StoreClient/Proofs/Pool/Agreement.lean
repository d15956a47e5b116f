import StoreClient.Proofs.Pool.Checkouts
import StoreClient.Proofs.Pool.Exhaustion

/-!
# Calls that block and calls that are polled

A call that does not block, and is polled again whenever one of its waits is over, comes to the same
as one that blocks if nobody interferes with either. Both are a number of waits and an attempt that
is answered. The one that is polled goes on in sessions that differ from the first one in the pool,
the time and the task alone (`onward`).
-/

namespace StoreClient.Session

open Pool

variable {s : Session} {p q r : Pool} {n k now : Nat} {tasks : List Task} {guarded : Bool}

/-! ## A call that is polled -/

/-- What a call is answered that was just begun or polled. -/
def Answer.current : Answer → Answer
  | .started _ answer => answer
  | answer => answer

/-- A wait runs to its end, and its task is polled. -/
def pollNext (n : Nat) (s : Session) : Session × Answer :=
  (s.step (.advance s.pool.config.waitTimeout)).1.step (.poll n)

/-- A task is polled at the end of each of its waits, for a number of rounds. -/
def pollAgain (n : Nat) : (rounds : Nat) → Session × Answer → Session × Answer
  | 0, x => x
  | rounds + 1, x => pollAgain n rounds (pollNext n x.1)

/-- A call that does not block, polled again for a number of rounds. -/
def polled (s : Session) (guarded : Bool) (rounds : Nat) : Session × Answer :=
  let begun := s.step (.start guarded)
  pollAgain s.started rounds (begun.1, begun.2.current)

/-- A session in which a call goes on that was begun in another one. -/
def onward (s : Session) (p : Pool) (now : Nat) (tasks : List Task) : Session :=
  { s with pool := p, now, tasks, started := s.started + 1 }

theorem settle_of_mem {t : Task} (ht : t ∈ s.tasks) : s.settle = s :=
  settle_of_task (settle_tasks s ▸ ht)

theorem task?_putTask (s : Session) (t : Task) : (s.putTask t).task? t.number = some t := by
  have hReplaced : ∀ l : List Task, l.any (·.number == t.number) = true →
      (l.map fun u => if u.number == t.number then t else u).find? (·.number == t.number) =
        some t := by
    intro l hAny
    induction l with
    | nil => cases hAny
    | cons u rest ih =>
      by_cases hSame : u.number = t.number
      · simp [hSame]
      · have hRest : rest.any (·.number == t.number) = true := by simpa [hSame] using hAny
        simpa [hSame] using ih hRest
  unfold putTask task?
  by_cases hAny : s.tasks.any (·.number == t.number) = true
  · rw [if_pos hAny]
    exact hReplaced s.tasks hAny
  · have hNone : s.tasks.find? (·.number == t.number) = none := by
      refine List.find?_eq_none.2 fun u hu hEq => hAny ?_
      exact List.any_eq_true.2 ⟨u, hu, hEq⟩
    rw [if_neg hAny]
    simp [hNone]

theorem removeTask_putTask (s : Session) (t : Task) :
    ((s.putTask t).removeTask t.number).tasks = (s.removeTask t.number).tasks := by
  have hReplaced : ∀ l : List Task,
      (l.map fun u => if u.number == t.number then t else u).filter (·.number != t.number) =
        l.filter (·.number != t.number) := by
    intro l
    induction l with
    | nil => rfl
    | cons u rest ih =>
      by_cases hSame : u.number = t.number
      · simpa [hSame] using ih
      · simpa [hSame] using ih
  unfold putTask removeTask
  split
  · exact hReplaced s.tasks
  · simp

/-- A task that keeps waiting leaves everything else as it was. -/
theorem putTask_onward (s : Session) (p : Pool) (now : Nat) (tasks : List Task) (t : Task) :
    ∃ tasks', (s.onward p now tasks).putTask t = s.onward p now tasks' := by
  unfold putTask
  split
  · exact ⟨_, rfl⟩
  · exact ⟨_, rfl⟩

/-! ## One wait -/

/-- The tasks other than the one that goes on are those of the first session. -/
def Keeps (s : Session) (tasks : List Task) : Prop :=
  tasks.filter (·.number != s.started) = s.tasks

/-- A poll after the deadline ends the wait, and the task goes on. -/
theorem pollTask_of_over {t : Task} (hNot : s.pool.isCompleted t.waiter = false)
    (hOver : t.deadline ≤ s.now) :
    s.pollTask t = { s with pool := s.pool.timeOut t.waiter }.advanceTask t.number t.guarded := by
  rw [pollTask, hNot, if_neg Bool.false_ne_true, if_pos hOver]

/-- The task of a caller that is queued is pending. -/
theorem advanceTask_of_queued {w : WaiterId} (now : Nat) (guarded : Bool)
    (hTasks : s.Keeps tasks) (hTime : p.config.waitTimeout ≠ 0)
    (hAttempt : p.attempt = (q, .queued w)) :
    ∃ tasks', s.Keeps tasks' ∧
      (s.onward p now tasks).advanceTask s.started guarded =
        (s.onward q now tasks', .pending) ∧
      (s.onward q now tasks').task? s.started = some
        { number := s.started, waiter := w, deadline := now + q.config.waitTimeout, guarded } := by
  let t : Task :=
    { number := s.started, waiter := w, deadline := now + q.config.waitTimeout, guarded }
  obtain ⟨tasks', hPut⟩ := putTask_onward s q now tasks t
  refine ⟨tasks', ?_, ?_, ?_⟩
  · have hRemoved := removeTask_putTask (s.onward q now tasks) t
    rw [hPut] at hRemoved
    exact hRemoved.trans hTasks
  · have hStep : (s.onward p now tasks).pool.acquireStep = (q, .waiting w) :=
      acquireStep_of_queued hTime hAttempt
    rw [advanceTask, hStep]
    exact congrArg (·, Answer.pending) hPut
  · rw [← hPut]
    exact task?_putTask (s.onward q now tasks) t

/-- A pending task goes on when its wait is over. -/
theorem pollNext_onward {w : WaiterId} (hNot : q.isCompleted w = false)
    (hTask : (s.onward q now tasks).task? s.started = some
      { number := s.started, waiter := w, deadline := now + q.config.waitTimeout, guarded }) :
    pollNext s.started (s.onward q now tasks) =
      let x := (s.onward (q.timeOut w) (now + q.config.waitTimeout) tasks).advanceTask s.started
        guarded
      (x.1.settle, x.2) := by
  have hMem := (task?_eq_some hTask).1
  have hLater : ((s.onward q now tasks).step (.advance q.config.waitTimeout)).1 =
      s.onward q (now + q.config.waitTimeout) tasks := by
    rw [step_eq]
    exact settle_of_mem (s := s.onward q (now + q.config.waitTimeout) tasks) hMem
  have hStill := hTask
  rw [show (s.onward q now tasks).task? s.started =
    (s.onward q (now + q.config.waitTimeout) tasks).task? s.started from rfl] at hStill
  have hPool : (s.onward q now tasks).pool.config = q.config := rfl
  rw [pollNext, hPool, hLater, step_eq, perform, hStill]
  dsimp only
  rw [pollTask_of_over hNot (Nat.le_refl _)]
  rfl

/-! ## All waits -/

/-- As long as its waits end without a connection, a call stays pending; then it makes its last
attempt. -/
theorem pollAgain_waits (now : Nat) (guarded : Bool) (hWaits : WaitsFor p k q)
    (hTasks : s.Keeps tasks) (hp : p.Numbered) (hTime : p.config.waitTimeout ≠ 0) :
    let x := (s.onward p now tasks).advanceTask s.started guarded
    (∀ j < k, (pollAgain s.started j (x.1.settle, x.2)).2 = .pending) ∧
      ∃ now' tasks', s.Keeps tasks' ∧
        pollAgain s.started k (x.1.settle, x.2) =
          let y := (s.onward q now' tasks').advanceTask s.started guarded
          (y.1.settle, y.2) := by
  induction hWaits generalizing now tasks with
  | done p => exact ⟨nofun, now, tasks, hTasks, rfl⟩
  | @wait p q r k hFirst _ ih =>
    obtain ⟨-, -, hConfig, hNext⟩ := hFirst.failures_lt hp
    obtain ⟨q', w, hAttempt, rfl⟩ := hFirst
    obtain ⟨tasks', hKeeps, hAdvance, hFind⟩ :=
      advanceTask_of_queued now guarded hTasks hTime hAttempt
    have hPoll := pollNext_onward (attempt_fresh hp hAttempt) hFind
    have hSettled : (s.onward q' now tasks').settle = s.onward q' now tasks' :=
      settle_of_mem (task?_eq_some hFind).1
    have hStill : (q'.timeOut w).config.waitTimeout ≠ 0 := by
      rw [hConfig]
      exact hTime
    obtain ⟨hPending, now', tasks'', hLast, hEnd⟩ :=
      ih (now + q'.config.waitTimeout) hKeeps hNext hStill
    intro x
    have hx : (x.1.settle, x.2) = (s.onward q' now tasks', Answer.pending) := by
      rw [show x = (s.onward q' now tasks', Answer.pending) from hAdvance, hSettled]
    rw [hx]
    refine ⟨fun j hj => ?_, now', tasks'', hLast, ?_⟩
    · cases j with
      | zero => rfl
      | succ j =>
        rw [pollAgain, hPoll]
        exact hPending j (Nat.lt_of_succ_lt_succ hj)
    · rw [pollAgain, hPoll]
      exact hEnd

/-! ## The last attempt -/

/-- A session that differs in the time and in the number of tasks that were started. -/
def later (s : Session) (now started : Nat) : Session := { s with now, started }

theorem settle_later (s : Session) (now started : Nat) :
    (s.later now started).settle = s.settle.later now started := by
  have hHeld : (s.later now started).isHeld = s.isHeld := rfl
  unfold settle
  rw [hHeld]
  split <;> rfl

/-- A call that was polled is answered as if it had blocked. -/
theorem advanceTask_of_done {outcome : Outcome} (hTasks : s.Keeps tasks)
    (hStep : p.acquireStep = (q, .done outcome)) :
    (s.onward p now tasks).advanceTask s.started guarded =
      let y := ({ s with pool := q } : Session).deliver guarded outcome
      (y.1.later now (s.started + 1), y.2) := by
  have hPool : (s.onward p now tasks).pool.acquireStep = (q, .done outcome) := hStep
  have hSame : (s.onward q now tasks).removeTask s.started =
      ({ s with pool := q } : Session).later now (s.started + 1) := by
    show s.onward q now (tasks.filter (·.number != s.started)) = _
    rw [hTasks]
    rfl
  rw [advanceTask, hPool]
  show ((s.onward q now tasks).removeTask s.started).deliver guarded outcome = _
  rw [hSame]
  cases outcome with
  | ok h => rfl
  | error e => rfl

theorem step_acquire {outcome : Outcome} (hCall : s.pool.acquire = (q, outcome)) :
    s.step (.acquire guarded) =
      let y := ({ s with pool := q } : Session).deliver guarded outcome
      (y.1.settle, y.2) := by
  rw [step_eq, perform, acquire, hCall]

/-- A call that is polled whenever one of its waits is over ends as one that blocks. -/
theorem polled_agrees (hs : s.Enlisted) (hp : s.pool.Numbered) (guarded : Bool) :
    ∃ (k rounds : Nat) (q : Pool) (outcome : Outcome),
      WaitsFor s.pool k q ∧ q.attempt.2.outcome? = some outcome ∧
        s.pool.acquire = (q.attempt.1, outcome) ∧
        rounds = (if s.pool.config.waitTimeout = 0 then 0 else k) ∧
        (∀ j < rounds, (s.polled guarded j).2 = .pending) ∧
        (s.polled guarded rounds).2 = (s.step (.acquire guarded)).2 ∧
        (s.polled guarded rounds).1 =
          (s.step (.acquire guarded)).1.later (s.polled guarded rounds).1.now (s.started + 1) := by
  obtain ⟨k, q, outcome, hWaits, hLast, hCall⟩ := acquire_waitsFor hp
  have hBegun (rounds : Nat) : s.polled guarded rounds =
      let x := (s.onward s.pool s.now s.tasks).advanceTask s.started guarded
      pollAgain s.started rounds (x.1.settle, x.2) := rfl
  have hEnd {p : Pool} {now : Nat} {tasks : List Task} (rounds : Nat) (hTasks : s.Keeps tasks)
      (hStep : p.acquireStep = (q.attempt.1, .done outcome))
      (hPolled : s.polled guarded rounds =
        let y := (s.onward p now tasks).advanceTask s.started guarded
        (y.1.settle, y.2)) :
      (s.polled guarded rounds).2 = (s.step (.acquire guarded)).2 ∧
        (s.polled guarded rounds).1 =
          (s.step (.acquire guarded)).1.later (s.polled guarded rounds).1.now (s.started + 1) := by
    rw [hPolled, advanceTask_of_done hTasks hStep, step_acquire hCall]
    dsimp only
    rw [settle_later]
    exact ⟨rfl, rfl⟩
  by_cases hTime : s.pool.config.waitTimeout = 0
  · -- a wait takes no time, and a call that does not block is one that does
    have hStep : s.pool.acquireStep = (q.attempt.1, .done outcome) := by
      rw [acquireStep, if_pos hTime, hCall]
    obtain ⟨hAnswer, hSession⟩ := hEnd 0 hs.removeTask_started hStep rfl
    exact ⟨k, 0, q, outcome, hWaits, hLast, hCall, (if_pos hTime).symm, nofun, hAnswer, hSession⟩
  · -- each poll comes when a wait is over
    obtain ⟨hPending, now, tasks, hTasks, hPolled⟩ :=
      pollAgain_waits s.now guarded hWaits hs.removeTask_started hp hTime
    have hConfig : q.config.waitTimeout ≠ 0 := by
      rw [hWaits.config_eq hp]
      exact hTime
    obtain ⟨hAnswer, hSession⟩ :=
      hEnd k hTasks (acquireStep_of_outcome hConfig hLast) hPolled
    exact ⟨k, k, q, outcome, hWaits, hLast, hCall, (if_neg hTime).symm, hPending, hAnswer, hSession⟩

/-! ## Both calls -/

/-- What is counted about waits is not changed when the pool is disposed of after the last step. -/
theorem settle_waits (s : Session) :
    s.settle.pool.waiterCount = s.pool.waiterCount ∧
      s.settle.pool.metrics.timedOut = s.pool.metrics.timedOut := by
  unfold settle
  split
  · exact ⟨rfl, rfl⟩
  · exact ⟨dispose_waiterCount s.pool, congrArg (·.2.2) (dispose_sameTally s.pool).counts⟩

/-- Whatever was done to a pool before: a call that blocks, and one that does not block and is
polled at the end of each of its waits, wait the same number of times, are answered the same and
leave the same pool, if nobody interferes with them. In a pool that is exhausted and was not
disposed of they wait until the bound on the failures is reached, and are told that no connection is
available. In any other pool they do not wait. Where callers are honest a pool is exhausted if no
connection is idle and there are as many as there may be. -/
theorem blocking_and_polled_agree (endpoint : Endpoint) (config : PoolConfig)
    (factory : List FactoryOutcome) (uses : List Use) (guarded : Bool) (hValid : config.Valid) :
    let s := useAll { pool := fresh endpoint config factory } uses
    let blocked := s.step (.acquire guarded)
    (∃ waits rounds : Nat,
      let last := s.polled guarded rounds
      (∀ j < rounds, (s.polled guarded j).2 = .pending) ∧
        rounds = (if config.waitTimeout = 0 then 0 else waits) ∧
        last.2 = blocked.2 ∧ blocked.2.isFinal = true ∧
        last.1 = blocked.1.later last.1.now (s.started + 1) ∧
        blocked.1.pool.waiterCount = s.pool.waiterCount + waits ∧
        blocked.1.pool.metrics.timedOut = s.pool.metrics.timedOut + waits ∧
        (s.pool.disposed = false → s.pool.Exhausted →
          waits = config.maxAcquireRetryCount - s.pool.failures ∧
            blocked.2 = .refused (.unavailable endpoint config.maxAcquireRetryCount)) ∧
        (s.pool.disposed = true ∨ ¬ s.pool.Exhausted → waits = 0)) ∧
      ∀ steps, KeepsIds 1 factory → (Custody.start endpoint config factory).Honest steps →
        let p := ((Custody.start endpoint config factory).run steps).session.pool
        p.disposed = false →
          (p.Exhausted ↔ p.idle = [] ∧ p.liveCount = config.maxSize) := by
  intro s blocked
  have hs : s.Enrolled := (enrolled_fresh endpoint config factory).useAll uses
  have hEnlisted : s.Enlisted := ((enlisted_fresh endpoint config factory).useAll uses).1
  obtain ⟨hEndpoint, hConfig⟩ : s.pool.endpoint = endpoint ∧ s.pool.config = config :=
    useAll_built { pool := fresh endpoint config factory } uses
  have hMax : 0 < s.pool.config.maxSize := by
    rw [hConfig]
    exact hValid.1
  refine ⟨?_, fun steps hIds hHonest => ?_⟩
  · obtain ⟨waits, rounds, q, outcome, hWaits, hLast, hCall, hRounds, hPending, hAnswer,
      hSession⟩ := polled_agrees hEnlisted hs.numbered guarded
    have hBlocked : blocked = _ := step_acquire hCall
    obtain ⟨hCount, hLapsed⟩ := hWaits.counted_last hs.numbered hLast
    obtain ⟨hSettled, hSettledLapsed⟩ :=
      settle_waits (({ s with pool := q.attempt.1 } : Session).deliver guarded outcome).1
    rw [deliver_pool] at hSettled hSettledLapsed
    rw [hConfig] at hRounds
    refine ⟨waits, rounds, hPending, hRounds, hAnswer, ?_, hSession, ?_, ?_, fun hOpen hFull => ?_,
      fun hNot => ?_⟩
    · rw [hBlocked]
      exact deliver_isFinal _ guarded outcome
    · rw [hBlocked]
      exact hSettled.trans hCount
    · rw [hBlocked]
      exact hSettledLapsed.trans hLapsed
    · obtain ⟨hAll, hOutcome⟩ := hFull.waits hMax hOpen hs.numbered hWaits hLast
      have hTallied := tallied_useAll (attended_fresh endpoint config factory) hValid
        (tallied_fresh endpoint config factory hValid) 0 uses
      -- an exhausted pool refuses its callers before more failures are counted than there may be
      obtain ⟨few, hFew, hCounted⟩ := (hTallied.exhausted hOpen).resolve_left hFull.full
      have hFailures : s.pool.failures = few := by
        rw [hTallied.failures_eq, hCounted, List.length_replicate]
      rw [hConfig] at hAll hOutcome
      rw [hEndpoint, Nat.max_eq_right (by omega)] at hOutcome
      refine ⟨hAll, ?_⟩
      rw [hBlocked, hOutcome]
      rfl
    · rcases hNot with hDisposed | hNot
      · exact waits_of_disposed hDisposed hWaits
      · exact waits_of_not_exhausted hMax hNot hWaits
  · intro p hOpen
    have hOwned := (Custody.Sound.run (fun _ => Custody.sound_start endpoint config hIds) hHonest
      hOpen).owned
    have hSame : p.config = config := by
      have hSession := Custody.run_session (Custody.start endpoint config factory) steps
      have hStill := hOpen
      rw [show p = _ from congrArg Session.pool hSession] at hStill ⊢
      exact congrArg Prod.fst (run_settings hStill)
    rw [← hSame]
    exact hOwned.exhausted_iff

/-- The only connection is held, one wait has already ended for nothing and two failures are
allowed: the call waits once more, and is told that no connection is available. -/
theorem polled_once_and_refused :
    let s := useAll
      { pool := fresh ⟨.v4 [127, 0, 0, 1], 11210⟩ { maxSize := 1, maxAcquireRetryCount := 2 } [] }
      [.step (.acquire false), .step (.start false), .step (.advance 2500), .step (.poll 0)]
    s.pool.Exhausted ∧ (s.polled false 0).2 = .pending ∧
      (s.polled false 1).2 = .refused (.unavailable ⟨.v4 [127, 0, 0, 1], 11210⟩ 2) := by
  have hAgree := (blocking_and_polled_agree ⟨.v4 [127, 0, 0, 1], 11210⟩
    { maxSize := 1, maxAcquireRetryCount := 2 } []
    [.step (.acquire false), .step (.start false), .step (.advance 2500), .step (.poll 0)]
    false (by decide)).1
  generalize hState : useAll _ _ = s at hAgree ⊢
  have hOpen : s.pool.disposed = false := by
    rw [← hState]
    decide +kernel
  have hFull : s.pool.Exhausted := by
    rw [← hState]
    exact exhausted_of_full (by decide +kernel) (by decide +kernel)
  have hFailures : s.pool.failures = 1 := by
    rw [← hState]
    decide +kernel
  obtain ⟨waits, rounds, hPending, hRounds, hAnswer, -, -, -, -, hAll, -⟩ := hAgree
  obtain ⟨hWaits, hRefused⟩ := hAll hOpen hFull
  have hOne : rounds = 1 := by
    rw [hRounds, hWaits, hFailures]
    rfl
  subst hOne
  exact ⟨hFull, hPending 0 Nat.one_pos, hAnswer.trans hRefused⟩

end StoreClient.Session
