import StoreClient.Proofs.Pool.Accounting
import StoreClient.Proofs.Pool.Custody

/-!
# Disposal is final

All who wait for a connection are in the queue, and the disposal of a pool completes the waiters in
it. From then on every operation that could hand out a connection, make one or leave one idle finds
that the pool was disposed of. Connections are still given back, and are closed.
-/

namespace StoreClient

namespace Pool

variable {p q r : Pool} {h : Handle} {w : WaiterId}

/-! ## Who waits is in the queue -/

/-- Every waiter that was not completed is in the queue. -/
def Listed (p : Pool) : Prop := ∀ w < p.waiterCount, p.isCompleted w = true ∨ w ∈ p.queue

theorem Listed.congr (hp : p.Listed) (hLine : q.line = p.line) : q.Listed := by
  have hCount : q.waiterCount = p.waiterCount := congrArg Line.waiterCount hLine
  have hQueue : q.queue = p.queue := congrArg Line.queue hLine
  intro w hw
  rw [isCompleted_congr hLine, hQueue]
  rw [hCount] at hw
  exact hp w hw

/-- Who is queued gets a number that no other waiter has. -/
theorem Listed.enqueue (hp : p.Listed) : p.enqueue.1.Listed := by
  intro w hw
  change p.isCompleted w = true ∨ w ∈ p.queue ++ [p.waiterCount]
  rw [List.mem_append, List.mem_singleton]
  rcases Nat.lt_succ_iff_lt_or_eq.1 hw with hw | hw
  · exact (hp w hw).imp_right Or.inl
  · exact Or.inr (Or.inr hw)

/-- Completing a waiter completes no other one, and a completed one stays so. -/
theorem isCompleted_complete (p : Pool) (v w : WaiterId) :
    (p.complete v).isCompleted w = true ↔ w = v ∨ p.isCompleted w = true := by
  cases hDone : p.isCompleted v with
  | true =>
    rw [complete, if_pos hDone]
    refine ⟨Or.inr, ?_⟩
    rintro (rfl | hw)
    · exact hDone
    · exact hw
  | false =>
    rw [complete_of_not_completed hDone]
    exact isCompleted_cons rfl w

theorem complete_queue (p : Pool) (w : WaiterId) :
    (p.complete w).queue = p.queue ∧ (p.complete w).waiterCount = p.waiterCount := by
  unfold complete
  split <;> exact ⟨rfl, rfl⟩

/-- Completing a waiter takes nobody out of the queue. -/
theorem Listed.complete (hp : p.Listed) (v : WaiterId) : (p.complete v).Listed := by
  obtain ⟨hQueue, hCount⟩ := complete_queue p v
  intro w hw
  rw [isCompleted_complete, hQueue]
  rw [hCount] at hw
  exact (hp w hw).imp_left Or.inr

theorem Listed.timeOut (hp : p.Listed) (w : WaiterId) : (p.timeOut w).Listed :=
  (hp.complete w).congr (timeOut_line p w)

theorem timeOut_queue (p : Pool) (w : WaiterId) :
    (p.timeOut w).queue = p.queue ∧ (p.timeOut w).waiterCount = p.waiterCount := by
  have hLine := timeOut_line p w
  obtain ⟨hQueue, hCount⟩ := complete_queue p w
  exact ⟨(congrArg Line.queue hLine).trans hQueue, (congrArg Line.waiterCount hLine).trans hCount⟩

/-- A wakeup takes only completed waiters out of the queue. -/
theorem Listed.wakeNext (hp : p.Listed) : p.wakeNext.Listed := by
  intro v hv
  rw [(wakeNext_onlyWaiters p).waiterCount] at hv
  rcases wakeNext_cases p with ⟨hDone, hEq⟩ | ⟨done, w, rest, hQueue, hDone, -, hEq⟩
  · rw [hEq]
    exact Or.inl ((hp v hv).elim id (hDone v))
  · have hCompleted : p.wakeNext.isCompleted v = true ↔ v = w ∨ p.isCompleted v = true :=
      isCompleted_cons (by rw [hEq]) v
    have hLeft : p.wakeNext.queue = rest := by rw [hEq]
    rw [hCompleted, hLeft]
    rcases hp v hv with hv | hv
    · exact Or.inl (Or.inr hv)
    · rw [hQueue] at hv
      rcases List.mem_append.1 hv with hv | hv
      · exact Or.inl (Or.inr (hDone v hv))
      · exact (List.mem_cons.1 hv).imp_left Or.inl

/-- Giving a wait up takes only completed waiters out of the queue. -/
theorem Listed.abandon (hp : p.Listed) (w : WaiterId) : (p.abandon w).Listed := by
  unfold Pool.abandon
  split
  · have hNoted : (p.note .debug "abandoned wait was signaled, waking next").Listed := hp.congr rfl
    exact hNoted.wakeNext
  · exact hp.complete w

/-- An attempt takes nobody out of the queue, and may add its caller. -/
theorem Listed.attempt (hp : p.Listed) : p.attempt.1.Listed := by
  rcases attempt_line_or_enqueue p with ⟨q, hLine, hEnd⟩ | hLine
  · rw [hEnd]
    exact (hp.congr hLine).enqueue
  · exact hp.congr hLine

theorem Listed.release (hp : p.Listed) (h : Handle) : (p.release h).Listed := by
  obtain ⟨q, hSettled, hEq⟩ := release_cases p h
  rw [hEq]
  exact (hp.congr hSettled.line).wakeNext

/-- Those are completed that were completed before, and the given ones. -/
theorem isCompleted_foldl_complete (p : Pool) (waiters : List WaiterId) (w : WaiterId) :
    (waiters.foldl complete p).isCompleted w = true ↔ w ∈ waiters ∨ p.isCompleted w = true := by
  induction waiters generalizing p with
  | nil => exact ⟨Or.inr, fun hw => hw.elim (fun hMem => absurd hMem List.not_mem_nil) id⟩
  | cons v rest ih =>
    rw [List.foldl_cons, ih, isCompleted_complete, List.mem_cons, or_left_comm, or_assoc]

/-- The pool that is being disposed of, once it has parted with its live connections. -/
def retired (p : Pool) : Pool := (p.registry.map (·.2)).foldl retire { p with disposed := true }

theorem retired_line (p : Pool) : p.retired.line = { p.line with disposed := true } :=
  (foldl_retire_onlyConnections _ _).line

/-- A disposal closes the connections, empties the pool and completes whoever is queued. -/
theorem dispose_of_open (hOpen : p.disposed = false) :
    ∃ log, p.dispose =
      { p.retired.queue.foldl complete p.retired with idle := [], queue := [], log } := by
  have hNot : ¬ p.disposed = true := by
    rw [hOpen]
    exact Bool.false_ne_true
  unfold dispose
  rw [if_neg hNot]
  exact ⟨_, rfl⟩

/-- A second disposal does nothing. -/
theorem dispose_of_disposed (hDisposed : p.disposed = true) : p.dispose = p := by
  unfold dispose
  rw [if_pos hDisposed]

/-- A disposal tells callers nothing by itself. -/
theorem dispose_sameTally (p : Pool) : SameTally p p.dispose := by
  cases hDisposed : p.disposed with
  | true =>
    rw [dispose_of_disposed hDisposed]
    exact .refl p
  | false =>
    obtain ⟨log, hEq⟩ := dispose_of_open hDisposed
    have hMarked : SameTally p { p with disposed := true } := ⟨rfl, rfl, rfl, rfl, rfl, rfl⟩
    have hRetired : SameTally { p with disposed := true } p.retired :=
      (foldl_retire_onlyConnections _ _).toSameTally
    have hWoken := (foldl_complete_onlyWaiters p.retired p.retired.queue).toSameTally
    rw [hEq]
    exact (hMarked.trans hRetired).trans (hWoken.trans ⟨rfl, rfl, rfl, rfl, rfl, rfl⟩)

theorem dispose_waiterCount (p : Pool) : p.dispose.waiterCount = p.waiterCount := by
  cases hDisposed : p.disposed with
  | true => rw [dispose_of_disposed hDisposed]
  | false =>
    obtain ⟨log, hEq⟩ := dispose_of_open hDisposed
    rw [hEq]
    exact (foldl_complete_onlyWaiters p.retired _).waiterCount.trans
      (congrArg Line.waiterCount (retired_line p))

/-- A disposal completes everybody whom it takes out of the queue. -/
theorem Listed.dispose (hp : p.Listed) : p.dispose.Listed := by
  cases hDisposed : p.disposed with
  | true =>
    rw [dispose_of_disposed hDisposed]
    exact hp
  | false =>
    obtain ⟨log, hEq⟩ := dispose_of_open hDisposed
    have hMarked : ({ p with disposed := true } : Pool).Listed := hp
    have hRetired : p.retired.Listed := hMarked.congr (retired_line p)
    intro w hw
    refine Or.inl ?_
    rw [hEq] at hw ⊢
    refine (isCompleted_foldl_complete p.retired _ w).2 (hRetired w ?_).symm
    rw [← (foldl_complete_onlyWaiters p.retired p.retired.queue).waiterCount]
    exact hw

/-! ## Operations on a pool that was disposed of -/

/-- Who waits is in the queue. If the pool was disposed of, nobody waits and no connection is
idle. -/
structure Orderly (p : Pool) : Prop where
  listed : p.Listed
  queue : p.disposed = true → p.queue = []
  idle : p.disposed = true → p.idle = []

/-- Nobody waits at a pool that has been disposed of. -/
theorem Orderly.completed (hp : p.Orderly) (hDisposed : p.disposed = true)
    (hw : w < p.waiterCount) : p.isCompleted w = true := by
  refine (hp.listed w hw).resolve_right ?_
  rw [hp.queue hDisposed]
  exact List.not_mem_nil

theorem openMinimum_of_disposed (hDisposed : p.disposed = true) : p.openMinimum = p := by
  unfold openMinimum
  rw [if_pos hDisposed]

/-- A connection that is given back after the disposal is closed. -/
theorem release_stock_of_disposed (hDisposed : p.disposed = true) (h : Handle) :
    (p.release h).stock = ((p.modify h (Connection.markUsed false)).destroy h).stock := by
  rw [release_stock, hDisposed, Bool.or_true, if_pos rfl]

/-- A call at a disposed pool is refused without a wait. -/
theorem acquireWithin_of_disposed (hDisposed : p.disposed = true) (waits : Nat) :
    p.acquireWithin waits = (p, .error .closed) := by
  cases waits <;> rw [acquireWithin, attempt_of_disposed hDisposed]

theorem acquireStep_of_disposed (hDisposed : p.disposed = true) :
    p.acquireStep = (p, .done (.error .closed)) := by
  unfold acquireStep
  split
  · rw [acquire, acquireWithin_of_disposed hDisposed]
  · rw [attempt_of_disposed hDisposed]

/-- What further operations leave as it is in a pool that was disposed of. Connections may only be
closed, and callers only leave the queue. -/
structure WindsDown (p q : Pool) : Prop where
  disposed : q.disposed = true
  factory : q.factory = p.factory
  nextId : q.nextId = p.nextId
  countdowns : q.connections.map (·.countdowns) = p.connections.map (·.countdowns)
  idle : q.idle = p.idle
  liveCount : q.liveCount ≤ p.liveCount
  waiterCount : q.waiterCount = p.waiterCount
  queue : q.queue <:+ p.queue

theorem WindsDown.refl (hDisposed : p.disposed = true) : p.WindsDown p :=
  ⟨hDisposed, rfl, rfl, rfl, rfl, Nat.le_refl _, rfl, List.suffix_refl _⟩

/-- Winding down goes on from one operation to the next. -/
theorem WindsDown.trans (hFirst : p.WindsDown q) (hLast : q.WindsDown r) : p.WindsDown r where
  disposed := hLast.disposed
  factory := hLast.factory.trans hFirst.factory
  nextId := hLast.nextId.trans hFirst.nextId
  countdowns := hLast.countdowns.trans hFirst.countdowns
  idle := hLast.idle.trans hFirst.idle
  liveCount := hLast.liveCount.trans hFirst.liveCount
  waiterCount := hLast.waiterCount.trans hFirst.waiterCount
  queue := hLast.queue.trans hFirst.queue

/-- A disposed pool winds down where only waiters change. -/
theorem WindsDown.of_stock (hDisposed : p.disposed = true) (hStock : q.stock = p.stock)
    (hQueue : q.queue <:+ p.queue) (hCount : q.waiterCount = p.waiterCount) : p.WindsDown q where
  disposed := (congrArg Stock.disposed hStock).trans hDisposed
  factory := congrArg Stock.factory hStock
  nextId := congrArg Stock.nextId hStock
  countdowns := congrArg (fun k => k.connections.map (·.countdowns)) hStock
  idle := congrArg Stock.idle hStock
  liveCount := (congrArg Stock.liveCount hStock).le
  waiterCount := hCount
  queue := hQueue

theorem WindsDown.modify (hDisposed : p.disposed = true) (h : Handle) {f : Connection → Connection}
    (hf : ∀ c, (f c).countdowns = c.countdowns) : p.WindsDown (p.modify h f) where
  disposed := hDisposed
  factory := rfl
  nextId := rfl
  countdowns := map_modify p h hf
  idle := rfl
  liveCount := Nat.le_refl _
  waiterCount := rfl
  queue := List.suffix_refl _

theorem WindsDown.destroy (hDisposed : p.disposed = true) (h : Handle) :
    p.WindsDown (p.destroy h) := by
  obtain ⟨metrics, hEq⟩ := destroy_eq p h
  rw [hEq]
  exact ⟨hDisposed, rfl, rfl, map_modify p h fun _ => rfl, rfl, Nat.sub_le _ _, rfl,
    List.suffix_refl _⟩

/-- A connection that is given back after the disposal is closed, whether it is dead or not. -/
theorem WindsDown.release (hDisposed : p.disposed = true) (h : Handle) :
    p.WindsDown (p.release h) := by
  have hReturned := WindsDown.modify hDisposed h (f := Connection.markUsed false) fun _ => rfl
  have hClosed := hReturned.trans (WindsDown.destroy hReturned.disposed h)
  have hLine : ((p.modify h (Connection.markUsed false)).destroy h).line = p.line :=
    (destroy_onlyConnections (p.modify h (Connection.markUsed false)) h).line
  obtain ⟨q, hSettled, hEq⟩ := release_cases p h
  have hSame := hSettled.line.trans hLine.symm
  have hQueue : q.queue = ((p.modify h (Connection.markUsed false)).destroy h).queue :=
    congrArg Line.queue hSame
  have hWoken := wakeNext_onlyWaiters q
  refine hClosed.trans
    (WindsDown.of_stock hClosed.disposed (release_stock_of_disposed hDisposed h) ?_ ?_)
  · rw [hEq, ← hQueue]
    exact hWoken.queue
  · rw [hEq]
    exact hWoken.waiterCount.trans (congrArg Line.waiterCount hSame)

/-- No operation makes, hands out or idles a connection of a pool that was disposed of. -/
theorem WindsDown.apply (hDisposed : p.disposed = true) (op : Op) : p.WindsDown (p.apply op) := by
  cases op with
  | openMinimum =>
    rw [Pool.apply, openMinimum_of_disposed hDisposed]
    exact WindsDown.refl hDisposed
  | attempt =>
    rw [Pool.apply, attempt_of_disposed hDisposed]
    exact WindsDown.refl hDisposed
  | timeOut w =>
    obtain ⟨hQueue, hCount⟩ := timeOut_queue p w
    exact WindsDown.of_stock hDisposed (timeOut_sameStock p w).stock
      (hQueue.symm ▸ List.suffix_refl _) hCount
  | abandon w =>
    have hWoken := abandon_onlyWaiters p w
    exact WindsDown.of_stock hDisposed hWoken.stock hWoken.queue hWoken.waiterCount
  | release h => exact WindsDown.release hDisposed h
  | dispose =>
    rw [Pool.apply, dispose_of_disposed hDisposed]
    exact WindsDown.refl hDisposed
  | setDead h dead => exact WindsDown.modify hDisposed h fun _ => rfl
  | shut h => exact WindsDown.modify hDisposed h fun _ => rfl
  | returning h => exact WindsDown.of_stock hDisposed rfl (List.suffix_refl _) rfl
  | cycleBuffers count => exact WindsDown.of_stock hDisposed rfl (List.suffix_refl _) rfl

/-- Whatever is done to a pool after its disposal winds it down. -/
theorem windsDown_applyAll (hDisposed : p.disposed = true) (ops : List Op) :
    p.WindsDown (p.applyAll ops) :=
  applyAll_induction (P := p.WindsDown)
    (fun _ op hq => hq.trans (WindsDown.apply hq.disposed op)) (WindsDown.refl hDisposed) ops

/-- A pool that is open after an operation was so before, and was not disposed of. -/
theorem open_of_apply {op : Op} (hAfter : (p.apply op).disposed = false) :
    p.disposed = false ∧ op ≠ .dispose := by
  refine ⟨Bool.eq_false_iff.2 fun hDisposed => ?_, ?_⟩
  · cases hAfter.symm.trans (WindsDown.apply hDisposed op).disposed
  · rintro rfl
    cases hAfter.symm.trans (dispose_disposed p)

/-! ## Every operation -/

theorem Listed.apply (hp : p.Listed) (op : Op) : (p.apply op).Listed := by
  cases op with
  | openMinimum => exact hp.congr (openMinimum_onlyConnections p).line
  | attempt => exact hp.attempt
  | timeOut w => exact hp.timeOut w
  | abandon w => exact hp.abandon w
  | release h => exact hp.release h
  | dispose => exact hp.dispose
  | setDead | shut | returning | cycleBuffers => exact hp

/-- Only a disposal disposes of a pool. -/
theorem eq_dispose_of_apply {op : Op} (hOpen : p.disposed = false)
    (hDisposed : (p.apply op).disposed = true) : op = .dispose := by
  have hKept (hSettings : (p.apply op).settings = p.settings) : op = .dispose := by
    cases hDisposed.symm.trans ((congrArg Prod.snd hSettings).trans hOpen)
  cases op with
  | openMinimum => exact hKept (settings_of_line (openMinimum_onlyConnections p).line)
  | attempt => exact hKept (attempt_settings p)
  | timeOut w => exact hKept (settings_of_stock (timeOut_sameStock p w).stock)
  | abandon w => exact hKept (settings_of_stock (abandon_onlyWaiters p w).stock)
  | release h => exact hKept (release_settings p h)
  | dispose => rfl
  | setDead | shut | returning | cycleBuffers => exact hKept rfl

/-- Every operation keeps the order, the disposal included. -/
theorem Orderly.apply (hp : p.Orderly) (op : Op) : (p.apply op).Orderly := by
  have hQuiet (hAfter : (p.apply op).disposed = true) :
      (p.apply op).queue = [] ∧ (p.apply op).idle = [] := by
    cases hDisposed : p.disposed with
    | true =>
      have hNext := WindsDown.apply hDisposed op
      have hQueue := hNext.queue
      rw [hp.queue hDisposed] at hQueue
      exact ⟨List.suffix_nil.1 hQueue, hNext.idle.trans (hp.idle hDisposed)⟩
    | false =>
      cases eq_dispose_of_apply hDisposed hAfter
      obtain ⟨log, hEq⟩ := dispose_of_open hDisposed
      rw [Pool.apply, hEq]
      exact ⟨rfl, rfl⟩
  exact ⟨hp.listed.apply op, fun hAfter => (hQuiet hAfter).1, fun hAfter => (hQuiet hAfter).2⟩

theorem orderly_fresh (endpoint : Endpoint) (config : PoolConfig) (factory : List FactoryOutcome) :
    (fresh endpoint config factory).Orderly where
  listed := fun _ hw => absurd hw (Nat.not_lt_zero _)
  queue := fun _ => rfl
  idle := fun _ => rfl

/-- An operation queues one more waiter or only takes waiters out at the front. -/
theorem apply_queue (p : Pool) (op : Op) :
    ((p.apply op).queue <:+ p.queue ∧ (p.apply op).waiterCount = p.waiterCount) ∨
      ((p.apply op).queue = p.queue ++ [p.waiterCount] ∧
        (p.apply op).waiterCount = p.waiterCount + 1) := by
  have hKept (hLine : (p.apply op).line = p.line) :
      (p.apply op).queue <:+ p.queue ∧ (p.apply op).waiterCount = p.waiterCount := by
    have hQueue : (p.apply op).queue = p.queue := congrArg Line.queue hLine
    exact ⟨hQueue ▸ List.suffix_refl _, congrArg Line.waiterCount hLine⟩
  cases op with
  | openMinimum => exact Or.inl (hKept (openMinimum_onlyConnections p).line)
  | attempt =>
    rcases attempt_line_or_enqueue p with ⟨q, hLine, hEnd⟩ | hLine
    · have hQueue : q.queue = p.queue := congrArg Line.queue hLine
      have hCount : q.waiterCount = p.waiterCount := congrArg Line.waiterCount hLine
      rw [Pool.apply, hEnd, ← hQueue, ← hCount]
      exact Or.inr ⟨rfl, rfl⟩
    · exact Or.inl (hKept hLine)
  | timeOut w =>
    obtain ⟨hQueue, hCount⟩ := timeOut_queue p w
    exact Or.inl ⟨hQueue ▸ List.suffix_refl _, hCount⟩
  | abandon w =>
    have hWoken := abandon_onlyWaiters p w
    exact Or.inl ⟨hWoken.queue, hWoken.waiterCount⟩
  | release h =>
    obtain ⟨q, hSettled, hEq⟩ := release_cases p h
    have hWoken := wakeNext_onlyWaiters q
    have hQueue : q.queue = p.queue := congrArg Line.queue hSettled.line
    have hCount : q.waiterCount = p.waiterCount := congrArg Line.waiterCount hSettled.line
    rw [Pool.apply, hEq, ← hQueue, ← hCount]
    exact Or.inl ⟨hWoken.queue, hWoken.waiterCount⟩
  | dispose =>
    cases hDisposed : p.disposed with
    | true =>
      rw [Pool.apply, dispose_of_disposed hDisposed]
      exact Or.inl ⟨List.suffix_refl _, rfl⟩
    | false =>
      have hCount := dispose_waiterCount p
      obtain ⟨log, hEq⟩ := dispose_of_open hDisposed
      rw [hEq] at hCount
      rw [Pool.apply, hEq]
      exact Or.inl ⟨List.nil_suffix, hCount⟩
  | setDead | shut | returning | cycleBuffers => exact Or.inl (hKept rfl)

/-- Numbers of waiters are never given out again. -/
theorem waiterCount_le_apply (p : Pool) (op : Op) : p.waiterCount ≤ (p.apply op).waiterCount := by
  rcases apply_queue p op with ⟨-, hCount⟩ | ⟨-, hCount⟩
  · exact hCount.ge
  · exact hCount ▸ Nat.le_succ _

end Pool

namespace Session

open Pool Custody

variable {s : Session} {n : Nat} {st : Step} {ops : List Op} {result : Session × Answer}

/-! ## Pending tasks -/

/-- Each pending task has a waiter that was queued. -/
structure Attended (s : Session) : Prop where
  orderly : s.pool.Orderly
  queued : ∀ t ∈ s.tasks, t.waiter < s.pool.waiterCount

theorem mem_putTask {t u : Task} (ht : t ∈ (s.putTask u).tasks) : t ∈ s.tasks ∨ t = u := by
  unfold putTask at ht
  split at ht
  · obtain ⟨v, hv, rfl⟩ := List.mem_map.1 ht
    split
    · exact Or.inr rfl
    · exact Or.inl hv
  · exact (List.mem_append.1 ht).imp_right List.mem_singleton.1

/-- A task waits with a waiter that the pool has numbered. -/
theorem queued_advanceTask {guarded : Bool} {t : Task}
    (ht : t ∈ (s.advanceTask n guarded).1.tasks) :
    t ∈ s.tasks ∨ t.waiter < (s.advanceTask n guarded).1.pool.waiterCount := by
  rcases advanceTask_cases s n guarded with ⟨r, handles, -, hEq⟩ | ⟨r, w, d, hAttempt, hEq⟩
  · rw [hEq] at ht
    exact Or.inl (List.mem_filter.1 ht).1
  · rw [hEq] at ht ⊢
    obtain ⟨q, -, -, -, -, rfl, rfl⟩ := attempt_queued hAttempt
    rcases mem_putTask ht with ht | rfl
    · exact Or.inl ht
    · rw [putTask_pool]
      exact Or.inr (Nat.lt_succ_self _)

theorem acquire_tasks (s : Session) (guarded : Bool) : (s.acquire guarded).1.tasks = s.tasks := by
  obtain ⟨r, handles, -, hEq⟩ := acquire_cases s guarded
  rw [hEq]

/-- A task that is pending after a step was so before, or was queued in the step. -/
theorem Performs.queued {t : Task} (h : s.Performs st ops result) (ht : t ∈ result.1.tasks) :
    t ∈ s.tasks ∨ t.waiter < result.1.pool.waiterCount := by
  cases h with
  | idle | operation | release | drop | dropGuard => exact Or.inl ht
  | cancel n u => exact Or.inl (List.mem_filter.1 ht).1
  | call guarded before =>
    rw [acquire_tasks] at ht
    exact Or.inl ht
  | start guarded => exact queued_advanceTask (s := { s with started := s.started + 1 }) ht
  | poll n u before => exact queued_advanceTask (s := { s with pool := s.pool.applyAll before }) ht

theorem settle_tasks (s : Session) : s.settle.tasks = s.tasks := by
  unfold settle
  split <;> rfl

theorem settle_slots (s : Session) : s.settle.slots = s.slots := by
  unfold settle
  split <;> rfl

theorem waiterCount_le_applyAll (p : Pool) (ops : List Op) :
    p.waiterCount ≤ (p.applyAll ops).waiterCount :=
  applyAll_induction (P := fun q => p.waiterCount ≤ q.waiterCount)
    (fun q op hq => hq.trans (waiterCount_le_apply q op)) (Nat.le_refl _) ops

/-- Every use keeps the pool orderly, and each pending task queued with a number of the pool. -/
theorem Attended.use (hs : s.Attended) (u : Use) : (s.use u).Attended := by
  have hGrows : s.pool.waiterCount ≤ (s.use u).pool.waiterCount := by
    rw [use_pool]
    exact waiterCount_le_applyAll _ _
  refine ⟨use_induction (fun p op hp => hp.apply op) hs.orderly u, fun t ht => ?_⟩
  cases u with
  | step st =>
    have hSettle :
        (s.perform st).1.pool.waiterCount ≤ (s.perform st).1.settle.pool.waiterCount := by
      unfold settle
      split
      · exact Nat.le_refl _
      · exact waiterCount_le_apply _ .dispose
    have ht' : t ∈ (s.perform st).1.tasks := settle_tasks _ ▸ ht
    rcases (s.performs st).queued ht' with ht' | ht'
    · exact Nat.lt_of_lt_of_le (hs.queued t ht') hGrows
    · exact Nat.lt_of_lt_of_le ht' hSettle
  | giveBack h =>
    have hTasks : (s.use (.giveBack h)).tasks = s.tasks := by
      rw [Session.use]
      split <;> rfl
    exact Nat.lt_of_lt_of_le (hs.queued t (hTasks ▸ ht)) hGrows

theorem Attended.useAll (hs : s.Attended) (uses : List Use) : (s.useAll uses).Attended := by
  induction uses generalizing s with
  | nil => exact hs
  | cons u uses ih => exact ih (hs.use u)

theorem attended_fresh (endpoint : Endpoint) (config : PoolConfig) (factory : List FactoryOutcome) :
    Attended { pool := fresh endpoint config factory } where
  orderly := orderly_fresh endpoint config factory
  queued := fun _ ht => absurd ht List.not_mem_nil

/-! ## Steps after the disposal -/

/-- The end of its last handle changes nothing about a pool that was disposed of before. -/
theorem settle_of_disposed (hDisposed : s.pool.disposed = true) : s.settle = s := by
  unfold settle
  split
  · rfl
  · rw [dispose_of_disposed hDisposed]

theorem step_eq (s : Session) (st : Step) :
    s.step st = ((s.perform st).1.settle, (s.perform st).2) := rfl

theorem step_dispose_disposed (s : Session) : (s.step .dispose).1.pool.disposed = true := by
  have hPerformed : (s.perform .dispose).1.pool.disposed = true := dispose_disposed s.pool
  rw [step_eq, settle_of_disposed hPerformed]
  exact hPerformed

theorem acquire_of_disposed (hDisposed : s.pool.disposed = true) (guarded : Bool) :
    s.acquire guarded = (s, .refused .closed) := by
  rw [acquire, Pool.acquire, acquireWithin_of_disposed hDisposed]
  rfl

/-- A task that goes on after the disposal is refused, and gone. -/
theorem advanceTask_of_disposed (hDisposed : s.pool.disposed = true) (n : Nat) (guarded : Bool) :
    s.advanceTask n guarded = (s.removeTask n, .refused .closed) := by
  rw [advanceTask, acquireStep_of_disposed hDisposed]
  rfl

/-- An operation that is a step leaves the books of a pool that was disposed of as they are. -/
theorem Operates.books_of_disposed {op : Op} {answer : Answer} (h : s.Operates st op answer)
    (hDisposed : s.pool.disposed = true) : (s.pool.apply op).books = s.pool.books := by
  cases h with
  | openMinimum => exact congrArg Pool.books (openMinimum_of_disposed hDisposed)
  | dispose => exact congrArg Pool.books (dispose_of_disposed hDisposed)
  | kill h => exact modify_books s.pool h fun _ => rfl
  | revive h => exact modify_books s.pool h fun _ => rfl
  | shut h => exact modify_books s.pool h fun _ => rfl
  | cycleBuffers => rfl

/-- A step leaves the books of a pool that was disposed of as they are, unless it gives the
connection of a slot back. No slot is filled. -/
theorem Performs.of_disposed (h : s.Performs st ops result) (hDisposed : s.pool.disposed = true) :
    Emptied s.slots result.1.slots ∧
      ((s.givesBack? st = none ∧ result.1.pool.books = s.pool.books) ∨
        ∃ (i : Nat) (slot : Slot) (q : Pool), s.givesBack? st = some i ∧ s.slot? i = some slot ∧
          q.stock = s.pool.stock ∧ result.1.pool.books = (q.release slot.handle).books) := by
  cases h with
  | idle hIdle => exact ⟨Emptied.refl _, Or.inl ⟨hIdle.givesBack?_eq, rfl⟩⟩
  | operation hOperates =>
    exact ⟨Emptied.refl _,
      Or.inl ⟨hOperates.givesBack?_eq, hOperates.books_of_disposed hDisposed⟩⟩
  | release i slot hSlot =>
    exact ⟨Emptied.refl _,
      Or.inr ⟨i, slot, s.pool, congrArg (Option.map _) hSlot, hSlot, rfl, rfl⟩⟩
  | drop i slot hSlot hBare =>
    exact ⟨Emptied.set_none _ i, Or.inl ⟨givesBack?_drop hSlot hBare, rfl⟩⟩
  | dropGuard i slot hSlot hGuarded =>
    exact ⟨Emptied.set_none _ i, Or.inr ⟨i, slot, s.pool.apply (.returning slot.handle),
      givesBack?_dropGuard hSlot hGuarded, hSlot, rfl, rfl⟩⟩
  | cancel n t =>
    exact ⟨Emptied.refl _, Or.inl ⟨rfl, (abandon_onlyWaiters s.pool t.waiter).books⟩⟩
  | call guarded before hCalls =>
    have hStill : (s.pool.applyAll before).disposed = true :=
      (windsDown_applyAll hDisposed before).disposed
    rw [acquire_of_disposed (s := { s with pool := s.pool.applyAll before }) hStill]
    cases hCalls with
    | acquire => exact ⟨Emptied.refl _, Or.inl ⟨rfl, rfl⟩⟩
    | afterDisposal =>
      exact ⟨Emptied.refl _, Or.inl ⟨rfl, congrArg Pool.books (dispose_of_disposed hDisposed)⟩⟩
    | afterRelease i slot hSlot =>
      exact ⟨Emptied.refl _,
        Or.inr ⟨i, slot, s.pool, congrArg (Option.map _) hSlot, hSlot, rfl, rfl⟩⟩
  | start guarded =>
    have hStarted : ({ s with started := s.started + 1 } : Session).pool.disposed = true :=
      hDisposed
    rw [advanceTask_of_disposed hStarted]
    exact ⟨Emptied.refl _, Or.inl ⟨rfl, rfl⟩⟩
  | poll n t before hTask hResumes =>
    have hStill : (s.pool.timeOut t.waiter).disposed = true :=
      (congrArg Stock.disposed (timeOut_sameStock s.pool t.waiter).stock).trans hDisposed
    rw [hResumes.applyAll_eq,
      advanceTask_of_disposed (s := { s with pool := s.pool.timeOut t.waiter }) hStill]
    exact ⟨Emptied.refl _, Or.inl ⟨rfl, (timeOut_sameStock s.pool t.waiter).books⟩⟩

/-- Nothing is handed out after the disposal. -/
theorem use_slots_of_disposed (hDisposed : s.pool.disposed = true) (u : Use) :
    (s.use u).slots.length = s.slots.length := by
  cases u with
  | step st =>
    have hSettled : (s.use (.step st)).slots = (s.perform st).1.slots := settle_slots _
    rw [hSettled]
    exact ((s.performs st).of_disposed hDisposed).1.1
  | giveBack h =>
    rw [use]
    split <;> rfl

theorem windsDown_useAll (hDisposed : s.pool.disposed = true) (uses : List Use) :
    s.pool.WindsDown (s.useAll uses).pool :=
  useAll_induction (P := s.pool.WindsDown)
    (fun _ op hq => hq.trans (WindsDown.apply hq.disposed op)) (WindsDown.refl hDisposed) uses

theorem step_of_disposed (hDisposed : s.pool.disposed = true) (st : Step) :
    (s.step st).1 = (s.perform st).1 ∧ (s.step st).1.pool.disposed = true := by
  have hPerformed : (s.perform st).1.pool.disposed = true := by
    rw [perform_pool]
    exact (windsDown_applyAll hDisposed _).disposed
  rw [step_eq, settle_of_disposed hPerformed]
  exact ⟨rfl, hPerformed⟩

/-- A task is refused when it is polled, whoever completed its waiter. -/
theorem Attended.poll_of_disposed (hs : s.Attended) (hDisposed : s.pool.disposed = true) {t : Task}
    (hTask : s.task? n = some t) : (s.perform (.poll n)).2 = .refused .closed := by
  have hMem : t ∈ s.tasks := List.mem_of_find?_eq_some hTask
  have hDone : s.pool.isCompleted t.waiter = true :=
    hs.orderly.completed hDisposed (hs.queued t hMem)
  rw [perform, hTask]
  dsimp only
  rw [pollTask, if_pos hDone, advanceTask_of_disposed hDisposed]

/-- Whoever calls while a connection is given back is refused after the disposal. -/
theorem handOff_of_disposed (hDisposed : s.pool.disposed = true) {i : Nat} {slot : Slot}
    (hSlot : s.slot? i = some slot) : (s.perform (.handOff (some i))).2 = .refused .closed := by
  have hReleased := (WindsDown.release hDisposed slot.handle).disposed
  rw [perform, hSlot]
  dsimp only
  rw [acquire_of_disposed (s := { s with pool := s.pool.release slot.handle }) hReleased]

/-- Once a pool was disposed of, whatever its callers do: every call for a connection is refused,
those that were pending as well, and no slot is filled. All waiters are completed, the factory is
not called, no connection becomes idle, the count of live ones does not grow, and no connection is
asked to close any more. To dispose of the pool again changes nothing. -/
theorem disposal_is_final (endpoint : Endpoint) (config : PoolConfig)
    (factory : List FactoryOutcome) (before after : List Use) :
    let d := (useAll { pool := fresh endpoint config factory } before).use (.step .dispose)
    let s := d.useAll after
    (∀ guarded, s.step (.acquire guarded) = (s, .refused .closed)) ∧
      (∀ guarded, (s.step (.start guarded)).2 = .started s.started (.refused .closed)) ∧
      (∀ n t, s.task? n = some t → (s.step (.poll n)).2 = .refused .closed) ∧
      (∀ i slot, s.slot? i = some slot → (s.step (.handOff (some i))).2 = .refused .closed) ∧
      (∀ u, (s.use u).slots.length = s.slots.length) ∧
      (∀ w < s.pool.waiterCount, s.pool.isCompleted w = true) ∧
      (∀ t ∈ s.tasks, s.pool.isCompleted t.waiter = true) ∧
      s.pool.factory = d.pool.factory ∧ s.pool.nextId = d.pool.nextId ∧ s.pool.idle = [] ∧
      (∀ u, (s.use u).pool.liveCount ≤ s.pool.liveCount) ∧
      s.pool.connections.map (·.countdowns) = d.pool.connections.map (·.countdowns) ∧
      s.step .dispose = (s, .nothing) := by
  intro d s
  have hBefore : d.Attended := ((attended_fresh endpoint config factory).useAll before).use _
  have hs : s.Attended := hBefore.useAll after
  have hDisposed : d.pool.disposed = true := step_dispose_disposed _
  have hWinds : d.pool.WindsDown s.pool := windsDown_useAll hDisposed after
  have hStill := hWinds.disposed
  refine ⟨fun guarded => ?_, fun guarded => ?_, fun n t hTask => hs.poll_of_disposed hStill hTask,
    fun i slot hSlot => handOff_of_disposed hStill hSlot, fun u => use_slots_of_disposed hStill u,
    fun w hw => hs.orderly.completed hStill hw,
    fun t ht => hs.orderly.completed hStill (hs.queued t ht), hWinds.factory, hWinds.nextId,
    hs.orderly.idle hStill, fun u => (windsDown_useAll hStill [u]).liveCount, hWinds.countdowns, ?_⟩
  · rw [step_eq, perform, acquire_of_disposed hStill]
    exact congrArg (·, _) (settle_of_disposed hStill)
  · have hStarted : ({ s with started := s.started + 1 } : Session).pool.disposed = true := hStill
    rw [step_eq, perform, advanceTask_of_disposed hStarted]
  · rw [step_eq, perform, dispose_of_disposed hStill]
    exact congrArg (·, _) (settle_of_disposed hStill)

end Session

end StoreClient
