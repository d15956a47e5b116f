import StoreClient.Pool.Checkout
import Mathlib.Logic.Relation

/-!
# What the operations of a pool do

The state of a pool has two parts that are kept apart by its operations: the connections and where
they are (`Pool.stock`), and the callers that wait (`Pool.line`). Whatever opens, closes or hands
out connections leaves the line as it is; whatever queues or wakes callers leaves the stock as it
is. The configuration and whether the pool was disposed of belong to both parts, as only a disposal
changes them.

An attempt to get a connection first evicts the dead connections at the head of the idle ones. What
it does then depends on whether an idle connection is left, on the room and on the count of failures
(`attempt_cases`).
-/

namespace StoreClient.Pool

open Relation

/-- The connections of a pool and where they are. -/
structure Stock where
  config : PoolConfig
  disposed : Bool
  factory : List FactoryOutcome
  nextId : Nat
  connections : List Connection
  idle : List Handle
  registry : List (ConnectionId × Handle)
  liveCount : Nat

/-- The callers that wait for a connection. -/
structure Line where
  config : PoolConfig
  disposed : Bool
  queue : List WaiterId
  waiterCount : Nat
  completed : List WaiterId

/-- The stock of a pool. -/
def stock (p : Pool) : Stock where
  config := p.config
  disposed := p.disposed
  factory := p.factory
  nextId := p.nextId
  connections := p.connections
  idle := p.idle
  registry := p.registry
  liveCount := p.liveCount

/-- The line of a pool. -/
def line (p : Pool) : Line where
  config := p.config
  disposed := p.disposed
  queue := p.queue
  waiterCount := p.waiterCount
  completed := p.completed

/-! ## What an operation leaves as it is -/

/-- From one pool to another nobody was given a connection or refused one, and no wait ended without
a connection. -/
structure SameTally (p q : Pool) : Prop where
  endpoint : q.endpoint = p.endpoint
  config : q.config = p.config
  failures : q.failures = p.failures
  successful : q.metrics.successful = p.metrics.successful
  failed : q.metrics.failed = p.metrics.failed
  timedOut : q.metrics.timedOut = p.metrics.timedOut

/-- From one pool to another no connection was opened, closed, moved or found dead. -/
structure SameStock (p q : Pool) : Prop where
  stock : q.stock = p.stock
  created : q.metrics.created = p.metrics.created
  closed : q.metrics.closed = p.metrics.closed
  dead : q.metrics.dead = p.metrics.dead
  reports : q.reports = p.reports

/-- From one pool to another nothing happened but to connections. -/
structure OnlyConnections (p q : Pool) : Prop extends SameTally p q where
  line : q.line = p.line

/-- From one pool to another nothing happened but that waiters were completed or left the queue. -/
structure OnlyWaiters (p q : Pool) : Prop extends SameTally p q, SameStock p q where
  waiterCount : q.waiterCount = p.waiterCount
  queue : q.queue <:+ p.queue

section Frame

variable {p q r : Pool}

theorem SameTally.refl (p : Pool) : SameTally p p := ⟨rfl, rfl, rfl, rfl, rfl, rfl⟩

theorem SameTally.trans (hFirst : SameTally p q) (hLast : SameTally q r) : SameTally p r where
  endpoint := hLast.endpoint.trans hFirst.endpoint
  config := hLast.config.trans hFirst.config
  failures := hLast.failures.trans hFirst.failures
  successful := hLast.successful.trans hFirst.successful
  failed := hLast.failed.trans hFirst.failed
  timedOut := hLast.timedOut.trans hFirst.timedOut

theorem SameStock.refl (p : Pool) : SameStock p p := ⟨rfl, rfl, rfl, rfl, rfl⟩

theorem SameStock.trans (hFirst : SameStock p q) (hLast : SameStock q r) : SameStock p r where
  stock := hLast.stock.trans hFirst.stock
  created := hLast.created.trans hFirst.created
  closed := hLast.closed.trans hFirst.closed
  dead := hLast.dead.trans hFirst.dead
  reports := hLast.reports.trans hFirst.reports

theorem OnlyConnections.refl (p : Pool) : OnlyConnections p p := ⟨.refl p, rfl⟩

theorem OnlyConnections.trans (hFirst : OnlyConnections p q) (hLast : OnlyConnections q r) :
    OnlyConnections p r :=
  ⟨hFirst.toSameTally.trans hLast.toSameTally, hLast.line.trans hFirst.line⟩

theorem OnlyWaiters.refl (p : Pool) : OnlyWaiters p p :=
  ⟨.refl p, .refl p, rfl, List.suffix_refl _⟩

theorem OnlyWaiters.trans (hFirst : OnlyWaiters p q) (hLast : OnlyWaiters q r) :
    OnlyWaiters p r :=
  ⟨hFirst.toSameTally.trans hLast.toSameTally, hFirst.toSameStock.trans hLast.toSameStock,
    hLast.waiterCount.trans hFirst.waiterCount, hLast.queue.trans hFirst.queue⟩

/-- What relates each pool to itself and to the next one, step after step, relates the first pool to
the last one. -/
theorem foldl_related {α : Type} {R : Pool → Pool → Prop} {step : Pool → α → Pool}
    (hRefl : ∀ p, R p p) (hTrans : ∀ p q r, R p q → R q r → R p r)
    (hStep : ∀ p a, R p (step p a)) (p : Pool) (steps : List α) : R p (steps.foldl step p) := by
  induction steps generalizing p with
  | nil => exact hRefl p
  | cons a rest ih => exact hTrans _ _ _ (hStep p a) (ih _)

/-- What one step leaves as it is, all steps leave as it is. -/
theorem foldl_unchanged {α β : Type} {step : Pool → α → Pool} {k : Pool → β}
    (hStep : ∀ p a, k (step p a) = k p) (p : Pool) (steps : List α) :
    k (steps.foldl step p) = k p :=
  foldl_related (R := fun p q => k q = k p) (fun _ => rfl) (fun _ _ _ hFirst hLast =>
    hLast.trans hFirst) hStep p steps

end Frame

/-! ## Queueing and waking leave the connections alone -/

theorem enqueue_sameStock (p : Pool) : SameStock p p.enqueue.1 := ⟨rfl, rfl, rfl, rfl, rfl⟩

theorem refuse_sameStock (p : Pool) : SameStock p p.refuse.1 := ⟨rfl, rfl, rfl, rfl, rfl⟩

/-- The queue may be cut at the front. -/
theorem withQueue_onlyWaiters {p : Pool} {queue : List WaiterId} (hQueue : queue <:+ p.queue) :
    OnlyWaiters p { p with queue } :=
  ⟨⟨rfl, rfl, rfl, rfl, rfl, rfl⟩, ⟨rfl, rfl, rfl, rfl, rfl⟩, rfl, hQueue⟩

/-- To complete a waiter changes nothing but which waiters are completed. -/
theorem complete_onlyWaiters (p : Pool) (w : WaiterId) : OnlyWaiters p (p.complete w) := by
  unfold complete
  split
  · exact .refl p
  · exact ⟨⟨rfl, rfl, rfl, rfl, rfl, rfl⟩, ⟨rfl, rfl, rfl, rfl, rfl⟩, rfl, List.suffix_refl _⟩

theorem foldl_complete_onlyWaiters (p : Pool) (waiters : List WaiterId) :
    OnlyWaiters p (waiters.foldl complete p) :=
  foldl_related .refl (fun _ _ _ => .trans) complete_onlyWaiters p waiters

/-- A wakeup changes nothing but who is in the queue and who was completed. -/
theorem wakeNext_onlyWaiters (p : Pool) : OnlyWaiters p p.wakeNext := by
  have hDrop : p.queue.dropWhile p.isCompleted <:+ p.queue := List.dropWhile_suffix _
  unfold wakeNext
  split
  · exact withQueue_onlyWaiters List.nil_suffix
  · rename_i w rest hLeft
    rw [hLeft] at hDrop
    exact (withQueue_onlyWaiters ((List.suffix_cons w rest).trans hDrop)).trans
      (complete_onlyWaiters _ w)

/-- A wait that is given up is not counted. -/
theorem abandon_onlyWaiters (p : Pool) (w : WaiterId) : OnlyWaiters p (p.abandon w) := by
  have hNoted : OnlyWaiters p (p.note .debug "abandoned wait was signaled, waking next") :=
    ⟨⟨rfl, rfl, rfl, rfl, rfl, rfl⟩, ⟨rfl, rfl, rfl, rfl, rfl⟩, rfl, List.suffix_refl _⟩
  unfold abandon
  split
  · exact hNoted.trans (wakeNext_onlyWaiters _)
  · exact complete_onlyWaiters p w

/-- A wait that is over is counted, but nothing happens to the connections. -/
theorem timeOut_sameStock (p : Pool) (w : WaiterId) : SameStock p (p.timeOut w) := by
  unfold timeOut
  split
  · exact .refl p
  · have hCompleted := complete_onlyWaiters p w
    exact ⟨hCompleted.stock, rfl, rfl, rfl, hCompleted.reports⟩

/-! ## Opening and closing one connection -/

/-- A call of the factory fails, or gives a connection that goes by the next id unless the factory
chose another one. -/
theorem create_cases (p : Pool) :
    (∃ e log, p.factory.head? = some (.failure e) ∧
      p.create = ({ p with nextId := p.nextId + 1, factory := p.factory.tail, log }, .error e)) ∨
    ∃ c metrics log, c.used = false ∧
      (c.id = ⟨p.nextId⟩ ∨ ∃ dead, p.factory.head? = some (.connection dead (some c.id))) ∧
      p.create =
        ({ p with
            nextId := p.nextId + 1
            factory := p.factory.tail
            connections := p.connections ++ [c]
            registry := (p.registry.filter fun r => r.1 != c.id) ++ [(c.id, p.connections.length)]
            liveCount := p.liveCount + 1
            metrics
            log }, .ok p.connections.length) := by
  unfold create
  cases hFactory : p.factory with
  | nil => exact Or.inr ⟨_, _, _, rfl, Or.inl rfl, rfl⟩
  | cons o rest =>
    cases o with
    | failure e => exact Or.inl ⟨e, _, rfl, rfl⟩
    | connection dead given =>
      cases given with
      | none => exact Or.inr ⟨_, _, _, rfl, Or.inl rfl, rfl⟩
      | some id => exact Or.inr ⟨_, _, _, rfl, Or.inr ⟨dead, rfl⟩, rfl⟩

/-- A new connection changes nothing about waiters. -/
theorem create_onlyConnections {p q : Pool} {o : Except PoolError Handle}
    (hCreate : p.create = (q, o)) : OnlyConnections p q := by
  unfold create at hCreate
  dsimp only at hCreate
  cases hOutcome : p.factory.headD .connection <;> rw [hOutcome] at hCreate <;> cases hCreate <;>
    exact ⟨⟨rfl, rfl, rfl, rfl, rfl, rfl⟩, rfl⟩

theorem modify_onlyConnections (p : Pool) (h : Handle) (f : Connection → Connection) :
    OnlyConnections p (p.modify h f) :=
  ⟨⟨rfl, rfl, rfl, rfl, rfl, rfl⟩, rfl⟩

theorem withIdle_onlyConnections (p : Pool) (idle : List Handle) :
    OnlyConnections p { p with idle } :=
  ⟨⟨rfl, rfl, rfl, rfl, rfl, rfl⟩, rfl⟩

/-- A connection that is destroyed is closed; its entry goes if there is one. -/
theorem destroy_eq (p : Pool) (h : Handle) :
    ∃ metrics, p.destroy h =
      { p with
        connections := p.connections.modify h Connection.dispose
        registry := p.registry.filter fun r => r.1 != p.idOf h
        liveCount := p.liveCount - if p.tracks h then 1 else 0
        metrics } := by
  unfold destroy
  by_cases hTracks : p.tracks h = true
  · rw [if_pos hTracks, if_pos hTracks]
    exact ⟨_, rfl⟩
  · have hFilter : (p.registry.filter fun r => r.1 != p.idOf h) = p.registry := by
      refine List.filter_eq_self.2 fun r hr => ?_
      have hNone : ¬ ∃ r ∈ p.registry, (r.1 == p.idOf h) = true := by
        simpa [tracks] using hTracks
      rw [bne, Bool.not_eq_true']
      exact Bool.eq_false_iff.2 fun hEq => hNone ⟨r, hr, hEq⟩
    rw [if_neg hTracks, if_neg hTracks, hFilter]
    exact ⟨p.metrics, rfl⟩

/-- A connection is disposed of also if the registry does not have it. -/
theorem destroy_connections (p : Pool) (h : Handle) :
    (p.destroy h).connections = p.connections.modify h Connection.dispose := by
  obtain ⟨metrics, hEq⟩ := destroy_eq p h
  rw [hEq]

theorem destroy_registry (p : Pool) (h : Handle) :
    (p.destroy h).registry = p.registry.filter fun r => r.1 != p.idOf h := by
  obtain ⟨metrics, hEq⟩ := destroy_eq p h
  rw [hEq]

theorem destroy_idle (p : Pool) (h : Handle) : (p.destroy h).idle = p.idle := by
  obtain ⟨metrics, hEq⟩ := destroy_eq p h
  rw [hEq]

/-- To destroy a connection changes nothing about waiters. -/
theorem destroy_onlyConnections (p : Pool) (h : Handle) : OnlyConnections p (p.destroy h) := by
  unfold destroy
  dsimp only
  split <;> exact ⟨⟨rfl, rfl, rfl, rfl, rfl, rfl⟩, rfl⟩

/-- An eviction destroys the connection; besides, it counts, logs and reports. -/
theorem evict_eq (p : Pool) (h : Handle) :
    ∃ metrics log reports, p.evict h = { p.destroy h with metrics, log, reports } := by
  unfold evict
  by_cases hTracks : p.tracks h = true
  · simp only [if_pos hTracks]
    exact ⟨_, _, _, rfl⟩
  · simp only [if_neg hTracks]
    exact ⟨_, _, _, rfl⟩

theorem evict_stock (p : Pool) (h : Handle) : (p.evict h).stock = (p.destroy h).stock := by
  obtain ⟨metrics, log, reports, hEq⟩ := evict_eq p h
  rw [hEq]
  rfl

theorem evict_onlyConnections (p : Pool) (h : Handle) : OnlyConnections p (p.evict h) := by
  refine (destroy_onlyConnections p h).trans ?_
  unfold evict
  dsimp only
  split <;> exact ⟨⟨rfl, rfl, rfl, rfl, rfl, rfl⟩, rfl⟩

/-! ## Attempts -/

/-- The first idle connection is dead and is evicted. -/
def EvictsFirst (p q : Pool) : Prop :=
  ∃ h rest, p.idle = h :: rest ∧ p.isDead h = true ∧ q = evict { p with idle := rest } h

/-- The pool in which the first idle connection was handed out. -/
def handOut (p : Pool) (h : Handle) (rest : List Handle) : Pool :=
  (checkOut { p with idle := rest } h).note .debug "acquired idle connection" [p.idValue h]

theorem EvictsFirst.onlyConnections {p q : Pool} (h : EvictsFirst p q) : OnlyConnections p q := by
  obtain ⟨h, rest, -, -, rfl⟩ := h
  exact (withIdle_onlyConnections p rest).trans (evict_onlyConnections _ h)

/-- Evictions do not touch the line or what is counted about callers. -/
theorem onlyConnections_of_evictsFirst {p q : Pool} (h : ReflTransGen EvictsFirst p q) :
    OnlyConnections p q := by
  induction h with
  | refl => exact .refl p
  | tail _ hLast ih => exact ih.trans hLast.onlyConnections

/-- Who looks for an idle connection evicts the dead ones in front of the first one that is not
dead, and takes that one. -/
theorem takeIdle_cases (p : Pool) :
    ∃ q, ReflTransGen EvictsFirst p q ∧
      ((q.idle = [] ∧ p.takeIdle p.idle = (q, none)) ∨
        ∃ h rest, q.idle = h :: rest ∧ q.isDead h = false ∧
          p.takeIdle p.idle = (q.handOut h rest, some h)) := by
  generalize hIdle : p.idle = idle
  induction idle generalizing p with
  | nil =>
    refine ⟨p, .refl, Or.inl ⟨hIdle, ?_⟩⟩
    rw [takeIdle, ← hIdle]
  | cons h rest ih =>
    by_cases hDead : p.isDead h = true
    · have hRest : (evict { p with idle := rest } h).idle = rest := by
        obtain ⟨metrics, log, reports, hEq⟩ := evict_eq { p with idle := rest } h
        obtain ⟨metrics', hEq'⟩ := destroy_eq { p with idle := rest } h
        rw [hEq, hEq']
      obtain ⟨q, hEvicts, hEnd⟩ := ih _ hRest
      refine ⟨q, .head ⟨h, rest, hIdle, hDead, rfl⟩ hEvicts, ?_⟩
      rw [takeIdle, if_pos hDead]
      exact hEnd
    · refine ⟨p, .refl, Or.inr ⟨h, rest, hIdle, Bool.eq_false_iff.2 hDead, ?_⟩⟩
      rw [takeIdle, if_neg hDead]
      rfl

/-- What an attempt does in a pool that was not disposed of, once the dead connections at the head
of the idle ones are gone. -/
theorem attempt_cases {p : Pool} (hOpen : p.disposed = false) :
    ∃ q, ReflTransGen EvictsFirst p q ∧
      ((∃ h rest, q.idle = h :: rest ∧ q.isDead h = false ∧
          p.attempt = (q.handOut h rest, .ready h)) ∨
        (q.idle = [] ∧ q.liveCount < q.config.maxSize ∧ p.attempt = q.grow) ∨
        (q.idle = [] ∧ q.config.maxSize ≤ q.liveCount ∧
          q.failures < q.config.maxAcquireRetryCount ∧ p.attempt = q.enqueue) ∨
        (q.idle = [] ∧ q.config.maxSize ≤ q.liveCount ∧
          q.config.maxAcquireRetryCount ≤ q.failures ∧ p.attempt = q.refuse)) := by
  have hNot : ¬ p.disposed = true := by
    rw [hOpen]
    exact Bool.false_ne_true
  obtain ⟨q, hEvicts, ⟨hIdle, hTake⟩ | ⟨h, rest, hIdle, hAlive, hTake⟩⟩ := takeIdle_cases p
  · refine ⟨q, hEvicts, Or.inr ?_⟩
    unfold attempt
    rw [if_neg hNot, hTake]
    simp only
    by_cases hRoom : q.liveCount < q.config.maxSize
    · exact Or.inl ⟨hIdle, hRoom, if_pos hRoom⟩
    · rw [if_neg hRoom]
      by_cases hFailures : q.failures < q.config.maxAcquireRetryCount
      · exact Or.inr (Or.inl ⟨hIdle, Nat.le_of_not_lt hRoom, hFailures, if_pos hFailures⟩)
      · exact Or.inr (Or.inr ⟨hIdle, Nat.le_of_not_lt hRoom, Nat.le_of_not_lt hFailures,
          if_neg hFailures⟩)
  · refine ⟨q, hEvicts, Or.inl ⟨h, rest, hIdle, hAlive, ?_⟩⟩
    unfold attempt
    rw [if_neg hNot, hTake]

/-- A new connection is marked as used for its caller, and a failure of the factory is counted. -/
theorem grow_cases (p : Pool) :
    (∃ q e, p.create = (q, .error e) ∧
      p.grow = ({ q with
        failures := q.failures + 1
        metrics := { q.metrics with failed := q.metrics.failed + 1 } }, .refused e)) ∨
    ∃ q h, p.create = (q, .ok h) ∧ p.grow = (q.checkOut h, .ready h) := by
  unfold grow
  rcases hCreate : p.create with ⟨q, e | h⟩
  · exact Or.inl ⟨q, e, rfl, rfl⟩
  · exact Or.inr ⟨q, h, rfl, rfl⟩

theorem grow_line (p : Pool) : p.grow.1.line = p.line := by
  rcases grow_cases p with ⟨q, e, hCreate, hGrow⟩ | ⟨q, h, hCreate, hGrow⟩ <;>
    rw [hGrow, ← (create_onlyConnections hCreate).line] <;> rfl

theorem attempt_of_disposed {p : Pool} (h : p.disposed = true) :
    p.attempt = (p, .refused .closed) := by
  unfold attempt
  rw [if_pos h]

/-! ## Opening connections in advance -/

/-- There is room, the factory gives a connection, and this one is idle from now on. -/
def OpensOne (p q : Pool) : Prop :=
  p.liveCount < p.config.maxSize ∧
    ∃ r h, p.create = (r, .ok h) ∧ q = { r with idle := r.idle ++ [h] }

theorem OpensOne.onlyConnections {p q : Pool} (h : OpensOne p q) : OnlyConnections p q := by
  obtain ⟨-, r, h, hCreate, rfl⟩ := h
  exact (create_onlyConnections hCreate).trans (withIdle_onlyConnections r _)

/-- A connection that is opened takes the room of one. -/
theorem OpensOne.room {p q : Pool} (h : OpensOne p q) :
    q.config.maxSize - q.liveCount = p.config.maxSize - p.liveCount - 1 := by
  obtain ⟨-, r, h, hCreate, rfl⟩ := h
  rcases create_cases p with ⟨e, log, -, hError⟩ | ⟨c, metrics, log, -, -, hOk⟩
  · cases hError.symm.trans hCreate
  · cases hOk.symm.trans hCreate
    exact Nat.sub_add_eq _ _ 1

/-- Connections are opened one after the other until all are or the factory fails. -/
theorem openIdle_cases {p : Pool} {count : Nat} (hRoom : count ≤ p.config.maxSize - p.liveCount) :
    ∃ q, ReflTransGen OpensOne p q ∧
      (p.openIdle count = q ∨ ∃ r e, q.create = (r, .error e) ∧
        p.openIdle count =
          { r.note .info "pool initialization failed" [("error", e.message)] with
            openingFailed := true }) := by
  induction count generalizing p with
  | zero => exact ⟨p, .refl, Or.inl rfl⟩
  | succ count ih =>
    unfold openIdle
    rcases hCreate : p.create with ⟨r, e | h⟩
    · exact ⟨p, .refl, Or.inr ⟨r, e, hCreate, rfl⟩⟩
    · have hOpens : OpensOne p { r with idle := r.idle ++ [h] } :=
        ⟨by omega, r, h, hCreate, rfl⟩
      have hLeft := hOpens.room
      obtain ⟨q, hOpensAll, hEnd⟩ := ih (p := { r with idle := r.idle ++ [h] }) (by omega)
      exact ⟨q, .head hOpens hOpensAll, hEnd⟩

/-- As many connections are opened as are missing and as there is room for, up to the first failure.
-/
theorem openMinimum_cases (p : Pool) :
    ∃ q, ReflTransGen OpensOne p q ∧
      (p.openMinimum = q ∨ ∃ r e, q.create = (r, .error e) ∧
        p.openMinimum =
          { r.note .info "pool initialization failed" [("error", e.message)] with
            openingFailed := true }) := by
  unfold openMinimum
  split
  · exact ⟨p, .refl, Or.inl rfl⟩
  · exact openIdle_cases (Nat.min_le_right _ _)

/-- What each connection opened in advance keeps, and the failure that may come last, is kept by
all of it. -/
theorem openMinimum_induction {P : Pool → Prop} {p : Pool} (hStart : P p)
    (hOpens : ∀ q r, P q → OpensOne q r → P r)
    (hFails : ∀ q r e, P q → q.create = (r, .error e) →
      P { r.note .info "pool initialization failed" [("error", e.message)] with
        openingFailed := true }) : P p.openMinimum := by
  obtain ⟨q, hAll, hEnd⟩ := openMinimum_cases p
  have hq : P q := by
    clear hEnd
    induction hAll with
    | refl => exact hStart
    | tail _ hLast ih => exact hOpens _ _ ih hLast
  rcases hEnd with hEnd | ⟨r, e, hCreate, hEnd⟩
  · rw [hEnd]
    exact hq
  · rw [hEnd]
    exact hFails q r e hq hCreate

/-- Opening connections in advance concerns no caller. -/
theorem openMinimum_onlyConnections (p : Pool) : OnlyConnections p p.openMinimum := by
  refine openMinimum_induction (P := OnlyConnections p) (.refl p)
    (fun q r hq hOpens => hq.trans hOpens.onlyConnections) fun q r e hq hCreate => ?_
  exact (hq.trans (create_onlyConnections hCreate)).trans
    ⟨⟨rfl, rfl, rfl, rfl, rfl, rfl⟩, rfl⟩

/-! ## Release and disposal -/

/-- A connection that is given back is closed or idle again before the next caller is woken. -/
theorem release_cases (p : Pool) (h : Handle) :
    ∃ q : Pool, OnlyConnections p q ∧ p.release h = q.wakeNext := by
  have hReturned := modify_onlyConnections p h (Connection.markUsed false)
  unfold release
  dsimp only
  refine ⟨_, ?_, rfl⟩
  split
  · exact hReturned.trans (evict_onlyConnections _ h)
  · split
    · exact hReturned.trans (destroy_onlyConnections _ h)
    · exact ⟨⟨rfl, rfl, rfl, rfl, rfl, rfl⟩, rfl⟩

/-- A connection that is given back dead, or to a pool that was disposed of, is closed. Any other is
the last of the idle ones from then on. -/
theorem release_stock (p : Pool) (h : Handle) :
    (p.release h).stock =
      if (p.modify h (Connection.markUsed false)).isDead h || p.disposed then
        ((p.modify h (Connection.markUsed false)).destroy h).stock
      else
        { (p.modify h (Connection.markUsed false)).stock with idle := p.idle ++ [h] } := by
  have hDisposed : (p.modify h (Connection.markUsed false)).disposed = p.disposed := rfl
  unfold release
  dsimp only
  rw [(wakeNext_onlyWaiters _).stock, hDisposed]
  cases (p.modify h (Connection.markUsed false)).isDead h with
  | true => exact evict_stock _ h
  | false => cases p.disposed <;> rfl

theorem release_sameTally (p : Pool) (h : Handle) : SameTally p (p.release h) := by
  obtain ⟨q, hSettled, hEq⟩ := release_cases p h
  rw [hEq]
  exact hSettled.toSameTally.trans (wakeNext_onlyWaiters q).toSameTally

/-- At the disposal a connection is closed without any change to waiters. -/
theorem retire_onlyConnections (p : Pool) (h : Handle) : OnlyConnections p (p.retire h) := by
  unfold retire
  split
  · exact .refl p
  · split
    · exact .refl p
    · split
      · exact ⟨⟨rfl, rfl, rfl, rfl, rfl, rfl⟩, rfl⟩
      · exact destroy_onlyConnections p h

theorem foldl_retire_onlyConnections (p : Pool) (handles : List Handle) :
    OnlyConnections p (handles.foldl retire p) :=
  foldl_related .refl (fun _ _ _ => .trans) retire_onlyConnections p handles

theorem dispose_disposed (p : Pool) : p.dispose.disposed = true := by
  unfold dispose
  by_cases hDisposed : p.disposed = true
  · rw [if_pos hDisposed]
    exact hDisposed
  · rw [if_neg hDisposed]
    exact (congrArg Stock.disposed (foldl_complete_onlyWaiters _ _).stock).trans
      (congrArg Line.disposed (foldl_retire_onlyConnections _ _).line)

end StoreClient.Pool
