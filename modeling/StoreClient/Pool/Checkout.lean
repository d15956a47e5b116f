import StoreClient.Pool.State

/-!
# Handing out connections and taking them back

A caller is given the connection that has been idle longest. Dead connections met on the way are
evicted. If none is idle and there is room, a new connection is made. Otherwise the caller is
queued, or refused if too many waits have ended without a connection. A release wakes the caller
that has been waiting longest, who then tries again; others may have been faster.
-/

namespace StoreClient.Pool

/-! ## Opening and closing connections -/

/-- Takes up a connection that the factory made and counts it as live. -/
def register (p : Pool) (c : Connection) : Pool × Handle :=
  let h := p.connections.length
  let p : Pool :=
    { p with
      connections := p.connections ++ [c]
      registry := (p.registry.filter fun r => r.1 != c.id) ++ [(c.id, h)]
      liveCount := p.liveCount + 1
      metrics := { p.metrics with created := p.metrics.created + 1 } }
  (p.note .info "connection created" [p.idValue h, ("count", toString p.liveCount)], h)

/-- Calls the factory once, with a fresh id. -/
def create (p : Pool) : Pool × Except PoolError Handle :=
  let id : ConnectionId := ⟨p.nextId⟩
  let outcome := p.factory.headD .connection
  let p : Pool := { p with nextId := p.nextId + 1, factory := p.factory.tail }
  match outcome with
  | .failure e => (p.note .warn "failed to create connection" [("error", e.message)], .error e)
  | .connection dead given =>
    let (p, h) := p.register { id := given.getD id, context := p.context id, dead }
    (p, .ok h)

/-- Closes a connection and forgets it, if the pool counts it as live. -/
def destroy (p : Pool) (h : Handle) : Pool :=
  let closed := p.modify h Connection.dispose
  if p.tracks h then
    { closed with
      registry := p.registry.filter fun r => r.1 != p.idOf h
      liveCount := p.liveCount - 1
      metrics := { p.metrics with closed := p.metrics.closed + 1 } }
  else closed

/-- Closes a dead connection, forgets it and reports it. -/
def evict (p : Pool) (h : Handle) : Pool :=
  let gone := p.destroy h
  let counted :=
    if p.tracks h then { gone with metrics := { gone.metrics with dead := gone.metrics.dead + 1 } }
    else gone
  let noted :=
    counted.note .info "connection is dead" [p.idValue h, ("count", toString counted.liveCount)]
  { noted with reports := noted.reports ++ [noted.isDead h] }

/-! ## Opening connections in advance -/

/-- Opens at most `count` idle connections, up to the first failure. -/
def openIdle (p : Pool) : (count : Nat) → Pool
  | 0 => p
  | count + 1 =>
    match p.create with
    | (p, .ok h) => openIdle { p with idle := p.idle ++ [h] } count
    | (p, .error e) =>
      { p.note .info "pool initialization failed" [("error", e.message)] with
        openingFailed := true }

/-- Opens the connections that are missing from the least number of idle ones, as far as there is
room. -/
def openMinimum (p : Pool) : Pool :=
  if p.disposed then p
  else p.openIdle (min (p.config.minSize - p.idle.length) (p.config.maxSize - p.liveCount))

/-! ## Attempts -/

/-- Hands a connection to a caller. -/
def checkOut (p : Pool) (h : Handle) : Pool :=
  { p.modify h (Connection.markUsed true) with
    failures := 0
    metrics := { p.metrics with successful := p.metrics.successful + 1 } }

/-- Hands out the first of the idle connections that is not dead, and evicts those before it. -/
def takeIdle (p : Pool) : (idle : List Handle) → Pool × Option Handle
  | [] => ({ p with idle := [] }, none)
  | h :: rest =>
    if p.isDead h then takeIdle ({ p with idle := rest }.evict h) rest
    else
      ((({ p with idle := rest }).checkOut h).note .debug "acquired idle connection" [p.idValue h],
        some h)

/-- How an attempt to get a connection ends. -/
inductive Attempt where
  /-- With a connection. -/
  | ready (h : Handle)
  /-- In the queue. -/
  | queued (w : WaiterId)
  /-- With an error. -/
  | refused (e : PoolError)
deriving DecidableEq, Repr

/-- Makes a connection for a caller. -/
def grow (p : Pool) : Pool × Attempt :=
  match p.create with
  | (p, .ok h) => (p.checkOut h, .ready h)
  | (p, .error e) =>
    ({ p with
        failures := p.failures + 1
        metrics := { p.metrics with failed := p.metrics.failed + 1 } }, .refused e)

/-- Refuses a caller because of too many waits; the count of failures starts anew. -/
def refuse (p : Pool) : Pool × Attempt :=
  ({ p with
      failures := 0
      metrics := { p.metrics with failed := p.metrics.failed + 1 } }.note
    .warn "no connection available" [("attempts", toString p.failures)],
    .refused (.unavailable p.endpoint p.failures))

/-- Queues a caller. -/
def enqueue (p : Pool) : Pool × Attempt :=
  ({ p with queue := p.queue ++ [p.waiterCount], waiterCount := p.waiterCount + 1 },
    .queued p.waiterCount)

/-- Tries once to get a connection. -/
def attempt (p : Pool) : Pool × Attempt :=
  if p.disposed then (p, .refused .closed)
  else
    match p.takeIdle p.idle with
    | (p, some h) => (p, .ready h)
    | (p, none) =>
      if p.liveCount < p.config.maxSize then p.grow
      else if p.failures < p.config.maxAcquireRetryCount then p.enqueue
      else p.refuse

/-! ## Waiting -/

/-- Completes a waiter. -/
def complete (p : Pool) (w : WaiterId) : Pool :=
  if p.isCompleted w then p else { p with completed := w :: p.completed }

/-- Completes the waiter that has been waiting longest, and drops those before it, whose callers
have stopped waiting. -/
def wakeNext (p : Pool) : Pool :=
  match p.queue.dropWhile p.isCompleted with
  | [] => { p with queue := [] }
  | w :: rest => { p with queue := rest }.complete w

/-- Ends a wait whose time is over. It counts as a failure unless someone completed the waiter. -/
def timeOut (p : Pool) (w : WaiterId) : Pool :=
  if p.isCompleted w then p
  else
    { p.complete w with
      failures := p.failures + 1
      metrics := { p.metrics with timedOut := p.metrics.timedOut + 1 } }.note
    .debug "timed out waiting for a connection" [("failures", toString (p.failures + 1))]

/-- Gives a wait up. If the waiter was completed, its caller was given a wakeup that it will not
use, which then goes to the next one. -/
def abandon (p : Pool) (w : WaiterId) : Pool :=
  if p.isCompleted w then (p.note .debug "abandoned wait was signaled, waking next").wakeNext
  else p.complete w

/-- The outcome of a call for a connection. -/
abbrev Outcome := Except PoolError Handle

/-- Tries to get a connection where every wait ends at once without one, for at most `waits` waits.
As each wait counts as a failure, there are no more of them than the bound leaves. -/
def acquireWithin (p : Pool) : (waits : Nat) → Pool × Outcome
  | 0 =>
    match p.attempt with
    | (p, .ready h) => (p, .ok h)
    | (p, .refused e) => (p, .error e)
    | (p, .queued _) => (p, .error (.unavailable p.endpoint p.failures))
  | waits + 1 =>
    match p.attempt with
    | (p, .ready h) => (p, .ok h)
    | (p, .refused e) => (p, .error e)
    | (p, .queued w) => acquireWithin (p.timeOut w) waits

/-- Gets a connection for a caller that nobody else interferes with: all its waits run to their
end. -/
def acquire (p : Pool) : Pool × Outcome :=
  p.acquireWithin (p.config.maxAcquireRetryCount - p.failures)

/-- How far a call for a connection has come that does not block. -/
inductive Progress where
  /-- It is done. -/
  | done (outcome : Outcome)
  /-- It waits. -/
  | waiting (w : WaiterId)

/-- Tries to get a connection, up to the first wait that takes time. -/
def acquireStep (p : Pool) : Pool × Progress :=
  if p.config.waitTimeout = 0 then
    match p.acquire with
    | (p, outcome) => (p, .done outcome)
  else
    match p.attempt with
    | (p, .ready h) => (p, .done (.ok h))
    | (p, .refused e) => (p, .done (.error e))
    | (p, .queued w) => (p, .waiting w)

/-! ## Release -/

/-- Takes a connection back. A dead one is evicted, any other is idle again or, in a pool that was
disposed of, closed. Then the next caller is woken. -/
def release (p : Pool) (h : Handle) : Pool :=
  let returned := p.modify h (Connection.markUsed false)
  let settled :=
    if returned.isDead h then returned.evict h
    else if returned.disposed then returned.destroy h
    else
      { returned.note .debug "released connection" [p.idValue h] with
        idle := returned.idle ++ [h] }
  settled.wakeNext

/-! ## Disposal -/

/-- Parts with a live connection: one in use is asked to close later, any other is closed. One that
was closed before is left alone. -/
def retire (p : Pool) (h : Handle) : Pool :=
  match p.connection? h with
  | none => p
  | some c =>
    if c.shutdown then p
    else if c.used then
      (p.note .debug "connection in use, closing when idle" [p.idValue h]).modify h
        (Connection.countdownToClose p.config.closeAttemptInterval p.config.maxCloseAttempts)
    else p.destroy h

/-- Disposes of the pool. All who wait are woken; nothing is handed out any more. A second disposal
changes nothing. -/
def dispose (p : Pool) : Pool :=
  if p.disposed then p
  else
    let retired := (p.registry.map (·.2)).foldl retire { p with disposed := true }
    let woken := retired.queue.foldl complete retired
    { woken with idle := [], queue := [] }.note
      .info "connection pool disposed" [("remaining", toString woken.liveCount)]

/-- The text that describes the pool, with a name for its identity. -/
def describe (p : Pool) (identity : String) : String :=
  "ConnectionPool \x7b endpoint: " ++ p.endpoint.text ++ ", pool_id: " ++ identity ++ ", count: "
    ++ toString p.liveCount ++ ", disposed: " ++ toString p.disposed ++ " \x7d"

end StoreClient.Pool
