import StoreClient.Pool.Checkout

/-!
# Callers of a pool

A session is a pool together with its callers and a clock. A caller holds connections in numbered
slots, either as they are or under a guard that gives the connection back when it is dropped. Calls
that do not block are tasks, which make progress only when they are polled. The handle of the pool,
each task and each guard keep the pool alive; when the last of them is gone, the pool is disposed
of. Only what callers do moves a session, one step at a time.
-/

namespace StoreClient

/-- A connection that a caller holds. -/
structure Slot where
  /-- The connection. -/
  handle : Handle
  /-- Whether it is under a guard. -/
  guarded : Bool
deriving DecidableEq, Repr

/-- A call for a connection that waits. -/
structure Task where
  /-- The number of the call. -/
  number : Nat
  /-- The waiter with which the caller is queued. -/
  waiter : WaiterId
  /-- When the wait is over. -/
  deadline : Nat
  /-- Whether the connection will be under a guard. -/
  guarded : Bool
deriving DecidableEq, Repr

/-- A pool and its callers. -/
structure Session where
  /-- The pool. -/
  pool : Pool
  /-- The time in milliseconds. -/
  now : Nat := 0
  /-- The slots in the order in which they were filled; none is a slot that was emptied. -/
  slots : List (Option Slot) := []
  /-- The pending tasks in the order of their numbers. -/
  tasks : List Task := []
  /-- How many tasks were started. -/
  started : Nat := 0
  /-- Whether the handle of the pool is still held. -/
  owned : Bool := true
deriving DecidableEq, Repr

namespace Session

/-- What callers, and the connections themselves, can do. -/
inductive Step where
  /-- Opens connections in advance. -/
  | openMinimum
  /-- Disposes of the pool. -/
  | dispose
  /-- Calls for a connection and waits for it. -/
  | acquire (guarded : Bool)
  /-- Starts a task that calls for a connection. -/
  | start (guarded : Bool)
  /-- Polls a task. -/
  | poll (task : Nat)
  /-- Gives a task up. -/
  | cancel (task : Nat)
  /-- Lets time pass. -/
  | advance (millis : Nat)
  /-- Gives the connection of a slot back; the slot stays filled. -/
  | release (slot : Nat)
  /-- Empties a slot. -/
  | drop (slot : Nat)
  /-- Gives the connection of a slot back, or disposes of the pool, while another caller calls for a
  connection. -/
  | handOff (slot : Option Nat)
  /-- Drops the handle of the pool. -/
  | dropPool
  /-- A connection dies. -/
  | kill (handle : Handle)
  /-- A connection comes back to life. -/
  | revive (handle : Handle)
  /-- A connection closes by itself. -/
  | shut (handle : Handle)
  /-- Takes buffers from the allocator and gives them back. -/
  | cycleBuffers (count : Nat)
deriving DecidableEq, Repr

/-- What a step answers. -/
inductive Answer where
  /-- Nothing. -/
  | nothing
  /-- A connection in a new slot. -/
  | checkedOut (id : ConnectionId) (slot : Nat)
  /-- An error. -/
  | refused (error : PoolError)
  /-- The task waits. -/
  | pending
  /-- A task was started, and has come so far. -/
  | started (task : Nat) (answer : Answer)
  /-- There is no pending task of this number. -/
  | noSuchTask
  /-- The slot is not filled. -/
  | noSuchSlot
  /-- Whether there was something to give up. -/
  | existed (value : Bool)
  /-- A guard was dropped: its connection, and whether it was in use until then. -/
  | guardDropped (id : ConnectionId) (inUse : Bool)
  /-- How many buffers are free. -/
  | available (count : Nat)
deriving Repr

/-! ## Slots and tasks -/

/-- The connection in a slot. -/
def slot? (s : Session) (i : Nat) : Option Slot := (s.slots[i]?).join

/-- The pending task of a number. -/
def task? (s : Session) (n : Nat) : Option Task := s.tasks.find? (·.number == n)

/-- The session without the pending task of a number. -/
def removeTask (s : Session) (n : Nat) : Session :=
  { s with tasks := s.tasks.filter (·.number != n) }

/-- The session in which a task waits: in its old place if it was pending before, otherwise in the
last place. -/
def putTask (s : Session) (t : Task) : Session :=
  if s.tasks.any (·.number == t.number) then
    { s with tasks := s.tasks.map fun u => if u.number == t.number then t else u }
  else { s with tasks := s.tasks ++ [t] }

/-- Hands the outcome of a call to its caller. -/
def deliver (s : Session) (guarded : Bool) : Pool.Outcome → Session × Answer
  | .ok h =>
    ({ s with slots := s.slots ++ [some { handle := h, guarded }] },
      .checkedOut (s.pool.idOf h) s.slots.length)
  | .error e => (s, .refused e)

/-- Lets a task try to get a connection. -/
def advanceTask (s : Session) (n : Nat) (guarded : Bool) : Session × Answer :=
  match s.pool.acquireStep with
  | (pool, .done outcome) => ({ s with pool }.removeTask n).deliver guarded outcome
  | (pool, .waiting w) =>
    ({ s with pool }.putTask
        { number := n, waiter := w, deadline := s.now + pool.config.waitTimeout, guarded },
      .pending)

/-- Polls a pending task: it goes on if its waiter was completed or its time is over. -/
def pollTask (s : Session) (t : Task) : Session × Answer :=
  if s.pool.isCompleted t.waiter then s.advanceTask t.number t.guarded
  else if t.deadline ≤ s.now then
    { s with pool := s.pool.timeOut t.waiter }.advanceTask t.number t.guarded
  else (s, .pending)

/-- Calls for a connection and waits for it. -/
def acquire (s : Session) (guarded : Bool) : Session × Answer :=
  match s.pool.acquire with
  | (pool, outcome) => { s with pool }.deliver guarded outcome

/-- Empties a slot. A guard gives its connection back. -/
def dropSlot (s : Session) (i : Nat) (slot : Slot) : Session × Answer :=
  let s := { s with slots := s.slots.set i none }
  if slot.guarded then
    let inUse := (s.pool.connection? slot.handle).any (·.used)
    let noted :=
      s.pool.note .trace "returning connection to pool" [s.pool.idValue slot.handle]
    ({ s with pool := noted.release slot.handle },
      .guardDropped (s.pool.idOf slot.handle) inUse)
  else (s, .nothing)

/-! ## Steps -/

/-- Whether anything keeps the pool alive. -/
def isHeld (s : Session) : Bool :=
  s.owned || !s.tasks.isEmpty || s.slots.any fun slot => slot.any (·.guarded)

/-- Disposes of a pool that nothing keeps alive. -/
def settle (s : Session) : Session :=
  if s.isHeld then s else { s with pool := s.pool.dispose }

/-- Does what a step says, as long as something keeps the pool alive. -/
def perform (s : Session) : Step → Session × Answer
  | .openMinimum => ({ s with pool := s.pool.openMinimum }, .nothing)
  | .dispose => ({ s with pool := s.pool.dispose }, .nothing)
  | .acquire guarded => s.acquire guarded
  | .start guarded =>
    let n := s.started
    match { s with started := n + 1 }.advanceTask n guarded with
    | (s, answer) => (s, .started n answer)
  | .poll n =>
    match s.task? n with
    | none => (s, .noSuchTask)
    | some t => s.pollTask t
  | .cancel n =>
    match s.task? n with
    | none => (s, .existed false)
    | some t => ({ s with pool := s.pool.abandon t.waiter }.removeTask n, .existed true)
  | .advance millis => ({ s with now := s.now + millis }, .nothing)
  | .release i =>
    match s.slot? i with
    | none => (s, .noSuchSlot)
    | some slot => ({ s with pool := s.pool.release slot.handle }, .nothing)
  | .drop i =>
    match s.slot? i with
    | none => (s, .noSuchSlot)
    | some slot => s.dropSlot i slot
  | .handOff none => { s with pool := s.pool.dispose }.acquire false
  | .handOff (some i) =>
    match s.slot? i with
    | none => (s, .noSuchSlot)
    | some slot => { s with pool := s.pool.release slot.handle }.acquire false
  | .dropPool => ({ s with owned := false }, .nothing)
  | .kill h => ({ s with pool := s.pool.modify h ({ · with dead := true }) }, .nothing)
  | .revive h => ({ s with pool := s.pool.modify h ({ · with dead := false }) }, .nothing)
  | .shut h => ({ s with pool := s.pool.modify h ({ · with shutdown := true }) }, .nothing)
  | .cycleBuffers count =>
    let (taken, allocator) := s.pool.allocator.acquireMany count
    let allocator := taken.foldl BufferAllocator.release allocator
    ({ s with pool := { s.pool with allocator } }, .available allocator.available)

/-- One step of a session. -/
def step (s : Session) (step : Step) : Session × Answer :=
  match s.perform step with
  | (s, answer) => (s.settle, answer)

/-- The session after a list of steps. -/
def run (s : Session) (steps : List Step) : Session :=
  steps.foldl (fun s step => (s.step step).1) s

/-- The text that describes a guard. -/
def describeGuard (id : ConnectionId) : String :=
  "PooledConnection \x7b id: ConnectionId(" ++ toString id.number ++ ") \x7d"

end Session

end StoreClient
