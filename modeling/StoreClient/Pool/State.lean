import StoreClient.Log
import StoreClient.Pool.Buffer
import StoreClient.Pool.Config
import StoreClient.Pool.Connection

/-!
# The state of a pool

A pool shares a bounded number of connections to one server among its callers. The connections that
its factory ever made are kept in the order in which they were made; the place in this order is the
handle of a connection. The pool knows which connections are idle, which are live, and who waits for
one.

A caller who has to wait is queued with a waiter, which is completed at most once: by a release, by
the disposal of the pool, or by the caller itself when it stops waiting. A waiter that its caller
completed stays in the queue until a release passes it over.
-/

namespace StoreClient

/-- The place of a connection in the order in which connections were made. -/
abbrev Handle := Nat

/-- The place of a waiter in the order in which waiters were queued. -/
abbrev WaiterId := Nat

/-- What a pool counts. -/
structure PoolMetrics where
  /-- The connections that were made. -/
  created : Nat := 0
  /-- The connections that the pool closed and forgot. -/
  closed : Nat := 0
  /-- Those of them that were dead. -/
  dead : Nat := 0
  /-- The callers that were given a connection. -/
  successful : Nat := 0
  /-- The callers that were refused one, other than by a pool that was disposed of. -/
  failed : Nat := 0
  /-- The waits that ended without a connection. -/
  timedOut : Nat := 0
deriving DecidableEq, Repr

/-- A pool of connections to one server. -/
structure Pool where
  /-- The server. -/
  endpoint : Endpoint
  /-- The configuration. -/
  config : PoolConfig
  /-- The buffers that the connections share. -/
  allocator : BufferAllocator
  /-- The outcomes of the factory's calls to come; when they are used up, every call succeeds. -/
  factory : List FactoryOutcome := []
  /-- Every connection that was made, in order. -/
  connections : List Connection := []
  /-- The connections that are ready to be handed out, the one that has been idle longest first. -/
  idle : List Handle := []
  /-- The live connections by their ids. -/
  registry : List (ConnectionId × Handle) := []
  /-- How many connections are live. -/
  liveCount : Nat := 0
  /-- The waits without a connection and the failures of the factory since a caller was last given a
  connection, or refused one because of too many waits. -/
  failures : Nat := 0
  /-- The callers that wait, the one that has been waiting longest first. -/
  queue : List WaiterId := []
  /-- How many callers have ever been queued. -/
  waiterCount : Nat := 0
  /-- The waiters that were completed, the last one first. -/
  completed : List WaiterId := []
  /-- Whether the pool was disposed of. -/
  disposed : Bool := false
  /-- Whether opening connections in advance failed. -/
  openingFailed : Bool := false
  /-- The number of the next connection. -/
  nextId : Nat := 1
  /-- What the pool has counted. -/
  metrics : PoolMetrics := {}
  /-- The reports about dead connections, oldest first: each tells whether the connection is dead.
  -/
  reports : List Bool := []
  /-- What the pool has logged, oldest first. -/
  log : List Log.Entry := []
deriving DecidableEq, Repr

namespace Pool

/-- How many free buffers the pool keeps for each connection. -/
def buffersPerConnection : Nat := 2

/-- A pool to which nothing has happened. -/
def fresh (endpoint : Endpoint) (config : PoolConfig) (factory : List FactoryOutcome) : Pool where
  endpoint
  config
  factory
  allocator := { bufferSize := config.bufferSize, maxFree := config.maxSize * buffersPerConnection }
  log :=
    [{ level := .info
       message := "connection pool created"
       values := [("min", toString config.minSize), ("max", toString config.maxSize)] }]

/-- A new pool. The configuration is checked first; then a server and a factory must be there. -/
def build (endpoint : Option Endpoint) (config : PoolConfig)
    (factory : Option (List FactoryOutcome)) : Except PoolError Pool :=
  match config.validate, endpoint, factory with
  | .error e, _, _ => .error e
  | .ok (), none, _ => .error (.config "endpoint is required")
  | .ok (), some _, none => .error (.config "connection factory is required")
  | .ok (), some endpoint, some factory => .ok (fresh endpoint config factory)

/-- What the factory is told about a connection. -/
def context (p : Pool) (id : ConnectionId) : ConnectionContext where
  endpoint := p.endpoint
  id
  connectTimeout := p.config.connectTimeout
  sendTimeout := p.config.sendTimeout
  shutdownTimeout := p.config.shutdownTimeout

/-- Adds an entry to the log. -/
def note (p : Pool) (level : Log.Level) (message : String) (values : List (String × String) := []) :
    Pool :=
  { p with log := p.log ++ [{ level, message, values }] }

/-- The connection of a handle. -/
def connection? (p : Pool) (h : Handle) : Option Connection := p.connections[h]?

/-- The id of the connection of a handle. -/
def idOf (p : Pool) (h : Handle) : ConnectionId := ((p.connection? h).map (·.id)).getD default

/-- Whether the connection of a handle is dead. -/
def isDead (p : Pool) (h : Handle) : Bool := (p.connection? h).any (·.dead)

/-- Changes the connection of a handle. -/
def modify (p : Pool) (h : Handle) (f : Connection → Connection) : Pool :=
  { p with connections := p.connections.modify h f }

/-- Whether the pool counts the connection of a handle as live. -/
def tracks (p : Pool) (h : Handle) : Bool := p.registry.any (·.1 == p.idOf h)

/-- Whether a waiter was completed. -/
def isCompleted (p : Pool) (w : WaiterId) : Bool := p.completed.contains w

/-- The log value that names a connection. -/
def idValue (p : Pool) (h : Handle) : String × String := ("connection_id", (p.idOf h).text)

end Pool

end StoreClient
