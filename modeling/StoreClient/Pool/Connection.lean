import StoreClient.Pool.Error
import StoreClient.Text.Hex

/-!
# Connections

What a pool needs to know of a connection, and what it does with one: it marks it as used or unused,
asks it to close once it is no longer used, and closes it. A connection may die or close by itself
at any time. Connections come from a factory, which may fail instead.
-/

namespace StoreClient

/-- The number of a connection within its pool. -/
structure ConnectionId where
  /-- The number. -/
  number : Nat
deriving DecidableEq, Repr, Inhabited

/-- The id in 16 hexadecimal digits. -/
def ConnectionId.text (id : ConnectionId) : String := Hex.padded 16 id.number

/-- The ids in ascending order. -/
def ConnectionId.sort (ids : List ConnectionId) : List ConnectionId :=
  ids.mergeSort fun a b => a.number ≤ b.number

/-- What the factory is told about a new connection. -/
structure ConnectionContext where
  /-- The server. -/
  endpoint : Endpoint
  /-- The id that the pool gives to the connection. -/
  id : ConnectionId
  /-- How long opening it may take, in milliseconds. -/
  connectTimeout : Nat
  /-- How long sending a request may take, in milliseconds. -/
  sendTimeout : Nat
  /-- How long closing it may take, in milliseconds. -/
  shutdownTimeout : Nat
deriving DecidableEq, Repr

/-- A connection. -/
structure Connection where
  /-- The id that the connection goes by. -/
  id : ConnectionId
  /-- What the factory was told when it made the connection. -/
  context : ConnectionContext
  /-- Whether a caller holds it. -/
  used : Bool := false
  /-- Whether it can carry no more requests. -/
  dead : Bool := false
  /-- Whether it was closed. -/
  shutdown : Bool := false
  /-- How often the pool closed it. -/
  disposals : Nat := 0
  /-- The requests of the pool to close when unused: milliseconds between attempts, and attempts. -/
  countdowns : List (Nat × Nat) := []
deriving DecidableEq, Repr

namespace Connection

/-- Closes the connection. -/
def dispose (c : Connection) : Connection :=
  { c with shutdown := true, disposals := c.disposals + 1 }

/-- Marks the connection as used or unused. -/
def markUsed (used : Bool) (c : Connection) : Connection := { c with used }

/-- Asks the connection to close once it is unused. -/
def countdownToClose (interval attempts : Nat) (c : Connection) : Connection :=
  { c with countdowns := c.countdowns ++ [(interval, attempts)] }

end Connection

/-- What one call of a factory gives. -/
inductive FactoryOutcome where
  /-- A connection, which may be born dead and may go by an id of its own. -/
  | connection (dead : Bool := false) (id : Option ConnectionId := none)
  /-- An error. -/
  | failure (error : PoolError)
deriving DecidableEq, Repr

end StoreClient
