import StoreClient.Pool.State

/-!
# Figures of a pool

What can be seen of a pool from outside, and the rates that follow from its counts.
-/

namespace StoreClient

/-- A summary of the connections of a pool. -/
structure PoolStatus where
  /-- The connections that are idle. -/
  available : Nat
  /-- The connections that callers hold. -/
  inUse : Nat
  /-- The live connections. -/
  total : Nat
  /-- How many connections may be live. -/
  max : Nat
deriving DecidableEq, Repr

/-- The number as a floating-point number, rounded to nearest, ties to even. -/
def floatOfCount (n : Nat) : Float := n.toUInt64.toFloat

namespace PoolStatus

/-- The share of connections in use, in percent; zero if there may be none. -/
def utilization (s : PoolStatus) : Float :=
  if s.max = 0 then 0 else floatOfCount s.inUse / floatOfCount s.max * 100

/-- Whether no more connections may be opened. -/
def isAtCapacity (s : PoolStatus) : Bool := s.max ≤ s.total

end PoolStatus

/-- The summary of a pool. -/
def Pool.status (p : Pool) : PoolStatus where
  available := p.idle.length
  inUse := p.liveCount - p.idle.length
  total := p.liveCount
  max := p.config.maxSize

namespace PoolMetrics

/-- The share of callers that were given a connection; one if there were no callers. -/
def checkoutSuccessRate (m : PoolMetrics) : Float :=
  if m.successful + m.failed = 0 then 1
  else floatOfCount m.successful / floatOfCount (m.successful + m.failed)

/-- The share of dead ones among the connections that were made; zero if there were none. -/
def deadConnectionRate (m : PoolMetrics) : Float :=
  if m.created = 0 then 0 else floatOfCount m.dead / floatOfCount m.created

end PoolMetrics

end StoreClient
