import StoreClient.Pool.Error

/-!
# Configuration of a pool

Durations are in milliseconds.
-/

namespace StoreClient

/-- The configuration of a pool. -/
structure PoolConfig where
  /-- How many connections are opened in advance. -/
  minSize : Nat := 1
  /-- How many connections may be open. -/
  maxSize : Nat := 2
  /-- How long one wait for a connection lasts. -/
  waitTimeout : Nat := 2500
  /-- How many waits may end without a connection before a caller is refused. -/
  maxAcquireRetryCount : Nat := 5
  /-- The time between two attempts to close a connection in use. -/
  closeAttemptInterval : Nat := 100
  /-- How many attempts there are before a connection in use is closed anyway. -/
  maxCloseAttempts : Nat := 5
  /-- How long a connection may take to send a request. -/
  sendTimeout : Nat := 15000
  /-- How long a connection may take to be opened. -/
  connectTimeout : Nat := 10000
  /-- How long a connection may take to be closed. -/
  shutdownTimeout : Nat := 10000
  /-- The size of the buffers that connections share. -/
  bufferSize : Nat := 16384
deriving DecidableEq, Repr

namespace PoolConfig

/-- Checks that a pool can live by the configuration. -/
def validate (c : PoolConfig) : Except PoolError Unit :=
  if c.maxSize = 0 then .error (.config "max_size must be at least 1")
  else if c.maxSize < c.minSize then
    .error (.config ("min_size (" ++ toString c.minSize ++ ") exceeds max_size ("
      ++ toString c.maxSize ++ ")"))
  else if c.maxAcquireRetryCount = 0 then
    .error (.config "max_acquire_retry_count must be at least 1")
  else .ok ()

/-- Whether a pool can live by the configuration. -/
def Valid (c : PoolConfig) : Prop :=
  0 < c.maxSize ∧ c.minSize ≤ c.maxSize ∧ 0 < c.maxAcquireRetryCount

instance (c : PoolConfig) : Decidable c.Valid := inferInstanceAs (Decidable (_ ∧ _ ∧ _))

/-- The check accepts the valid configurations and no others. -/
theorem validate_eq_ok_iff (c : PoolConfig) : c.validate = .ok () ↔ c.Valid := by
  unfold validate Valid
  by_cases hMax : c.maxSize = 0
  · simp [hMax]
  · by_cases hMin : c.maxSize < c.minSize
    · have hNot : ¬ c.minSize ≤ c.maxSize := Nat.not_le_of_lt hMin
      simp [hMax, hMin, hNot]
    · have hLe : c.minSize ≤ c.maxSize := Nat.le_of_not_lt hMin
      by_cases hRetry : c.maxAcquireRetryCount = 0
      · simp [hMax, hMin, hRetry]
      · simp [hMax, hMin, hRetry, hLe, Nat.pos_of_ne_zero]

end PoolConfig

end StoreClient
