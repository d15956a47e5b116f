import StoreClient.Pool.Endpoint

/-!
# Errors of the pool

Why a pool cannot be made, or why it hands out no connection.
-/

namespace StoreClient

/-- Why a pool cannot be made or hands out no connection. -/
inductive PoolError where
  /-- Too many waits have ended without a connection. -/
  | unavailable (endpoint : Endpoint) (attempts : Nat)
  /-- The pool was disposed of. -/
  | closed
  /-- The factory could not connect. -/
  | connect (text : String)
  /-- The configuration is invalid. -/
  | config (text : String)
deriving DecidableEq, Repr

namespace PoolError

/-- The wording of an error. -/
def message : PoolError → String
  | .unavailable endpoint attempts =>
    "no connection to " ++ endpoint.text ++ " available after " ++ toString attempts
      ++ " attempts"
  | .closed => "connection pool is closed"
  | .connect text => "failed to create connection: " ++ text
  | .config text => "configuration error: " ++ text

/-- Whether the error reports that the pool is exhausted. -/
def isUnavailable : PoolError → Bool
  | .unavailable .. => true
  | _ => false

end PoolError

end StoreClient
