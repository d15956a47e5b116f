/-!
# Instants

An instant is a count of seconds since the start of 1970 and a count of nanoseconds that is added to
it, so that the nanoseconds of an instant before 1970 still count forwards. On the wire an instant
is a signed count of milliseconds, and only a fixed range of them is meant.
-/

namespace StoreClient

/-- A point in time. -/
structure Instant where
  /-- Seconds since the start of 1970, rounded down. -/
  seconds : Int
  /-- Nanoseconds to add to the seconds. -/
  nanos : Fin 1000000000
deriving DecidableEq, Repr

namespace Instant

/-- The least count of milliseconds that stands for an instant: the start of the year −262143. -/
def minMillis : Int := -8334601228800000

/-- The greatest count of milliseconds that stands for an instant: the end of the year 262142. -/
def maxMillis : Int := 8210266876799999

/-- The whole milliseconds since the start of 1970, rounded down. -/
def millis (t : Instant) : Int := t.seconds * 1000 + (t.nanos.val / 1000000 : Nat)

/-- The instant that lies a count of milliseconds after the start of 1970, if it is in range. -/
def ofMillis? (n : Int) : Option Instant :=
  if minMillis ≤ n ∧ n ≤ maxMillis then
    some
      { seconds := n / 1000
        nanos := ⟨(n % 1000).toNat * 1000000, by omega⟩ }
  else none

/-- Whether an instant lies in the range that the wire can carry. -/
def InRange (t : Instant) : Prop := minMillis ≤ t.millis ∧ t.millis ≤ maxMillis

instance (t : Instant) : Decidable t.InRange := inferInstanceAs (Decidable (_ ∧ _))

end Instant

end StoreClient
