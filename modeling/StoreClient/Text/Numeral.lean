/-!
# Unsigned decimal numerals

A numeral is one or more ASCII digits, which a single plus sign may precede. It is read only if its
value lies below a bound, so a numeral that a machine word cannot hold is no numeral of that word.
-/

namespace StoreClient.Numeral

/-- The value of an ASCII digit. -/
def digitValue? (c : Char) : Option Nat :=
  if '0' ≤ c ∧ c ≤ '9' then some (c.toNat - '0'.toNat) else none

/-- The value of a string of digits, continuing from `value`. -/
def digitsValue? (value : Nat) : List Char → Option Nat
  | [] => some value
  | c :: rest =>
    match digitValue? c with
    | some d => digitsValue? (value * 10 + d) rest
    | none => none

/-- The text after an optional plus sign. -/
def unsigned : List Char → List Char
  | '+' :: rest => rest
  | text => text

/-- Reads a numeral whose value is below `bound`. -/
def read? (bound : Nat) (text : List Char) : Option Nat :=
  match unsigned text with
  | [] => none
  | digits => (digitsValue? 0 digits).filter (· < bound)

end StoreClient.Numeral
