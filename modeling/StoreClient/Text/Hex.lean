/-!
# Hexadecimal numerals

Lower-case digits, in the fewest places (`digits`), or padded with zeros to a fixed number of places
(`padded`).
-/

namespace StoreClient.Hex

/-- The digit of a value below sixteen. -/
def digit (n : Nat) : Char := n.digitChar

/-- The numeral of `n` without leading zeros; zero is one digit. -/
def digits (n : Nat) : String := String.ofList (Nat.toDigits 16 n)

/-- The last `places` digits of `n`. -/
def fixed : (places : Nat) → (n : Nat) → List Char
  | 0, _ => []
  | places + 1, n => fixed places (n / 16) ++ [digit (n % 16)]

/-- The numeral of `n` in at least `places` digits. -/
def padded (places n : Nat) : String :=
  String.ofList ((Nat.toDigits 16 n).leftpad places '0')

@[simp] theorem length_fixed (places n : Nat) : (fixed places n).length = places := by
  induction places generalizing n with
  | zero => rfl
  | succ places ih => simp [fixed, ih]

end StoreClient.Hex
