/-!
# Single bits of a byte

Bits are counted from the least significant one. A byte has eight of them: a position past the last
reads as clear and cannot be set.
-/

namespace StoreClient.Bit

/-- The byte in which only the bit at `position` is set. -/
def mask (position : Nat) : UInt8 := 1 <<< UInt8.ofNat position

/-- Whether the bit at `position` is set. -/
def get (byte : UInt8) (position : Nat) : Bool :=
  position < 8 && byte &&& mask position != 0

/-- The byte with the bit at `position` set or cleared. -/
def set (byte : UInt8) (position : Nat) (value : Bool) : UInt8 :=
  if position < 8 then
    if value then byte ||| mask position else byte &&& ~~~(mask position)
  else byte

end StoreClient.Bit
