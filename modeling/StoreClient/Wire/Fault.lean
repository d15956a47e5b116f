import StoreClient.Text.Hex

/-!
# Faults

Everything that can be wrong with a request before it is written, with a response while it is read,
or with a conversion between values and bytes.
-/

namespace StoreClient

/-- What is wrong with a request, a response or a conversion. -/
inductive Fault where
  /-- Fewer bytes are there than a value or a frame needs. -/
  | incompleteFrame (expected actual : Nat)
  /-- A destination is too small for a value. -/
  | bufferOverflow (needed capacity : Nat)
  /-- The first byte of a frame names no direction. -/
  | invalidMagic (value : UInt8)
  /-- A count of milliseconds stands for no instant. -/
  | invalidTimestamp (millis : Int)
  /-- Bytes that should be a text are not UTF-8. -/
  | stringEncoding (detail : String)
  /-- A request of this opcode has no key. -/
  | missingKey (opcode : UInt8)
  /-- A request of this opcode has no partition. -/
  | missingVBucket (opcode : UInt8)
  /-- A segment does not fit the field that carries its length. -/
  | segmentTooLong (segment : String) (length max : Nat)
  /-- No response has been read. -/
  | responseNotReceived
deriving DecidableEq, Repr

/-- The wording of a fault. -/
def Fault.message : Fault → String
  | .incompleteFrame expected actual =>
    "incomplete frame: expected " ++ toString expected ++ " bytes, got " ++ toString actual
  | .bufferOverflow needed capacity =>
    "buffer overflow: needed " ++ toString needed ++ " bytes, capacity " ++ toString capacity
  | .invalidMagic value => "invalid magic: 0x" ++ Hex.digits value.toNat
  | .invalidTimestamp millis => "invalid timestamp: " ++ toString millis ++ " ms"
  | .stringEncoding detail => "string encoding error: " ++ detail
  | .missingKey opcode => "operation 0x" ++ Hex.padded 2 opcode.toNat ++ " requires a key"
  | .missingVBucket opcode =>
    "operation 0x" ++ Hex.padded 2 opcode.toNat ++ " requires a vbucket id"
  | .segmentTooLong segment length max =>
    segment ++ " too long: " ++ toString length ++ " bytes (max " ++ toString max ++ ")"
  | .responseNotReceived => "no response received"

end StoreClient
