import StoreClient.Wire.Header

/-!
# Layouts

The layout of a request is what its frame is made of: the command, the segments that follow the
header and the remaining header fields. A frame is written from its layout; the lengths of the
segments are checked against the header fields that carry them.
-/

namespace StoreClient

/-- What the frame of a request is made of. -/
structure Layout where
  /-- The command. -/
  opcode : Opcode
  /-- Whether the key must not be empty. -/
  requiresKey : Bool := true
  /-- The key. -/
  key : Bytes := []
  /-- The partition. -/
  vbucket : Option UInt16 := none
  /-- What the value is made of. -/
  datatype : UInt8 := 0
  /-- The extras, or why there are none. -/
  extras : Except Fault Bytes := .ok []
  /-- The path, between key and body. -/
  path : Bytes := []
  /-- The body, or why there is none. -/
  body : Except Fault Bytes := .ok []

/-- Checks that the length of a segment fits a field. -/
def checkLength (segment : String) (length max : Nat) : Except Fault Unit :=
  if max < length then .error (.segmentTooLong segment length max) else .ok ()

/-- The greatest length of a key. -/
def maxKeyLength : Nat := 65535

/-- The greatest length of extras. -/
def maxExtrasLength : Nat := 255

/-- The greatest length of all segments together. -/
def maxBodyLength : Nat := 4294967295

namespace Layout

/-- The header of a request with the given segments. -/
def header (l : Layout) (correlationId : UInt32) (cas : UInt64) (extras body : Bytes) : Header where
  magic := .request
  opcode := l.opcode.code
  keyLength := UInt16.ofNat l.key.length
  extrasLength := UInt8.ofNat extras.length
  datatype := l.datatype
  statusOrVBucket := l.vbucket.getD 0
  bodyLength := UInt32.ofNat (extras.length + l.key.length + l.path.length + body.length)
  correlationId
  cas

/-- The frame of a request: header, extras, key, path and body. -/
def frame (l : Layout) (correlationId : UInt32) (cas : UInt64) : Except Fault Bytes :=
  if l.requiresKey && l.key.isEmpty then .error (.missingKey l.opcode.code)
  else do
    let extras ← l.extras
    let body ← l.body
    checkLength "key" l.key.length maxKeyLength
    checkLength "extras" extras.length maxExtrasLength
    checkLength "body" (extras.length + l.key.length + l.path.length + body.length) maxBodyLength
    return (l.header correlationId cas extras body).toBytes ++ extras ++ l.key ++ l.path ++ body

end Layout

end StoreClient
