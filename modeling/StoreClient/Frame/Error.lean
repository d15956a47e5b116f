import StoreClient.Wire.Fault

/-!
# Errors of framing

Everything that can go wrong while frames are cut out of a stream of bytes, or while a request and
its response travel over a transport.
-/

namespace StoreClient

/-- The kinds of failure of a transport. -/
inductive IoKind where
  /-- The peer reset the connection. -/
  | connectionReset
  /-- The peer takes no more bytes. -/
  | brokenPipe
  /-- A write took no byte. -/
  | writeZero
  /-- Any other failure. -/
  | other
deriving DecidableEq, Repr

/-- The name of a kind of failure. -/
def IoKind.name : IoKind → String
  | .connectionReset => "ConnectionReset"
  | .brokenPipe => "BrokenPipe"
  | .writeZero => "WriteZero"
  | .other => "Other"

/-- What went wrong with a frame or an exchange of frames. -/
inductive FrameError where
  /-- The transport failed. -/
  | io (kind : IoKind) (text : String)
  /-- A header or a request is at fault. -/
  | protocol (fault : Fault)
  /-- A frame is longer than the limit. -/
  | frameTooLarge (size max : Nat)
  /-- The stream ended where a response was due. -/
  | connectionClosed
  /-- The response belongs to another request. -/
  | mismatch (expected actual : UInt32)
deriving DecidableEq, Repr

/-- The wording of an error. -/
def FrameError.message : FrameError → String
  | .io _ text => "IO error: " ++ text
  | .protocol fault => "protocol error: " ++ fault.message
  | .frameTooLarge size max =>
    "frame too large: " ++ toString size ++ " bytes (max " ++ toString max ++ ")"
  | .connectionClosed => "connection closed"
  | .mismatch expected actual =>
    "opaque mismatch: expected 0x" ++ Hex.digits expected.toNat ++ ", got 0x"
      ++ Hex.digits actual.toNat

end StoreClient
