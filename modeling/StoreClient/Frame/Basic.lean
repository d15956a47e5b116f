import StoreClient.Frame.Error
import StoreClient.Log
import StoreClient.Wire.Header

/-!
# Frames

A stream of bytes is cut into frames by the lengths that their headers declare. No frame may be
longer than a limit, which is at least the size of a header. `Framing.decode?` cuts the first frame
off a buffer; where it cannot, the buffer stays as it is.
-/

namespace StoreClient

/-- A whole frame. -/
structure Frame where
  /-- Its header. -/
  header : Header
  /-- Its bytes, header included. -/
  raw : Bytes
deriving DecidableEq, Repr

/-- The number that ties the frame to a request. -/
def Frame.correlationId (f : Frame) : UInt32 := f.header.correlationId

/-- The limit under which frames are cut and sent. -/
structure Framing where
  /-- The greatest length of a frame, header included. -/
  maxFrameSize : Nat := 20 * 1024 * 1024 + 64 * 1024
deriving DecidableEq, Repr

namespace Framing

/-- The framing with a given limit, or with the size of a header if that is more. -/
def withLimit (limit : Nat) : Framing := ⟨max limit Header.size⟩

/-- Cuts the first frame off a buffer: the frame and what follows it, or none if more bytes are
needed. -/
def decode? (f : Framing) (buffer : Bytes) : Except FrameError (Option (Frame × Bytes)) :=
  if buffer.length < Header.size then .ok none
  else
    match Header.parse buffer with
    | .error fault => .error (.protocol fault)
    | .ok header =>
      if f.maxFrameSize < header.frameLength then
        .error (.frameTooLarge header.frameLength f.maxFrameSize)
      else if buffer.length < header.frameLength then .ok none
      else
        .ok (some (⟨header, buffer.take header.frameLength⟩, buffer.drop header.frameLength))

/-- Cuts the first frame off a buffer to which nothing will be added: a rest that is no frame is an
error. -/
def decodeFinal? (f : Framing) (buffer : Bytes) : Except FrameError (Option (Frame × Bytes)) :=
  match f.decode? buffer with
  | .ok none =>
    if buffer.isEmpty then .ok none else .error (.io .other "bytes remaining on stream")
  | outcome => outcome

/-- Appends a frame to what is to be sent. -/
def encode (f : Framing) (frame buffer : Bytes) : Except FrameError Bytes :=
  if f.maxFrameSize < frame.length then
    .error (.frameTooLarge frame.length f.maxFrameSize)
  else .ok (buffer ++ frame)

end Framing

/-- The log entry about a frame that was cut off. -/
def Frame.decoded (f : Frame) : Log.Entry where
  level := .trace
  message := "decoded frame"
  values :=
    [("opcode", toString f.header.opcode.toNat), ("opaque", toString f.correlationId.toNat),
      ("length", toString f.header.frameLength)]

/-- The log entry about bytes that are to be sent. -/
def Frame.encoding (frame : Bytes) : Log.Entry where
  level := .trace
  message := "encoding frame"
  values := [("length", toString frame.length)]

end StoreClient
