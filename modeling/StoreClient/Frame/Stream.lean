import StoreClient.Frame.Basic
import StoreClient.Frame.Transport

/-!
# Streams of frames

A stream sends and receives frames over a transport. Bytes that were received and do not make a
frame yet wait in the read buffer; bytes that are to be sent and were not taken yet wait in the
write buffer. Every call may find the transport not ready: it is then pending, and what it did so
far stays done.
-/

namespace StoreClient

/-- A stream of frames over a transport. -/
structure FrameStream where
  /-- The limit on frames. -/
  framing : Framing := {}
  /-- The transport. -/
  transport : Transport := {}
  /-- The bytes received that no frame was made of yet. -/
  readBuffer : Bytes := []
  /-- The bytes to be sent that the transport has not taken yet. -/
  writeBuffer : Bytes := []
  /-- Whether the transport had no more bytes when it was last read. -/
  ended : Bool := false
  /-- Whether the read buffer may hold a frame. -/
  readable : Bool := false
  /-- Whether the last call to receive ended in an error. -/
  errored : Bool := false
  /-- What the stream has logged, oldest first. -/
  log : List Log.Entry := []
deriving DecidableEq, Repr

namespace FrameStream

/-- The outcome of a call to receive: a frame, the end of the stream, or an error. -/
abbrev Received := Poll (Option (Except FrameError Frame))

/-- The outcome of a call to send. -/
abbrev Sent := Poll (Except FrameError Unit)

/-! ## Receiving -/

/-- Answers with an error. -/
def failWith (s : FrameStream) (e : FrameError) : FrameStream × Received :=
  ({ s with errored := true }, .ready (some (.error e)))

/-- Answers with a frame that was cut off the read buffer. -/
def yieldFrame (s : FrameStream) (frame : Frame) (rest : Bytes) : FrameStream × Received :=
  ({ s with readBuffer := rest, log := s.log ++ [frame.decoded] }, .ready (some (.ok frame)))

/-- Answers from the read buffer alone, after the transport has ended. -/
def finish (s : FrameStream) : FrameStream × Received :=
  match s.framing.decodeFinal? s.readBuffer with
  | .error e => s.failWith e
  | .ok (some (frame, rest)) => s.yieldFrame frame rest
  | .ok none => ({ s with readable := false }, .ready none)

/-- Reads a transport whose next reads are `acts` until there is an answer. -/
def readFrom (s : FrameStream) : (acts : List ReadAct) → FrameStream × Received
  | [] => readEnd s []
  | .notReady :: acts => ({ s with transport := { s.transport with reads := acts } }, .pending)
  | .failure text :: acts =>
    { s with transport := { s.transport with reads := acts } }.failWith (.io .connectionReset text)
  | .data [] :: acts => readEnd s acts
  | .data (b :: bytes) :: acts =>
    let s := { s with readBuffer := s.readBuffer ++ b :: bytes, ended := false, readable := true }
    match s.framing.decode? s.readBuffer with
    | .error e => { s with transport := { s.transport with reads := acts } }.failWith e
    | .ok (some (frame, rest)) =>
      { s with transport := { s.transport with reads := acts } }.yieldFrame frame rest
    | .ok none => readFrom { s with readable := false } acts
where
  /-- Takes note of a read that gave no byte. -/
  readEnd (s : FrameStream) (acts : List ReadAct) : FrameStream × Received :=
    let s := { s with transport := { s.transport with reads := acts } }
    if s.ended then (s, .ready none)
    else finish { s with ended := true, readable := true }

/-- Receives the next frame. After an error the stream answers once that it has ended. -/
def next (s : FrameStream) : FrameStream × Received :=
  if s.errored then ({ s with errored := false, readable := false }, .ready none)
  else if s.readable then
    if s.ended then s.finish
    else
      match s.framing.decode? s.readBuffer with
      | .error e => s.failWith e
      | .ok (some (frame, rest)) => s.yieldFrame frame rest
      | .ok none => readFrom { s with readable := false } s.transport.reads
  else s.readFrom s.transport.reads

/-! ## Sending -/

/-- The number of bytes from which on the write buffer is flushed before anything is added. -/
def backlogLimit : Nat := 8192

/-- Writes to a transport whose next writes are `acts` until the write buffer is empty. -/
def writeTo (s : FrameStream) : (acts : List WriteAct) → FrameStream × Sent
  | [] =>
    ({ s with
        transport :=
          { s.transport with writes := [], written := s.transport.written ++ s.writeBuffer }
        writeBuffer := [] }, .ready (.ok ()))
  | act :: acts =>
    if s.writeBuffer.isEmpty then
      ({ s with transport := { s.transport with writes := act :: acts } }, .ready (.ok ()))
    else
      match act with
      | .notReady => ({ s with transport := { s.transport with writes := acts } }, .pending)
      | .failure text =>
        ({ s with transport := { s.transport with writes := acts } },
          .ready (.error (.io .brokenPipe text)))
      | .accept 0 =>
        ({ s with transport := { s.transport with writes := acts } },
          .ready (.error (.io .writeZero "failed to write frame to transport")))
      | .accept limit =>
        writeTo
          { s with
            transport :=
              { s.transport with written := s.transport.written ++ s.writeBuffer.take limit }
            writeBuffer := s.writeBuffer.drop limit }
          acts

/-- Hands the write buffer to the transport. -/
def flush (s : FrameStream) : FrameStream × Sent := s.writeTo s.transport.writes

/-- Puts a frame into the write buffer; a buffer that is full is flushed first. -/
def feed (s : FrameStream) (frame : Bytes) : FrameStream × Sent :=
  let (s, ready) := if s.writeBuffer.length < backlogLimit then (s, .ready (.ok ())) else s.flush
  match ready with
  | .ready (.ok ()) =>
    match s.framing.encode frame s.writeBuffer with
    | .error e => (s, .ready (.error e))
    | .ok buffer =>
      ({ s with writeBuffer := buffer, log := s.log ++ [Frame.encoding frame] }, .ready (.ok ()))
  | other => (s, other)

/-- Puts a frame into the write buffer and flushes it. -/
def send (s : FrameStream) (frame : Bytes) : FrameStream × Sent :=
  match s.feed frame with
  | (s, .ready (.ok ())) => s.flush
  | other => other

/-- Flushes the write buffer and shuts the transport down. -/
def close (s : FrameStream) : FrameStream × Sent :=
  match s.flush with
  | (s, .ready (.ok ())) =>
    ({ s with transport := { s.transport with shutdown := true } }, .ready (.ok ()))
  | other => other

/-- The text that describes the stream, with a name for its transport. -/
def describe (s : FrameStream) (transport : String) : String :=
  "FrameStream \x7b transport: " ++ transport ++ ", codec: FrameCodec \x7b max_frame_size: "
    ++ toString s.framing.maxFrameSize ++ " \x7d \x7d"

end FrameStream

end StoreClient
