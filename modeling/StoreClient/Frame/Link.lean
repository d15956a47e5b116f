import StoreClient.Frame.RoundTrip

/-!
# Links

A link is a stream of frames over a transport that also has to be flushed once it has taken all
bytes. A call on a link that has to wait may be polled again, and goes on from where it was; the
caller may also give it up, and then what it did so far stays done. Nothing else happens on the link
between two polls of a call.
-/

namespace StoreClient

/-- What one flush of a transport does. -/
inductive FlushAct where
  /-- All bytes are on their way. -/
  | done
  /-- Some bytes are not on their way yet. -/
  | notReady
  /-- The transport fails. -/
  | failure (kind : IoKind) (text : String)
deriving DecidableEq, Repr

/-- A stream of frames over a transport that has to be flushed. -/
structure Link where
  /-- The stream. -/
  stream : FrameStream := {}
  /-- The outcomes of the flushes to come, in order; when they are used up, every flush is done. -/
  flushes : List FlushAct := []
deriving DecidableEq, Repr

namespace Link

open FrameStream (Sent)

/-- Flushes the transport. -/
def settle (l : Link) : Link × Sent :=
  match l.flushes with
  | [] => (l, .ready (.ok ()))
  | .done :: flushes => ({ l with flushes := flushes }, .ready (.ok ()))
  | .notReady :: flushes => ({ l with flushes := flushes }, .pending)
  | .failure kind text :: flushes =>
    ({ l with flushes := flushes }, .ready (.error (.io kind text)))

/-- Hands the write buffer to the transport, and flushes the transport. -/
def flush (l : Link) : Link × Sent :=
  match l.stream.flush with
  | (s, .ready (.ok ())) => { l with stream := s }.settle
  | (s, outcome) => ({ l with stream := s }, outcome)

/-- Makes room for a frame: a write buffer that is full is flushed. -/
def makeRoom (l : Link) : Link × Sent :=
  if l.stream.writeBuffer.length < FrameStream.backlogLimit then (l, .ready (.ok ())) else l.flush

/-- Puts a frame into the write buffer. -/
def put (l : Link) (frame : Bytes) : Link × Sent :=
  match l.stream.framing.encode frame l.stream.writeBuffer with
  | .error e => (l, .ready (.error e))
  | .ok buffer =>
    ({ l with
        stream :=
          { l.stream with
            writeBuffer := buffer
            log := l.stream.log ++ [Frame.encoding frame] } }, .ready (.ok ()))

/-- Puts a frame into the write buffer once there is room for it. -/
def feed (l : Link) (frame : Bytes) : Link × Sent :=
  match l.makeRoom with
  | (l, .ready (.ok ())) => l.put frame
  | other => other

/-- Flushes the link and shuts the transport down. -/
def close (l : Link) : Link × Sent :=
  match l.flush with
  | (l, .ready (.ok ())) =>
    ({ l with
        stream :=
          { l.stream with transport := { l.stream.transport with shutdown := true } } },
      .ready (.ok ()))
  | other => other

/-- Goes on sending a frame, which is given until it is in the write buffer. -/
def send (l : Link) : (frame : Option Bytes) → Link × Option Bytes × Sent
  | none =>
    let (l, outcome) := l.flush
    (l, none, outcome)
  | some frame =>
    match l.feed frame with
    | (l, .ready (.ok ())) =>
      let (l, outcome) := l.flush
      (l, none, outcome)
    | (l, outcome) => (l, some frame, outcome)

/-- Polls a call until it is done, but no more often than the given number of times. -/
def await {σ : Type} (poll : Link → σ → Link × σ × Sent) : Nat → Link → σ → Link × σ × Sent
  | 0, l, call => (l, call, .pending)
  | polls + 1, l, call =>
    match poll l call with
    | (l, call, .pending) => await poll polls l call
    | done => done

end Link

/-- How far a round trip has come. -/
inductive RoundTrip.Stage where
  /-- It has not been polled. -/
  | unsent
  /-- The request is being sent; it is given until it is in the write buffer. -/
  | sending (frame : Option Bytes)
  /-- The response is awaited. -/
  | receiving
deriving DecidableEq, Repr

/-- A round trip that may be polled. -/
structure RoundTrip where
  /-- The kind of the request. -/
  envelope : Envelope
  /-- The exchange. -/
  exchange : Exchange
  /-- How far the round trip has come. -/
  stage : RoundTrip.Stage := .unsent

namespace RoundTrip

open FrameStream (Sent)

/-- Reads the next frame of the stream as the response. -/
def receive (l : Link) (t : RoundTrip) : Link × RoundTrip × Sent :=
  let (s, x, outcome) := l.stream.awaitResponse t.envelope t.exchange
  ({ l with stream := s }, { t with exchange := x, stage := .receiving }, outcome)

/-- Goes on sending the request, and reads the response once it is sent. -/
def send (l : Link) (t : RoundTrip) (frame : Option Bytes) : Link × RoundTrip × Sent :=
  match l.send frame with
  | (l, _, .ready (.ok ())) => receive l t
  | (l, frame, outcome) => (l, { t with stage := .sending frame }, outcome)

/-- Takes a round trip on until it is done or has to wait. The attempt is counted before the request
is sent. -/
def poll (l : Link) (t : RoundTrip) : Link × RoundTrip × Sent :=
  match t.stage with
  | .unsent =>
    match t.envelope.write t.exchange with
    | .error fault => (l, t, .ready (.error (.protocol fault)))
    | .ok request =>
      send l { t with exchange := { t.exchange with attempts := t.exchange.attempts + 1 } }
        (some request)
  | .sending frame => send l t frame
  | .receiving => receive l t

end RoundTrip

namespace Link

open FrameStream (Sent)

/-- Starts a round trip and polls it until it is done, but no more often than the given number of
times. -/
def roundTrip (l : Link) (e : Envelope) (x : Exchange) (polls : Nat) : Link × Exchange × Sent :=
  let (l, t, outcome) := await RoundTrip.poll polls l { envelope := e, exchange := x }
  (l, t.exchange, outcome)

/-- The calls that may be made on a link. -/
inductive Call where
  /-- Receives a frame. -/
  | next
  /-- Makes room for a frame. -/
  | makeRoom
  /-- Puts a frame into the write buffer. -/
  | put (frame : Bytes)
  /-- Flushes the link. -/
  | flush
  /-- Closes the link. -/
  | close
  /-- Sends a frame, and gives up after a number of polls. -/
  | send (frame : Bytes) (polls : Nat)
  /-- Makes a round trip, and gives up after a number of polls. -/
  | roundTrip (e : Envelope) (x : Exchange) (polls : Nat)

/-- The frame that a call is to send. -/
def Call.frame? : Call → Option Bytes
  | .put frame => some frame
  | .send frame _ => some frame
  | .roundTrip e x _ => (e.write x).toOption
  | _ => none

/-- The link after a call, however the call ends. -/
def perform (l : Link) : Call → Link
  | .next => { l with stream := l.stream.next.1 }
  | .makeRoom => l.makeRoom.1
  | .put frame => (l.put frame).1
  | .flush => l.flush.1
  | .close => l.close.1
  | .send frame polls => (await send polls l (some frame)).1
  | .roundTrip e x polls => (l.roundTrip e x polls).1

/-- The link after some calls, one after the other. -/
def run (l : Link) (calls : List Call) : Link := calls.foldl perform l

end Link

end StoreClient
