import StoreClient.Frame.Stream
import StoreClient.Request.Operation

/-!
# Round trips

A round trip sends a request and reads the next frame of the stream as its response. The attempt is
counted before the request is sent. A frame with another correlation id is no response: it is
dropped, and the exchange is left without one.
-/

namespace StoreClient

/-- The log entry about a frame that answers another request. -/
def Frame.foreign (expected actual : UInt32) : Log.Entry where
  level := .warn
  message := "response does not match request"
  values := [("expected", toString expected.toNat), ("actual", toString actual.toNat)]

namespace FrameStream

/-- Reads the next frame of the stream as the response of an exchange. -/
def awaitResponse (s : FrameStream) (e : Envelope) (x : Exchange) : FrameStream × Exchange × Sent :=
  match s.next with
  | (s, .pending) => (s, x, .pending)
  | (s, .ready none) => (s, x, .ready (.error .connectionClosed))
  | (s, .ready (some (.error error))) => (s, x, .ready (.error error))
  | (s, .ready (some (.ok frame))) =>
    if frame.correlationId = x.correlationId then
      ({ s with log := s.log ++ e.readLog x frame.raw }, e.read x frame.raw, .ready (.ok ()))
    else
      ({ s with log := s.log ++ [Frame.foreign x.correlationId frame.correlationId] }, x,
        .ready (.error (.mismatch x.correlationId frame.correlationId)))

/-- Sends the request of an exchange and reads its response. -/
def roundTrip (s : FrameStream) (e : Envelope) (x : Exchange) : FrameStream × Exchange × Sent :=
  match e.write x with
  | .error fault => (s, x, .ready (.error (.protocol fault)))
  | .ok request =>
    let x := { x with attempts := x.attempts + 1 }
    match s.send request with
    | (s, .ready (.ok ())) => s.awaitResponse e x
    | (s, outcome) => (s, x, outcome)

end FrameStream

end StoreClient
