import StoreClient.Log
import StoreClient.Text.Utf8
import StoreClient.Wire.Header

/-!
# Exchanges

An exchange is one request and the response to it, as far as it has come: what identifies the
request, how often it was sent, and what the last response said. Decoding never fails loudly: a
response that cannot be decoded leaves a fault and the status `clientFailure` on the exchange.
-/

namespace StoreClient

/-- Identifies one write to a partition. -/
structure MutationToken where
  /-- The partition. -/
  vbucket : UInt16
  /-- The branch of the history of the partition. -/
  uuid : UInt64
  /-- The position of the write in this history. -/
  seqno : UInt64
deriving DecidableEq, Repr

/-- What the server's table of errors says about a failed request. -/
structure ErrorCode where
  /-- The status code. -/
  code : UInt16
  /-- The symbolic name. -/
  name : String
  /-- Whether clients are asked to send the request again. -/
  retry : Bool
deriving DecidableEq, Repr

/-- One request and the response to it. -/
structure Exchange where
  /-- The key of the document. -/
  key : Option String := none
  /-- The partition of the key. -/
  vbucket : Option UInt16 := none
  /-- The number that the server repeats in its response. -/
  correlationId : UInt32 := 0
  /-- The compare-and-swap value. -/
  cas : UInt64 := 0
  /-- How often the request was sent. -/
  attempts : UInt32 := 0
  /-- The reading of the clock when the exchange began. -/
  createdAt : Nat := 0
  /-- The bucket of the document. -/
  bucket : Option String := none
  /-- What the table of errors says about the last failure. -/
  errorCode : Option ErrorCode := none
  /-- The token of a write, or the one that is asked about. -/
  token : Option MutationToken := none
  /-- The header of the response. -/
  header : Option Header := none
  /-- The response. -/
  response : Option Bytes := none
  /-- How the exchange stands. -/
  status : Status := .success
  /-- Why the response could not be decoded. -/
  fault : Option Fault := none
deriving DecidableEq, Repr

namespace Exchange

/-- A new exchange about a key. -/
def about (key : String) : Exchange := { key := some key }

/-- The bytes of the key; none if there is no key. -/
def keyBytes (x : Exchange) : Bytes :=
  match x.key with
  | some key => Utf8.encode key
  | none => []

/-- Records that the response could not be decoded. -/
def fail (x : Exchange) (fault : Fault) : Exchange :=
  { x with fault := some fault, status := .clientFailure }

/-- The log entry that goes with a recorded fault. -/
def undecodable (x : Exchange) (fault : Fault) : Log.Entry where
  level := .debug
  message := "failed to decode response"
  values := [("opaque", toString x.correlationId.toNat), ("error", fault.message)]

/-- Takes over a response whose header could be read. -/
def receive (x : Exchange) (frame : Bytes) (h : Header) : Exchange :=
  { x with status := h.status, cas := h.cas, header := some h, response := some frame }

/-- Whether the response reported success. -/
def succeeded (x : Exchange) : Bool := x.status.isSuccess

/-- The exchange in which the request is sent again: nothing of the response is kept but the
compare-and-swap value and the token. -/
def retryCopy (x : Exchange) : Exchange :=
  { x with header := none, response := none, status := .success, fault := none }

end Exchange

/-- Gives out correlation ids: one after the other, from 1 on, and from 0 again after the last. -/
structure CorrelationIds where
  /-- The id that comes next. -/
  next : UInt32 := 1
deriving DecidableEq, Repr

/-- The next id, and the source after it was taken. -/
def CorrelationIds.take (ids : CorrelationIds) : UInt32 × CorrelationIds :=
  (ids.next, ⟨ids.next + 1⟩)

end StoreClient
