import StoreClient.Request.Exchange
import StoreClient.Request.Layout

/-!
# Operations

An operation is a kind of request: how it is laid out on the wire, what its response tells about the
exchange, and how the value of a successful response is parsed. The envelope of an operation is the
part that does not depend on the type of its values.

Reading a response and taking its value never fail. What goes wrong is recorded on the exchange, and
a value that cannot be had is the default value.
-/

namespace StoreClient

/-- How a kind of request travels. -/
structure Envelope where
  /-- The layout of the request in an exchange. -/
  layout : Exchange → Layout
  /-- The mutation token in the extras of a response, for a request to the given partition. -/
  readToken : Option UInt16 → Bytes → Header → Except Fault (Option MutationToken) :=
    fun _ _ _ => .ok none
  /-- Whether a failed request may be sent again without asking. -/
  resendable : Bool := true

/-- A kind of request whose responses carry values of type `α`. -/
structure Operation (α : Type) extends Envelope where
  /-- The value of a successful response. -/
  parse : Bytes → Header → Except Fault α
  /-- The value where there is no other. -/
  default : α

namespace Envelope

/-- The frame of the request. -/
def write (e : Envelope) (x : Exchange) : Except Fault Bytes :=
  (e.layout x).frame x.correlationId x.cas

/-- Whether a failed request may be sent again: the kind of request allows it, and so does the table
of errors if it knows the failure. -/
def canRetry (e : Envelope) (x : Exchange) : Bool :=
  e.resendable && x.errorCode.all (·.retry)

/-- Takes over a response frame. -/
def read (e : Envelope) (x : Exchange) (frame : Bytes) : Exchange :=
  match Header.parse frame with
  | .error fault => x.fail fault
  | .ok h =>
    match e.readToken x.vbucket frame h with
    | .error fault => (x.receive frame h).fail fault
    | .ok none => x.receive frame h
    | .ok (some token) => { x.receive frame h with token := some token }

/-- The fault that taking over a frame records. -/
def readFault? (e : Envelope) (x : Exchange) (frame : Bytes) : Option Fault :=
  match Header.parse frame with
  | .error fault => some fault
  | .ok h =>
    match e.readToken x.vbucket frame h with
    | .error fault => some fault
    | .ok _ => none

/-- What taking over a frame logs. -/
def readLog (e : Envelope) (x : Exchange) (frame : Bytes) : List Log.Entry :=
  (e.readFault? x frame).toList.map x.undecodable

end Envelope

namespace Operation

variable {α β : Type}

/-- The outcome of parsing the value of the response; none if the exchange has not succeeded or has
no response. -/
def parsed? (op : Operation α) (x : Exchange) : Option (Except Fault α) :=
  match x.succeeded, x.response, x.header with
  | true, some frame, some h => some (op.parse frame h)
  | _, _, _ => none

/-- The value of the response. -/
def value (op : Operation α) (x : Exchange) : α :=
  match op.parsed? x with
  | some (.ok v) => v
  | _ => op.default

/-- The exchange after its value was taken. -/
def afterValue (op : Operation α) (x : Exchange) : Exchange :=
  match op.parsed? x with
  | some (.error fault) => x.fail fault
  | _ => x

/-- What taking the value logs. -/
def valueLog (op : Operation α) (x : Exchange) : List Log.Entry :=
  match op.parsed? x with
  | some (.error fault) => [x.undecodable fault]
  | _ => []

/-- The operation whose values are passed through a function. -/
def map (f : α → β) (op : Operation α) : Operation β where
  toEnvelope := op.toEnvelope
  parse frame h := (op.parse frame h).map f
  default := f op.default

end Operation

/-- The mutation token in the extras of a response: 16 bytes, which the server sends only on
connections that asked for them, about the partition of the request. -/
def readMutationToken (vbucket : Option UInt16) (frame : Bytes) (h : Header) :
    Except Fault (Option MutationToken) :=
  match vbucket with
  | none => .ok none
  | some vbucket =>
    if h.extrasLength < 16 then .ok none
    else
      (segment frame h.extrasOffset 16).map fun extras =>
        some { vbucket, uuid := extras.uint64At 0, seqno := extras.uint64At 8 }

end StoreClient
