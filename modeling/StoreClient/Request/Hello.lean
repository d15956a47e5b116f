import StoreClient.Request.Operation
import StoreClient.Text.Quoted

/-!
# Negotiation of features

On a new connection the client says who it is and which features it wants; the server answers with
those it grants. Both lists are codes of two bytes each.
-/

namespace StoreClient

/-- The features that a client may ask for. -/
inductive Feature where
  /-- The datatype in headers is honoured. -/
  | datatype
  /-- The transport is encrypted. -/
  | tls
  /-- The server sends small packets at once. -/
  | tcpNoDelay
  /-- Writes return mutation tokens. -/
  | mutationSeqno
  /-- The server gathers small packets. -/
  | tcpDelay
  /-- Documents have extended attributes. -/
  | xattr
  /-- The server sends its table of errors. -/
  | xerror
  /-- A bucket is selected after authentication. -/
  | selectBucket
  /-- Values may be compressed. -/
  | snappy
  /-- Values may be marked as JSON. -/
  | json
  /-- The server may send requests. -/
  | duplex
  /-- The server announces changes of the cluster. -/
  | clustermapChangeNotification
  /-- Responses may come out of order. -/
  | unorderedExecution
  /-- Responses tell how long the server took. -/
  | tracing
deriving DecidableEq, Repr

namespace Feature

/-- The code of a feature. -/
def code : Feature → UInt16
  | .datatype => 0x01
  | .tls => 0x02
  | .tcpNoDelay => 0x03
  | .mutationSeqno => 0x04
  | .tcpDelay => 0x05
  | .xattr => 0x06
  | .xerror => 0x07
  | .selectBucket => 0x08
  | .snappy => 0x0a
  | .json => 0x0b
  | .duplex => 0x0c
  | .clustermapChangeNotification => 0x0d
  | .unorderedExecution => 0x0e
  | .tracing => 0x0f

/-- Every feature once. -/
def all : List Feature :=
  [.datatype, .tls, .tcpNoDelay, .mutationSeqno, .tcpDelay, .xattr, .xerror, .selectBucket, .snappy,
    .json, .duplex, .clustermapChangeNotification, .unorderedExecution, .tracing]

/-- The feature of a code. -/
def ofCode? (code : UInt16) : Option Feature := all.find? (·.code == code)

/-- The name of a feature. -/
def name : Feature → String
  | .datatype => "Datatype"
  | .tls => "Tls"
  | .tcpNoDelay => "TcpNoDelay"
  | .mutationSeqno => "MutationSeqno"
  | .tcpDelay => "TcpDelay"
  | .xattr => "Xattr"
  | .xerror => "XError"
  | .selectBucket => "SelectBucket"
  | .snappy => "Snappy"
  | .json => "Json"
  | .duplex => "Duplex"
  | .clustermapChangeNotification => "ClustermapChangeNotification"
  | .unorderedExecution => "UnorderedExecution"
  | .tracing => "Tracing"

/-- The feature of a name. -/
def ofName? (name : String) : Option Feature := all.find? (·.name == name)

/-- A feature is the feature of its code. -/
@[simp] theorem ofCode?_code (f : Feature) : ofCode? f.code = some f := by
  cases f <;> decide

end Feature

/-- A wish for features, by their codes. -/
structure Hello where
  /-- The codes of the features. -/
  features : List UInt16
deriving DecidableEq, Repr

namespace Hello

/-- A wish for known features. -/
def ofFeatures (features : List Feature) : Hello := ⟨features.map Feature.code⟩

/-- The greatest number of characters of an agent's name in a key. -/
def maxAgentLength : Nat := 200

/-- The key by which a client presents itself: a JSON object of the agent's name, cut to its
greatest length, and the connection id in 16 hexadecimal digits. -/
def key (connectionId : UInt64) (agent : String) : String :=
  String.ofList
    ("\x7b\"a\":".toList ++ Quoted.encode (agent.toList.take maxAgentLength) ++ ",\"i\":".toList
      ++ Quoted.encode (Hex.fixed 16 connectionId.toNat) ++ ['}'])

/-- The codes on the wire. -/
def body (h : Hello) : Bytes := h.features.flatMap Bytes.ofUInt16

/-- The codes that a value is made of; an odd byte at the end is ignored. -/
def codes : Bytes → List UInt16
  | first :: second :: rest => Bytes.uint16At [first, second] 0 :: codes rest
  | _ => []

/-- The part of a value that a frame has, however short the frame is. -/
def available (frame : Bytes) (h : Header) : Bytes :=
  frame.slice h.bodyOffset h.valueLength

/-- The codes in the value of a response. -/
def parse (frame : Bytes) (h : Header) : Except Fault (List UInt16) :=
  .ok (codes (available frame h))

/-- The negotiation as an operation. -/
def operation (h : Hello) : Operation (List UInt16) where
  layout x := { opcode := .hello, key := x.keyBytes, vbucket := x.vbucket, body := .ok h.body }
  parse := parse
  default := []

end Hello

end StoreClient
