import StoreClient.Request.Counter
import StoreClient.Request.Hello
import StoreClient.Request.Observe
import StoreClient.Request.ObserveSeqno
import StoreClient.Request.SubDocument

/-!
# Requests

The six kinds of requests as one type. The type of the values depends on the kind.
-/

namespace StoreClient

/-- A request of one of the six kinds. -/
inductive Request where
  /-- Moves a counter. -/
  | counter (c : Counter)
  /-- Negotiates features. -/
  | hello (h : Hello)
  /-- Observes a key. -/
  | observe
  /-- Observes the sequence numbers of a partition. -/
  | observeSeqno (o : ObserveSeqno)
  /-- Reads a path. -/
  | lookup (l : Lookup)
  /-- Writes a path. -/
  | mutation (m : Mutation)
deriving DecidableEq, Repr

namespace Request

/-- The values of the responses to a request. -/
abbrev Value : Request → Type
  | .counter _ => UInt64
  | .hello _ => List UInt16
  | .observe => KeyReport
  | .observeSeqno _ => PartitionReport
  | .lookup _ => Bytes
  | .mutation _ => Bytes

/-- The request as an operation. -/
def operation : (r : Request) → Operation r.Value
  | .counter c => c.operation
  | .hello h => h.operation
  | .observe => Observe.operation
  | .observeSeqno o => o.operation
  | .lookup l => l.operation
  | .mutation m => m.operation

end Request

end StoreClient
