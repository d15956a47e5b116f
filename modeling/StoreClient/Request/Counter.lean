import StoreClient.Request.Operation
import StoreClient.Wire.Field

/-!
# Counters

A counter is a document that holds a number. It is incremented or decremented in place, and created
with an initial value if it does not exist. The response carries the new number.
-/

namespace StoreClient

/-- The direction in which a counter is moved. -/
inductive Counter.Direction where
  | increment
  | decrement
deriving DecidableEq, Repr

/-- A change of a counter. -/
structure Counter where
  /-- The direction of the change. -/
  direction : Counter.Direction
  /-- The amount of the change. -/
  delta : UInt64 := 1
  /-- The number that is stored if the document does not exist. -/
  initial : UInt64 := 1
  /-- When the document expires; zero is never. -/
  expiry : UInt32 := 0
deriving DecidableEq, Repr

namespace Counter

/-- The command of a change. -/
def opcode (c : Counter) : Opcode :=
  match c.direction with
  | .increment => .increment
  | .decrement => .decrement

/-- The extras of a change. -/
def extras (c : Counter) : Bytes :=
  Bytes.ofUInt64 c.delta ++ Bytes.ofUInt64 c.initial ++ Bytes.ofUInt32 c.expiry

/-- The number in the value of a response. -/
def parse (frame : Bytes) (h : Header) : Except Fault UInt64 := do
  FieldType.read .uint64 .network (← valueSegment frame h)

/-- The change as an operation. It is never sent again without asking: the first attempt may have
been applied. -/
def operation (c : Counter) : Operation UInt64 where
  layout x :=
    { opcode := c.opcode, key := x.keyBytes, vbucket := x.vbucket, extras := .ok c.extras }
  readToken := readMutationToken
  resendable := false
  parse := parse
  default := 0

end Counter

end StoreClient
