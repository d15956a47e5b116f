import StoreClient.Request.Operation
import StoreClient.Wire.Field

/-!
# Observing a key

A server is asked how far the last write of a key has come. The key travels in the body of the
request, together with its partition. The header of the response carries two averages in place of
the compare-and-swap value.
-/

namespace StoreClient

/-- How far a write has come on the observed server. -/
inductive KeyState where
  /-- In memory only. -/
  | foundNotPersisted
  /-- On disk. -/
  | foundPersisted
  /-- Not there. -/
  | notFound
  /-- Deleted, and not yet removed. -/
  | logicalDeleted
  /-- A state without a name. -/
  | unknown (code : UInt8)
deriving DecidableEq, Repr

namespace KeyState

/-- The states that have a code of their own, with the code. -/
def table : List (UInt8 × KeyState) :=
  [(0x00, .foundNotPersisted), (0x01, .foundPersisted), (0x80, .notFound), (0x81, .logicalDeleted)]

/-- The state of a code. -/
def ofCode (code : UInt8) : KeyState := (table.lookup code).getD (.unknown code)

/-- The name of a state. -/
def name : KeyState → String
  | .foundNotPersisted => "FoundNotPersisted"
  | .foundPersisted => "FoundPersisted"
  | .notFound => "NotFound"
  | .logicalDeleted => "LogicalDeleted"
  | .unknown code => "Unknown(" ++ toString code.toNat ++ ")"

end KeyState

/-- What a server says about a key. -/
structure KeyReport where
  /-- The average time that a write takes to the disk. -/
  persistStat : UInt32 := 0
  /-- The average time that a write takes to the replicas. -/
  replStat : UInt32 := 0
  /-- The partition. -/
  vbucket : UInt16 := 0
  /-- The key. -/
  key : String := ""
  /-- How far its last write has come. -/
  state : KeyState := .foundNotPersisted
  /-- Its compare-and-swap value. -/
  cas : UInt64 := 0
deriving DecidableEq, Repr

namespace Observe

/-- A new exchange about a key in a partition. -/
def exchange (key : String) (vbucket : UInt16) : Exchange :=
  { key := some key, vbucket := some vbucket }

/-- The body of a request: partition, length of the key, key. -/
def body (x : Exchange) : Except Fault Bytes :=
  if x.keyBytes.isEmpty then .error (.missingKey Opcode.observe.code)
  else
    match x.vbucket with
    | none => .error (.missingVBucket Opcode.observe.code)
    | some vbucket => do
      checkLength "key" x.keyBytes.length maxKeyLength
      return Bytes.ofUInt16 vbucket ++ Bytes.ofUInt16 (UInt16.ofNat x.keyBytes.length) ++ x.keyBytes

/-- The report in a response. Its fields follow one another from the start of the value on; the two
averages are halves of the last header field. -/
def parse (frame : Bytes) (h : Header) : Except Fault KeyReport := do
  let persist ← segment frame 16 4
  let repl ← segment frame 20 4
  let start := h.bodyOffset
  let vbucket ← segment frame start 2
  let keyLength ← segment frame (start + 2) 2
  let length := (keyLength.uint16At 0).toNat
  let key ← readText (← segment frame (start + 4) length)
  let state ← segment frame (start + 4 + length) 1
  let cas ← segment frame (start + 5 + length) 8
  return {
    persistStat := persist.uint32At 0
    replStat := repl.uint32At 0
    vbucket := vbucket.uint16At 0
    key
    state := KeyState.ofCode (state.getD 0 0)
    cas := cas.uint64At 0 }

/-- The observation as an operation. -/
def operation : Operation KeyReport where
  layout x := { opcode := .observe, requiresKey := false, body := body x }
  parse := parse
  default := {}

end Observe

end StoreClient
