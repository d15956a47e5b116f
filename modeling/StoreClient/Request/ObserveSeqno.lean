import StoreClient.Request.Operation

/-!
# Observing sequence numbers

A server is asked how far the writes of a partition have come, along the branch of its history that
a mutation token names. If the history has been cut since, the response is longer and tells where.
-/

namespace StoreClient

/-- How far the writes of a partition have come. -/
structure PartitionReport where
  /-- Whether the history was cut after the branch that was asked about. -/
  isHardFailover : Bool := false
  /-- The partition. -/
  vbucket : UInt16 := 0
  /-- The current branch of its history. -/
  uuid : UInt64 := 0
  /-- The last write on disk. -/
  lastPersistedSeqno : UInt64 := 0
  /-- The last write in memory. -/
  currentSeqno : UInt64 := 0
  /-- The branch before the cut. -/
  oldUuid : UInt64 := 0
  /-- The last write of the branch before the cut. -/
  lastSeqnoReceived : UInt64 := 0
deriving DecidableEq, Repr

/-- A question about the writes of a partition. -/
structure ObserveSeqno where
  /-- The token of the write that is asked about. -/
  token : MutationToken
deriving DecidableEq, Repr

namespace ObserveSeqno

/-- The length of a response that tells of a cut. -/
def hardFailoverLength : Nat := 43

/-- The length of any other response. -/
def noFailoverLength : Nat := 27

/-- A new exchange about a token. -/
def exchange (o : ObserveSeqno) : Exchange :=
  { vbucket := some o.token.vbucket, token := some o.token }

/-- The report in a response. -/
def parse (frame : Bytes) (h : Header) : Except Fault PartitionReport := do
  let value ← valueSegment frame h
  let isHardFailover := value.head? == some 1
  let expected := if isHardFailover then hardFailoverLength else noFailoverLength
  if value.length < expected then .error (.incompleteFrame expected value.length)
  else
    return {
      isHardFailover
      vbucket := value.uint16At 1
      uuid := value.uint64At 3
      lastPersistedSeqno := value.uint64At 11
      currentSeqno := value.uint64At 19
      oldUuid := if isHardFailover then value.uint64At 27 else 0
      lastSeqnoReceived := if isHardFailover then value.uint64At 35 else 0 }

/-- The question as an operation. -/
def operation (o : ObserveSeqno) : Operation PartitionReport where
  layout _ :=
    { opcode := .observeSeqno
      requiresKey := false
      vbucket := some o.token.vbucket
      body := .ok (Bytes.ofUInt64 o.token.uuid) }
  parse := parse
  default := {}

end ObserveSeqno

end StoreClient
