import StoreClient.Bytes.Word

/-!
# Transports

A transport is known by what it will do: the outcomes of the reads and of the writes to come, in
order. When the outcomes of reads are used up, the stream has ended; when those of writes are used
up, every write takes all bytes. What a transport has taken so far is kept.
-/

namespace StoreClient

/-- What one read of a transport gives. -/
inductive ReadAct where
  /-- These bytes; no byte is the end of the stream. -/
  | data (bytes : Bytes)
  /-- Nothing yet. -/
  | notReady
  /-- The transport fails. -/
  | failure (text : String)
deriving DecidableEq, Repr

/-- What one write to a transport does. -/
inductive WriteAct where
  /-- Takes at most this many bytes. -/
  | accept (limit : Nat)
  /-- Takes nothing yet. -/
  | notReady
  /-- The transport fails. -/
  | failure (text : String)
deriving DecidableEq, Repr

/-- A transport. -/
structure Transport where
  /-- The outcomes of the reads to come. -/
  reads : List ReadAct := []
  /-- The outcomes of the writes to come. -/
  writes : List WriteAct := []
  /-- The bytes taken so far. -/
  written : Bytes := []
  /-- Whether the transport was shut down. -/
  shutdown : Bool := false
deriving DecidableEq, Repr

/-- The outcome of a call that may have to wait. -/
inductive Poll (α : Type) where
  /-- It has to wait. -/
  | pending
  /-- It is done. -/
  | ready (value : α)
deriving DecidableEq, Repr

end StoreClient
