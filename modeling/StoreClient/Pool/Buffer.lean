/-!
# Shared buffers

Connections take buffers from an allocator and give them back. The allocator keeps a bounded number
of free buffers. It keeps none that has become too small, so whatever it hands out is empty and
large enough.

A buffer is known by its length, by its capacity and by how much of its memory lies unused before
its first byte: dropping bytes at the front moves memory there, and growing may move it back.
-/

namespace StoreClient

/-- A growable buffer. -/
structure Buffer where
  /-- The number of bytes in it. -/
  length : Nat := 0
  /-- The number of bytes it can hold without growing. -/
  capacity : Nat
  /-- The memory before its first byte. -/
  skipped : Nat := 0
deriving DecidableEq, Repr

namespace Buffer

/-- An empty buffer of a capacity. -/
def ofCapacity (capacity : Nat) : Buffer := { capacity }

/-- The least memory that a growing buffer asks for. -/
def minAllocation : Nat := 8

/-- Makes room for `count` more bytes. Memory before the first byte is used if there is enough of it
to move the bytes without overlap; otherwise the memory at least doubles. -/
def reserve (b : Buffer) (count : Nat) : Buffer :=
  if b.length + count ≤ b.capacity then b
  else if b.length ≤ b.skipped ∧ b.length + count ≤ b.capacity + b.skipped then
    { b with capacity := b.capacity + b.skipped, skipped := 0 }
  else
    let total :=
      max (max (2 * (b.capacity + b.skipped)) (b.skipped + b.length + count)) minAllocation
    { b with capacity := total - b.skipped }

/-- Appends `count` bytes. -/
def put (b : Buffer) (count : Nat) : Buffer :=
  { b.reserve count with length := b.length + count }

/-- Drops `count` bytes at the front. -/
def advance (b : Buffer) (count : Nat) : Buffer :=
  { length := b.length - count
    capacity := b.capacity - count
    skipped := b.skipped + count }

/-- Drops all bytes; the capacity stays. -/
def clear (b : Buffer) : Buffer := { b with length := 0 }

end Buffer

/-- A bounded store of free buffers. -/
structure BufferAllocator where
  /-- The capacity that every buffer handed out has at least. -/
  bufferSize : Nat
  /-- How many free buffers are kept. -/
  maxFree : Nat
  /-- The free buffers, the one that was given back last first. -/
  free : List Buffer := []
deriving DecidableEq, Repr

namespace BufferAllocator

/-- Takes a free buffer, or a new one if there is none. -/
def acquire (a : BufferAllocator) : Buffer × BufferAllocator :=
  match a.free with
  | [] => (.ofCapacity a.bufferSize, a)
  | b :: free => (b, { a with free })

/-- Gives a buffer back. It is emptied and kept if it is large enough and there is room. -/
def release (a : BufferAllocator) (b : Buffer) : BufferAllocator :=
  if b.capacity < a.bufferSize then a
  else if a.free.length < a.maxFree then { a with free := b.clear :: a.free }
  else a

/-- The number of free buffers. -/
def available (a : BufferAllocator) : Nat := a.free.length

/-- Takes `count` buffers one after the other. -/
def acquireMany (a : BufferAllocator) : (count : Nat) → List Buffer × BufferAllocator
  | 0 => ([], a)
  | count + 1 =>
    let (b, a) := a.acquire
    let (rest, a) := a.acquireMany count
    (b :: rest, a)

end BufferAllocator

end StoreClient
