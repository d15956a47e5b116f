/-!
# Opcodes

The commands of the protocol and the bytes that stand for them.
-/

namespace StoreClient

/-- The commands of the protocol. -/
inductive Opcode where
  /-- Fetches a document. -/
  | get
  /-- Stores a document. -/
  | set
  /-- Stores a document that does not exist. -/
  | add
  /-- Stores a document that exists. -/
  | replace
  /-- Removes a document. -/
  | delete
  /-- Adds to a counter. -/
  | increment
  /-- Subtracts from a counter. -/
  | decrement
  /-- Does nothing. -/
  | noop
  /-- Negotiates features. -/
  | hello
  /-- Observes sequence numbers of a partition. -/
  | observeSeqno
  /-- Observes the state of a key. -/
  | observe
  /-- Reads a path within a document. -/
  | subGet
  /-- Asks whether a path exists. -/
  | subExist
  /-- Inserts at a path that does not exist. -/
  | subDictAdd
  /-- Inserts or replaces at a path. -/
  | subDictUpsert
  /-- Removes a path. -/
  | subDelete
  /-- Replaces at a path that exists. -/
  | subReplace
  /-- Appends to an array. -/
  | subArrayPushLast
  /-- Prepends to an array. -/
  | subArrayPushFirst
  /-- Inserts into an array. -/
  | subArrayInsert
  /-- Adds to an array that lacks the value. -/
  | subArrayAddUnique
  /-- Adds to a number at a path. -/
  | subCounter
  /-- Counts the elements at a path. -/
  | subGetCount
deriving DecidableEq, Repr

namespace Opcode

/-- The byte of a command. -/
def code : Opcode → UInt8
  | .get => 0x00
  | .set => 0x01
  | .add => 0x02
  | .replace => 0x03
  | .delete => 0x04
  | .increment => 0x05
  | .decrement => 0x06
  | .noop => 0x0a
  | .hello => 0x1f
  | .observeSeqno => 0x91
  | .observe => 0x92
  | .subGet => 0xc5
  | .subExist => 0xc6
  | .subDictAdd => 0xc7
  | .subDictUpsert => 0xc8
  | .subDelete => 0xc9
  | .subReplace => 0xca
  | .subArrayPushLast => 0xcb
  | .subArrayPushFirst => 0xcc
  | .subArrayInsert => 0xcd
  | .subArrayAddUnique => 0xce
  | .subCounter => 0xcf
  | .subGetCount => 0xd2

/-- Every command once. -/
def all : List Opcode :=
  [.get, .set, .add, .replace, .delete, .increment, .decrement, .noop, .hello, .observeSeqno,
    .observe, .subGet, .subExist, .subDictAdd, .subDictUpsert, .subDelete, .subReplace,
    .subArrayPushLast, .subArrayPushFirst, .subArrayInsert, .subArrayAddUnique, .subCounter,
    .subGetCount]

/-- The command of a byte. -/
def ofCode? (byte : UInt8) : Option Opcode := all.find? (·.code == byte)

/-- The name of a command. -/
def name : Opcode → String
  | .get => "Get"
  | .set => "Set"
  | .add => "Add"
  | .replace => "Replace"
  | .delete => "Delete"
  | .increment => "Increment"
  | .decrement => "Decrement"
  | .noop => "Noop"
  | .hello => "Hello"
  | .observeSeqno => "ObserveSeqno"
  | .observe => "Observe"
  | .subGet => "SubGet"
  | .subExist => "SubExist"
  | .subDictAdd => "SubDictAdd"
  | .subDictUpsert => "SubDictUpsert"
  | .subDelete => "SubDelete"
  | .subReplace => "SubReplace"
  | .subArrayPushLast => "SubArrayPushLast"
  | .subArrayPushFirst => "SubArrayPushFirst"
  | .subArrayInsert => "SubArrayInsert"
  | .subArrayAddUnique => "SubArrayAddUnique"
  | .subCounter => "SubCounter"
  | .subGetCount => "SubGetCount"

/-- Whether the command reads a path within a document. -/
def isPathLookup (c : Opcode) : Bool := c ∈ [.subGet, .subExist, .subGetCount]

/-- Whether the command writes a path within a document. -/
def isPathMutation (c : Opcode) : Bool :=
  c ∈ [.subDictAdd, .subDictUpsert, .subDelete, .subReplace, .subArrayPushLast,
    .subArrayPushFirst, .subArrayInsert, .subArrayAddUnique, .subCounter]

/-- A command is the command of its byte. -/
@[simp] theorem ofCode?_code (c : Opcode) : ofCode? c.code = some c := by
  cases c <;> decide

end Opcode

end StoreClient
