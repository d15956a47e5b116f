import StoreClient.Request.Operation

/-!
# Paths within documents

A path names a part of a document, which is read (`Lookup`) or written (`Mutation`) without moving
the rest of the document. Requests of both families start their extras with the length of the path
and the flags of the path.
-/

namespace StoreClient

/-- Flags about a path; bits without a name are kept. -/
structure PathFlags where
  /-- The flags as bits. -/
  bits : UInt8 := 0
deriving DecidableEq, Repr

/-- The flag of paths to extended attributes. -/
def PathFlags.xattr : UInt8 := 0x04

/-- Whether the path leads to an extended attribute. -/
def PathFlags.isXattr (f : PathFlags) : Bool := f.bits &&& PathFlags.xattr != 0

/-- Flags about a whole document; bits without a name are kept. -/
structure DocFlags where
  /-- The flags as bits. -/
  bits : UInt8 := 0
deriving DecidableEq, Repr

/-- The bytes of the flags about a document: one, or none if no flag is set. -/
def DocFlags.toBytes (f : DocFlags) : Bytes := if f.bits = 0 then [] else [f.bits]

/-- The greatest length of a path. -/
def maxPathLength : Nat := 65535

/-- The start of the extras: length of the path, flags of the path. -/
def pathExtras (path : Bytes) (flags : PathFlags) : Except Fault Bytes := do
  checkLength "path" path.length maxPathLength
  return Bytes.ofUInt16 (UInt16.ofNat path.length) ++ [flags.bits]

/-! ## Lookups -/

/-- What is asked about a path. -/
inductive Lookup.Verb where
  /-- What is there. -/
  | get
  /-- Whether anything is there. -/
  | exists
  /-- How many elements are there. -/
  | count
deriving DecidableEq, Repr

/-- A question about a path. -/
structure Lookup where
  /-- What is asked. -/
  verb : Lookup.Verb
  /-- The path. -/
  path : String
  /-- Flags about the path. -/
  pathFlags : PathFlags := {}
  /-- Flags about the document. -/
  docFlags : DocFlags := {}
deriving DecidableEq, Repr

namespace Lookup

/-- The command of a question. -/
def opcode (l : Lookup) : Opcode :=
  match l.verb with
  | .get => .subGet
  | .exists => .subExist
  | .count => .subGetCount

/-- The extras of a question. -/
def extras (l : Lookup) : Except Fault Bytes := do
  return (← pathExtras (Utf8.encode l.path) l.pathFlags) ++ l.docFlags.toBytes

/-- The question as an operation; its value is the value of the response as it is. -/
def operation (l : Lookup) : Operation Bytes where
  layout x :=
    { opcode := l.opcode
      key := x.keyBytes
      vbucket := x.vbucket
      extras := l.extras
      path := Utf8.encode l.path }
  parse := valueSegment
  default := []

end Lookup

/-! ## Mutations -/

/-- What is done at a path. -/
inductive Mutation.Verb where
  /-- Inserts the value or replaces what is there. -/
  | upsert
  /-- Inserts the value where nothing is. -/
  | insert
  /-- Replaces what is there. -/
  | replace
  /-- Removes what is there. -/
  | remove
  /-- Appends the value to the array. -/
  | arrayAppend
  /-- Prepends the value to the array. -/
  | arrayPrepend
  /-- Inserts the value into the array at the index that the path ends with. -/
  | arrayInsert
  /-- Adds the value to the array if it is not there. -/
  | arrayAddUnique
  /-- Adds the value to the number. -/
  | counter
deriving DecidableEq, Repr

/-- A change at a path. -/
structure Mutation where
  /-- What is done. -/
  verb : Mutation.Verb
  /-- The path. -/
  path : String
  /-- The value it is done with. -/
  value : Bytes := []
  /-- Flags about the path. -/
  pathFlags : PathFlags := {}
  /-- Flags about the document. -/
  docFlags : DocFlags := {}
  /-- When the document expires; zero is never. -/
  expiry : UInt32 := 0
  /-- Whether the value is a list in brackets whose elements are meant. -/
  removeBrackets : Bool := false
deriving DecidableEq, Repr

/-- The bytes between an opening bracket at the start and a closing one at the end; bytes without
both are left as they are. -/
def stripBrackets (bytes : Bytes) : Bytes :=
  match bytes with
  | 0x5b :: rest => if rest.getLast? = some 0x5d then rest.dropLast else bytes
  | _ => bytes

namespace Mutation

/-- Adds to the number at a path. -/
def addTo (path : String) (delta : Int64) : Mutation :=
  { verb := .counter, path, value := Utf8.encode (toString delta.toInt) }

/-- The command of a change. -/
def opcode (m : Mutation) : Opcode :=
  match m.verb with
  | .upsert => .subDictUpsert
  | .insert => .subDictAdd
  | .replace => .subReplace
  | .remove => .subDelete
  | .arrayAppend => .subArrayPushLast
  | .arrayPrepend => .subArrayPushFirst
  | .arrayInsert => .subArrayInsert
  | .arrayAddUnique => .subArrayAddUnique
  | .counter => .subCounter

/-- The datatype of values that are extended attributes. -/
def xattrDatatype : UInt8 := 0x04

/-- The datatype of a change. -/
def datatype (m : Mutation) : UInt8 := if m.pathFlags.isXattr then xattrDatatype else 0

/-- The bytes of the expiry: four, or none if the document does not expire. -/
def expiryBytes (m : Mutation) : Bytes := if m.expiry = 0 then [] else Bytes.ofUInt32 m.expiry

/-- The extras of a change: after the part about the path, the expiry and the flags of the document,
each only if it is not zero. -/
def extras (m : Mutation) : Except Fault Bytes := do
  return (← pathExtras (Utf8.encode m.path) m.pathFlags) ++ m.expiryBytes ++ m.docFlags.toBytes

/-- The body of a change. -/
def body (m : Mutation) : Bytes := if m.removeBrackets then stripBrackets m.value else m.value

/-- The change as an operation; its value is the value of the response as it is. -/
def operation (m : Mutation) : Operation Bytes where
  layout x :=
    { opcode := m.opcode
      key := x.keyBytes
      vbucket := x.vbucket
      datatype := m.datatype
      extras := m.extras
      path := Utf8.encode m.path
      body := .ok m.body }
  readToken := readMutationToken
  parse := valueSegment
  default := []

end Mutation

end StoreClient
