/-!
# Response statuses

How an exchange stands: what the server answered, or that its answer could not be decoded.
-/

namespace StoreClient

/-- How an exchange stands. -/
inductive Status where
  /-- The request succeeded. -/
  | success
  /-- The key does not exist. -/
  | keyNotFound
  /-- The key exists, or its compare-and-swap value differs. -/
  | keyExists
  /-- The value is larger than the server accepts. -/
  | valueTooLarge
  /-- The arguments are invalid. -/
  | invalidArguments
  /-- The document was not stored. -/
  | itemNotStored
  /-- The value is not a number. -/
  | nonNumeric
  /-- Another server owns the partition. -/
  | foreignVBucket
  /-- The client is not authenticated. -/
  | authenticationError
  /-- The server does not know the command. -/
  | unknownCommand
  /-- The server is out of memory. -/
  | outOfMemory
  /-- The server does not support the command. -/
  | notSupported
  /-- The server failed. -/
  | internalError
  /-- The server is busy. -/
  | busy
  /-- The request may succeed later. -/
  | temporaryFailure
  /-- The path does not exist. -/
  | pathNotFound
  /-- The path conflicts with the structure of the document. -/
  | pathMismatch
  /-- The path exists. -/
  | pathExists
  /-- Any other answer of the server. -/
  | other (code : UInt16)
  /-- The answer could not be decoded. -/
  | clientFailure
deriving DecidableEq, Repr, Inhabited

namespace Status

/-- The statuses that have a code of their own, with the code. -/
def table : List (UInt16 × Status) :=
  [(0x00, .success), (0x01, .keyNotFound), (0x02, .keyExists), (0x03, .valueTooLarge),
    (0x04, .invalidArguments), (0x05, .itemNotStored), (0x06, .nonNumeric), (0x07, .foreignVBucket),
    (0x20, .authenticationError), (0x81, .unknownCommand), (0x82, .outOfMemory),
    (0x83, .notSupported), (0x84, .internalError), (0x85, .busy), (0x86, .temporaryFailure),
    (0xc0, .pathNotFound), (0xc1, .pathMismatch), (0xc9, .pathExists)]

/-- The status that a code on the wire stands for. -/
def ofCode (code : UInt16) : Status := (table.lookup code).getD (.other code)

/-- Whether the request succeeded. -/
def isSuccess (s : Status) : Bool := s == .success

/-- The name of a status. -/
def name : Status → String
  | .success => "Success"
  | .keyNotFound => "KeyNotFound"
  | .keyExists => "KeyExists"
  | .valueTooLarge => "ValueTooLarge"
  | .invalidArguments => "InvalidArguments"
  | .itemNotStored => "ItemNotStored"
  | .nonNumeric => "IncrDecrOnNonNumeric"
  | .foreignVBucket => "VBucketBelongsToAnotherServer"
  | .authenticationError => "AuthenticationError"
  | .unknownCommand => "UnknownCommand"
  | .outOfMemory => "OutOfMemory"
  | .notSupported => "NotSupported"
  | .internalError => "InternalError"
  | .busy => "Busy"
  | .temporaryFailure => "TemporaryFailure"
  | .pathNotFound => "SubDocPathNotFound"
  | .pathMismatch => "SubDocPathMismatch"
  | .pathExists => "SubDocPathExists"
  | .other code => "Other(" ++ toString code.toNat ++ ")"
  | .clientFailure => "ClientFailure"

end Status

end StoreClient
