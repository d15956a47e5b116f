import StoreClient.Bytes.Word

/-!
# UTF-8

A text is encoded character by character. Bytes are decoded by a machine that reads one byte at a
time and is either between two characters or inside one; the first byte of a character fixes how
many bytes follow and which values the next one may take, so that overlong forms, surrogates and
code points above U+10FFFF are refused at the first byte that gives them away.

A refusal says how many bytes before it were well formed, and either the length of the ill-formed
part or that the input ended inside a character.
-/

namespace StoreClient.Utf8

/-- The bytes of a text. -/
def encode (text : String) : Bytes := text.toList.flatMap String.utf8EncodeChar

/-- Why a byte string is not the encoding of a text. -/
structure Flaw where
  /-- The length of the longest well-formed part at the start. -/
  valid : Nat
  /-- The length of the ill-formed part, or none if the input ends inside a character. -/
  invalid : Option Nat
deriving DecidableEq, Repr

/-- The wording of a flaw. -/
def Flaw.message (flaw : Flaw) : String :=
  match flaw.invalid with
  | some length =>
    "invalid utf-8 sequence of " ++ toString length ++ " bytes from index " ++ toString flaw.valid
  | none => "incomplete utf-8 byte sequence from index " ++ toString flaw.valid

/-- A character of which some bytes have been read. -/
structure Pending where
  /-- How many of its bytes have been read. -/
  seen : Nat
  /-- How many bytes are missing after the next one. -/
  missing : Nat
  /-- The bits read so far. -/
  bits : Nat
  /-- The least value of the next byte. -/
  low : UInt8 := 0x80
  /-- The greatest value of the next byte. -/
  high : UInt8 := 0xbf
deriving DecidableEq, Repr

/-- What the first byte of a character says. -/
inductive Lead where
  /-- The byte is a whole character. -/
  | whole (c : Char)
  /-- More bytes follow. -/
  | opens (pending : Pending)
  /-- No character starts with this byte. -/
  | invalid
deriving DecidableEq, Repr

/-- Reads the first byte of a character. -/
def lead (b : UInt8) : Lead :=
  if b < 0x80 then .whole (Char.ofNat b.toNat)
  else if b < 0xc2 then .invalid
  else if b < 0xe0 then .opens { seen := 1, missing := 0, bits := b.toNat - 0xc0 }
  else if b = 0xe0 then .opens { seen := 1, missing := 1, bits := 0, low := 0xa0 }
  else if b = 0xed then .opens { seen := 1, missing := 1, bits := 0xd, high := 0x9f }
  else if b < 0xf0 then .opens { seen := 1, missing := 1, bits := b.toNat - 0xe0 }
  else if b = 0xf0 then .opens { seen := 1, missing := 2, bits := 0, low := 0x90 }
  else if b < 0xf4 then .opens { seen := 1, missing := 2, bits := b.toNat - 0xf0 }
  else if b = 0xf4 then .opens { seen := 1, missing := 2, bits := 4, high := 0x8f }
  else .invalid

/-- Whether a byte may come next inside a character. -/
def Pending.admits (p : Pending) (b : UInt8) : Bool := p.low ≤ b && b ≤ p.high

/-- The bits of a character after one more byte. -/
def Pending.extend (p : Pending) (b : UInt8) : Nat := p.bits * 64 + (b.toNat - 0x80)

/-- Where the decoding machine stands. -/
structure State where
  /-- The characters read, last first. -/
  read : List Char := []
  /-- The number of bytes that these characters took. -/
  valid : Nat := 0
  /-- The character that has been started. -/
  pending : Option Pending := none
deriving DecidableEq, Repr

/-- Reads one byte. -/
def State.next (s : State) (b : UInt8) : Except Flaw State :=
  match s.pending with
  | none =>
    match lead b with
    | .whole c => .ok { read := c :: s.read, valid := s.valid + 1 }
    | .opens p => .ok { s with pending := some p }
    | .invalid => .error ⟨s.valid, some 1⟩
  | some p =>
    if p.admits b then
      match p.missing with
      | 0 => .ok { read := Char.ofNat (p.extend b) :: s.read, valid := s.valid + p.seen + 1 }
      | missing + 1 =>
        .ok { s with pending := some { seen := p.seen + 1, missing, bits := p.extend b } }
    else .error ⟨s.valid, some p.seen⟩

/-- Reads all bytes and accepts if the last one ends a character. -/
def State.run (s : State) : Bytes → Except Flaw (List Char)
  | [] =>
    match s.pending with
    | none => .ok s.read.reverse
    | some _ => .error ⟨s.valid, none⟩
  | b :: bytes =>
    match s.next b with
    | .ok s => s.run bytes
    | .error flaw => .error flaw

/-- The text that a byte string encodes. -/
def decode (bytes : Bytes) : Except Flaw String :=
  (State.run {} bytes).map String.ofList

end StoreClient.Utf8
