import StoreClient.Text.Hex
import StoreClient.Text.Numeral
import StoreClient.Text.Split

/-!
# Endpoints

An endpoint is an address of the internet protocol, version 4 or 6, and a port. Its written form is
the canonical one: octets in decimal; groups in lower-case hexadecimal without leading zeros, the
first of the longest runs of at least two zero groups left out; an address that carries one of
version 4 ends in its octets.
-/

namespace StoreClient

/-- An address of the internet protocol. -/
inductive Host where
  /-- Four octets. -/
  | v4 (octets : List Nat)
  /-- Eight groups of 16 bits, and the zone in which they count. -/
  | v6 (groups : List Nat) (zone : Nat)
deriving DecidableEq, Repr

/-- The address of a server. -/
structure Endpoint where
  /-- The host. -/
  host : Host
  /-- The port. -/
  port : Nat
deriving DecidableEq, Repr

namespace Host

/-! ## Writing -/

/-- The written form of octets. -/
def octetsText (octets : List Nat) : String := ".".intercalate (octets.map toString)

/-- The written form of groups, without leaving any out. -/
def groupsText (groups : List Nat) : String := ":".intercalate (groups.map Hex.digits)

/-- The length of the run of zeros at a place. -/
def zerosAt (groups : List Nat) (place : Nat) : Nat :=
  ((groups.drop place).takeWhile (· == 0)).length

/-- Where the first of the longest runs of zeros starts. -/
def longestRun (groups : List Nat) : Nat :=
  (List.range groups.length).foldl
    (fun best place => if zerosAt groups best < zerosAt groups place then place else best) 0

/-- The written form of an address of version 6. -/
def groupsShort (groups : List Nat) : String :=
  match groups with
  | [0, 0, 0, 0, 0, 0xffff, a, b] =>
    "::ffff:" ++ octetsText [a / 256, a % 256, b / 256, b % 256]
  | _ =>
    let start := longestRun groups
    let length := zerosAt groups start
    if 1 < length then
      groupsText (groups.take start) ++ "::" ++ groupsText (groups.drop (start + length))
    else groupsText groups

/-- The written form of a host, in brackets if it contains colons. -/
def text : Host → String
  | .v4 octets => octetsText octets
  | .v6 groups zone =>
    "[" ++ groupsShort groups ++ (if zone = 0 then "" else "%" ++ toString zone) ++ "]"

/-! ## Reading -/

/-- Reads an octet: a number below 256 without leading zeros. -/
def octet? (text : List Char) : Option Nat :=
  match text with
  | '0' :: _ :: _ => none
  | '+' :: _ => none
  | _ => Numeral.read? 256 text

/-- Reads four octets. -/
def octets? (text : List Char) : Option (List Nat) :=
  match (Text.splitOn '.' text).mapM octet? with
  | some [a, b, c, d] => some [a, b, c, d]
  | _ => none

/-- Reads a group: one to four hexadecimal digits. -/
def group? (text : List Char) : Option Nat :=
  if text.isEmpty || 4 < text.length then none
  else
    text.foldl
      (fun value c =>
        match value with
        | none => none
        | some n =>
          if '0' ≤ c ∧ c ≤ '9' then some (n * 16 + (c.toNat - 48))
          else if 'a' ≤ c ∧ c ≤ 'f' then some (n * 16 + (c.toNat - 87))
          else if 'A' ≤ c ∧ c ≤ 'F' then some (n * 16 + (c.toNat - 55))
          else none)
      (some 0)

/-- The groups that parts between colons stand for; the last part may be four octets. -/
def groupsOfParts? : List (List Char) → Option (List Nat)
  | [] => some []
  | [part] =>
    match group? part, octets? part with
    | some g, _ => some [g]
    | none, some [a, b, c, d] => some [a * 256 + b, c * 256 + d]
    | none, _ => none
  | part :: rest =>
    match group? part, groupsOfParts? rest with
    | some g, some groups => some (g :: groups)
    | _, _ => none

/-- The groups that a text without an omission stands for. -/
def groups? (text : List Char) : Option (List Nat) :=
  if text.isEmpty then some [] else groupsOfParts? (Text.splitOn ':' text)

/-- Cuts a text at its first pair of colons. -/
def cutOmission : List Char → Option (List Char × List Char)
  | ':' :: ':' :: rest => some ([], rest)
  | c :: rest => (cutOmission rest).map fun (front, back) => (c :: front, back)
  | [] => none

/-- Reads the groups of an address of version 6, filling an omission with zeros. -/
def v6Groups? (text : List Char) : Option (List Nat) :=
  match cutOmission text with
  | none => (groups? text).filter (·.length = 8)
  | some (front, back) =>
    match groups? front, groups? back with
    | some front, some back =>
      if front.length + back.length < 8 then
        some (front ++ List.replicate (8 - (front.length + back.length)) 0 ++ back)
      else none
    | _, _ => none

/-- Reads an address of version 6 with its zone. -/
def v6? (text : List Char) : Option Host :=
  match Text.splitOn '%' text with
  | [groups] => (v6Groups? groups).map (.v6 · 0)
  | [groups, zone] =>
    match v6Groups? groups, Numeral.read? 0x100000000 zone with
    | some groups, some zone => some (.v6 groups zone)
    | _, _ => none
  | _ => none

end Host

namespace Endpoint

/-- The written form of an endpoint. -/
def text (e : Endpoint) : String := e.host.text ++ ":" ++ toString e.port

/-- Reads an endpoint. -/
def parse? (text : String) : Option Endpoint :=
  match text.toList with
  | '[' :: rest =>
    match Text.splitOn ']' rest with
    | [host, ':' :: port] =>
      match Host.v6? host, Numeral.read? 65536 port with
      | some host, some port => some { host, port }
      | _, _ => none
    | _ => none
  | text =>
    match Text.splitOn ':' text with
    | [host, port] =>
      match Host.octets? host, Numeral.read? 65536 port with
      | some octets, some port => some { host := .v4 octets, port }
      | _, _ => none
    | _ => none

end Endpoint

end StoreClient
