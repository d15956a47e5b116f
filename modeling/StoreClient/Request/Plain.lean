import StoreClient.Request.Operation

/-!
# Plain requests

A plain request has its command and its segments given outright; only key and partition come from
the exchange. What its responses mean is up to whoever makes it.
-/

namespace StoreClient

/-- A request whose segments are given outright. -/
structure Plain where
  /-- The command. -/
  opcode : Opcode := .get
  /-- The extras. -/
  extras : Bytes := []
  /-- The path. -/
  path : Bytes := []
  /-- The body. -/
  body : Bytes := []
deriving DecidableEq, Repr

/-- The request as an operation with the given reading of responses. -/
def Plain.operation {α : Type} (p : Plain) (parse : Bytes → Header → Except Fault α) (default : α) :
    Operation α where
  layout x :=
    { opcode := p.opcode
      key := x.keyBytes
      vbucket := x.vbucket
      extras := .ok p.extras
      path := p.path
      body := .ok p.body }
  parse
  default

end StoreClient
