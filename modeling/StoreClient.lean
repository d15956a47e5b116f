import StoreClient.Bytes.Bit
import StoreClient.Bytes.Word
import StoreClient.Frame.Basic
import StoreClient.Frame.Error
import StoreClient.Frame.Link
import StoreClient.Frame.RoundTrip
import StoreClient.Frame.Stream
import StoreClient.Frame.Transport
import StoreClient.Log
import StoreClient.Pool.Buffer
import StoreClient.Pool.Checkout
import StoreClient.Pool.Config
import StoreClient.Pool.Connection
import StoreClient.Pool.Endpoint
import StoreClient.Pool.Error
import StoreClient.Pool.Options
import StoreClient.Pool.Session
import StoreClient.Pool.Signal
import StoreClient.Pool.State
import StoreClient.Pool.Status
import StoreClient.Proofs.Bytes.Word
import StoreClient.Proofs.Frame.Reassembly
import StoreClient.Proofs.Pool.Callers
import StoreClient.Proofs.Pool.Custody
import StoreClient.Proofs.Pool.Ownership
import StoreClient.Proofs.Pool.Parts
import StoreClient.Proofs.Pool.Tasks
import StoreClient.Proofs.Pool.Waiting
import StoreClient.Proofs.Pool.Wakeups
import StoreClient.Proofs.Request.Layout
import StoreClient.Proofs.Request.Retry
import StoreClient.Proofs.Wire.Header
import StoreClient.Request.Basic
import StoreClient.Request.Counter
import StoreClient.Request.Exchange
import StoreClient.Request.Hello
import StoreClient.Request.Layout
import StoreClient.Request.Observe
import StoreClient.Request.ObserveSeqno
import StoreClient.Request.Operation
import StoreClient.Request.Plain
import StoreClient.Request.SubDocument
import StoreClient.Text.Blank
import StoreClient.Text.CaseTable
import StoreClient.Text.Hex
import StoreClient.Text.Lowercase
import StoreClient.Text.Numeral
import StoreClient.Text.Quoted
import StoreClient.Text.Split
import StoreClient.Text.Utf8
import StoreClient.Time.Instant
import StoreClient.Wire.Fault
import StoreClient.Wire.Field
import StoreClient.Wire.Header
import StoreClient.Wire.Opcode
import StoreClient.Wire.Status
import StoreClient.Proofs.Request.ReadBack
import StoreClient.Proofs.Frame.Conservation
import StoreClient.Proofs.Frame.Dialogue
import StoreClient.Proofs.Request.Access
import StoreClient.Proofs.Request.Outcome
import StoreClient.Proofs.Text.Utf8
import StoreClient.Proofs.Request.Content
import StoreClient.Proofs.Request.Fault
import StoreClient.Proofs.Request.Truncation
import StoreClient.Proofs.Frame.Outgoing
import StoreClient.Proofs.Frame.Interruption
import StoreClient.Proofs.Pool.Uses
import StoreClient.Proofs.Pool.Accounting
import StoreClient.Proofs.Pool.Disposal
import StoreClient.Proofs.Pool.Draining
import StoreClient.Proofs.Frame.Moments
import StoreClient.Proofs.Pool.Events
import StoreClient.Proofs.Pool.Journal
import StoreClient.Proofs.Pool.Failures
import StoreClient.Proofs.Pool.Retries
import StoreClient.Proofs.Pool.Handover
import StoreClient.Proofs.Pool.Intact
import StoreClient.Proofs.Pool.Closing
import StoreClient.Proofs.Pool.Runs
import StoreClient.Proofs.Pool.Queue
import StoreClient.Proofs.Pool.Spares
import StoreClient.Proofs.Pool.Turns
import StoreClient.Proofs.Pool.Counts
import StoreClient.Proofs.Pool.Checkouts
import StoreClient.Proofs.Pool.Exhaustion
import StoreClient.Proofs.Pool.Agreement
import StoreClient.Proofs.Pool.Attempts
import StoreClient.Proofs.Text.Decoding
import StoreClient.Proofs.Request.Negotiation
import StoreClient.Proofs.Request.Report
import StoreClient.Proofs.Pool.Opening
import StoreClient.Proofs.Pool.Forgotten
import StoreClient.Proofs.Pool.Omission
import StoreClient.Proofs.Pool.Abandoned
import StoreClient.Proofs.Wire.Field
import StoreClient.Proofs.Pool.Returns
import StoreClient.Proofs.Text.Json
import StoreClient.Proofs.Request.Identity
import StoreClient.Proofs.Text.Pieces
import StoreClient.Proofs.Pool.Assignments
import StoreClient.Proofs.Request.Direction
import StoreClient.Proofs.Text.WellFormed
import StoreClient.Proofs.Wire.Text
import StoreClient.Proofs.Time.Instant
import StoreClient.Proofs.Wire.Instant
import StoreClient.Proofs.Pool.Buffer
