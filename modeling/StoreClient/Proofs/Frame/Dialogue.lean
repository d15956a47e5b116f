import StoreClient.Frame.RoundTrip
import StoreClient.Proofs.Frame.Conservation
import StoreClient.Request.Basic

/-!
# Round trips one after the other

A client sends its requests over one stream, each after the response to the one before. The
transport takes the requests in parts, and gives the responses in pieces that have nothing to do
with the responses: a piece may end one response and start the next, or hold all of them. What one
round trip has received too much, the next one finds in the read buffer. The invariant of a stream
between two round trips says that the read buffer and the pieces to come are together the responses
to come.
-/

namespace StoreClient

namespace Framing

variable {f : Framing} {buffer rest : Bytes} {frame : Frame}

/-- The start of a buffer from which a frame can be cut off gives the same frame, or none yet. -/
theorem decode?_of_append {more : Bytes}
    (h : f.decode? (buffer ++ more) = .ok (some (frame, rest))) :
    f.decode? buffer = .ok none ∨
      ∃ left, f.decode? buffer = .ok (some (frame, left)) ∧ left ++ more = rest := by
  cases hStart : f.decode? buffer with
  | error e =>
    cases (decode?_append_of_error more hStart).symm.trans h
  | ok found =>
    cases found with
    | none => exact Or.inl rfl
    | some found =>
      obtain ⟨first, left⟩ := found
      cases (decode?_append_of_some more hStart).symm.trans h
      exact Or.inr ⟨left, rfl, rfl⟩

end Framing

namespace FrameStream

variable {f : Framing} {s : FrameStream}

/-! ## Sending -/

/-- Whether every write takes at least one byte. -/
def Accepting (acts : List WriteAct) : Prop := ∀ act ∈ acts, ∃ n, 0 < n ∧ act = .accept n

/-- A transport that takes part of the bytes at each write has taken all of them in the end. -/
theorem writeTo_of_accepting {acts : List WriteAct} (h : Accepting acts) (s : FrameStream) :
    ∃ later, Accepting later ∧
      s.writeTo acts =
        ({ s with
            transport :=
              { s.transport with
                writes := later
                written := s.transport.written ++ s.writeBuffer }
            writeBuffer := [] }, .ready (.ok ())) := by
  induction acts generalizing s with
  | nil => exact ⟨[], h, rfl⟩
  | cons act acts ih =>
    unfold writeTo
    by_cases hEmpty : s.writeBuffer.isEmpty = true
    · refine ⟨act :: acts, h, ?_⟩
      rw [if_pos hEmpty, List.isEmpty_iff.1 hEmpty, List.append_nil]
    · rw [if_neg hEmpty]
      have hLater : Accepting acts := fun act' hMem => h act' (List.mem_cons_of_mem _ hMem)
      obtain ⟨n, hPos, rfl⟩ := h act List.mem_cons_self
      obtain ⟨limit, rfl⟩ := Nat.exists_eq_succ_of_ne_zero (Nat.pos_iff_ne_zero.1 hPos)
      obtain ⟨later, hAccepting, hWritten⟩ := ih hLater
        { s with
          transport :=
            { s.transport with
              written := s.transport.written ++ s.writeBuffer.take (limit + 1) }
          writeBuffer := s.writeBuffer.drop (limit + 1) }
      refine ⟨later, hAccepting, hWritten.trans ?_⟩
      simp only [List.append_assoc, List.take_append_drop]

/-- A frame within the limit is taken by the transport as a whole. -/
theorem send_of_accepting {request : Bytes} (hBuffer : s.writeBuffer = [])
    (hWrites : Accepting s.transport.writes) (hLimit : request.length ≤ s.framing.maxFrameSize) :
    ∃ later, Accepting later ∧
      s.send request =
        ({ s with
            transport :=
              { s.transport with writes := later, written := s.transport.written ++ request }
            writeBuffer := []
            log := s.log ++ [Frame.encoding request] }, .ready (.ok ())) := by
  have hFeed : s.feed request =
      ({ s with writeBuffer := request, log := s.log ++ [Frame.encoding request] },
        .ready (.ok ())) := by
    unfold feed
    rw [hBuffer, List.length_nil, if_pos (by decide)]
    simp only [Framing.encode_of_le hLimit, hBuffer, List.nil_append]
  obtain ⟨later, hLater, hFlush⟩ := writeTo_of_accepting hWrites
    { s with writeBuffer := request, log := s.log ++ [Frame.encoding request] }
  refine ⟨later, hLater, ?_⟩
  unfold send
  rw [hFeed]
  exact hFlush

/-! ## Receiving -/

/-- The stream after it has received a frame: some bytes are left, and some pieces are to come. -/
def received (s : FrameStream) (frame : Frame) (left : Bytes) (pieces : List Bytes) : FrameStream :=
  { s with
    transport := { s.transport with reads := pieces.map .data }
    readBuffer := left
    ended := false
    readable := true
    log := s.log ++ [frame.decoded] }

variable {response more : Bytes} {frame : Frame}

/-- Pieces are read until the frame is whole. -/
theorem readFrom_pieces {pieces : List Bytes} (hPieces : ∀ piece ∈ pieces, piece ≠ [])
    (hNone : s.framing.decode? s.readBuffer = .ok none)
    (hFrame : s.framing.decode? (s.readBuffer ++ pieces.flatten) = .ok (some (frame, more))) :
    ∃ left later, (∀ piece ∈ later, piece ≠ []) ∧ left ++ later.flatten = more ∧
      s.readFrom (pieces.map .data) =
        (s.received frame left later, .ready (some (.ok frame))) := by
  induction pieces generalizing s with
  | nil =>
    rw [List.flatten_nil, List.append_nil] at hFrame
    cases hNone.symm.trans hFrame
  | cons piece pieces ih =>
    have hLater : ∀ piece' ∈ pieces, piece' ≠ [] :=
      fun piece' hMem => hPieces piece' (List.mem_cons_of_mem _ hMem)
    obtain ⟨b, bytes, rfl⟩ := List.exists_cons_of_ne_nil (hPieces piece List.mem_cons_self)
    rw [List.flatten_cons, ← List.append_assoc] at hFrame
    rw [List.map_cons, readFrom]
    let fuller : FrameStream :=
      { s with readBuffer := s.readBuffer ++ b :: bytes, ended := false, readable := false }
    rcases Framing.decode?_of_append hFrame with hStart | ⟨left, hStart, hMore⟩
    · simp only [hStart]
      exact ih (s := fuller) hLater hStart hFrame
    · simp only [hStart]
      exact ⟨left, pieces, hLater, hMore, rfl⟩

/-- Whether a stream is between two round trips, and `incoming` is what it will receive: nothing
waits to be sent, nothing has gone wrong, and the transport gives a piece at each read. -/
structure Idle (s : FrameStream) (f : Framing) (incoming : Bytes) : Prop where
  framing : s.framing = f
  writeBuffer : s.writeBuffer = []
  accepting : Accepting s.transport.writes
  errored : s.errored = false
  ended : s.ended = false
  unread : s.readable = false → f.decode? s.readBuffer = .ok none
  pieces : ∃ pieces : List Bytes, (∀ piece ∈ pieces, piece ≠ []) ∧
    s.transport.reads = pieces.map .data ∧ s.readBuffer ++ pieces.flatten = incoming

/-- A stream that is idle receives the next frame, whatever pieces the transport delivers. -/
theorem Idle.next {incoming : Bytes} (h : s.Idle f incoming)
    (hFrame : f.decode? incoming = .ok (some (frame, more))) :
    ∃ left later, (∀ piece ∈ later, piece ≠ []) ∧ left ++ later.flatten = more ∧
      s.next = (s.received frame left later, .ready (some (.ok frame))) := by
  obtain ⟨pieces, hPieces, hReads, rfl⟩ := h.pieces
  rw [← h.framing] at hFrame
  have hUnread := h.unread
  rw [← h.framing] at hUnread
  unfold FrameStream.next
  rw [if_neg (ne_true_of_eq_false h.errored), if_neg (ne_true_of_eq_false h.ended), hReads]
  by_cases hReadable : s.readable = true
  · rw [if_pos hReadable]
    rcases Framing.decode?_of_append hFrame with hStart | ⟨left, hStart, hMore⟩
    · simp only [hStart]
      exact readFrom_pieces (s := { s with readable := false }) hPieces hStart hFrame
    · simp only [hStart]
      refine ⟨left, pieces, hPieces, hMore, ?_⟩
      unfold yieldFrame received
      rw [← hReads, ← h.ended, ← hReadable]
  · rw [if_neg hReadable]
    exact readFrom_pieces hPieces (hUnread (eq_false_of_ne_true hReadable)) hFrame

/-! ## Round trips -/

/-- A request that is to be sent, with the response that it will get. -/
structure Turn where
  /-- The kind of the request. -/
  envelope : Envelope
  /-- The exchange before the request is sent. -/
  exchange : Exchange
  /-- The frame of the request. -/
  request : Bytes
  /-- The frame of the response. -/
  response : Bytes

/-- Whether the request can be sent and the response is one to it. -/
structure Turn.Proper (f : Framing) (t : Turn) : Prop where
  request : t.envelope.write t.exchange = .ok t.request
  limit : t.request.length ≤ f.maxFrameSize
  attempts : t.exchange.attempts.toNat < 2 ^ 32 - 1
  response : f.WellFormed t.response
  correlationId : t.response.uint32At 12 = t.exchange.correlationId

/-- The exchange after the request was sent and the response was read. -/
def Turn.outcome (t : Turn) : Exchange :=
  t.envelope.read { t.exchange with attempts := t.exchange.attempts + 1 } t.response

/-- One turn counts one attempt, unless the count overflows. -/
theorem Turn.attempts_outcome (t : Turn) (h : t.exchange.attempts.toNat < 2 ^ 32 - 1) :
    t.outcome.attempts.toNat = t.exchange.attempts.toNat + 1 := by
  have hRead : t.outcome.attempts = t.exchange.attempts + 1 := by
    unfold outcome Envelope.read
    split
    · rfl
    · split <;> rfl
  rw [hRead, UInt32.toNat_add, UInt32.toNat_one]
  omega

/-- One round trip takes the request to the transport and the response off what is received. -/
theorem Idle.roundTrip {t : Turn} {incoming : Bytes} (h : s.Idle f (t.response ++ incoming))
    (ht : t.Proper f) :
    ∃ s', s.roundTrip t.envelope t.exchange = (s', t.outcome, .ready (.ok ())) ∧
      s'.Idle f incoming ∧ s'.transport.written = s.transport.written ++ t.request := by
  have hLimit : t.request.length ≤ s.framing.maxFrameSize := by
    rw [h.framing]
    exact ht.limit
  obtain ⟨writes, hWrites, hSend⟩ := send_of_accepting h.writeBuffer h.accepting hLimit
  let sent : FrameStream :=
    { s with
      transport :=
        { s.transport with writes := writes, written := s.transport.written ++ t.request }
      writeBuffer := []
      log := s.log ++ [Frame.encoding t.request] }
  have hSent : sent.Idle f (t.response ++ incoming) :=
    ⟨h.framing, rfl, hWrites, h.errored, h.ended, h.unread, h.pieces⟩
  obtain ⟨header, hParse, hFrame⟩ := ht.response.decode? incoming
  obtain ⟨left, later, hPieces, hIncoming, hNext⟩ := hSent.next hFrame
  have hId : Frame.correlationId ⟨header, t.response⟩ = t.exchange.correlationId :=
    (Header.fields_of_parse hParse).2.trans ht.correlationId
  let x : Exchange := { t.exchange with attempts := t.exchange.attempts + 1 }
  let final : FrameStream := sent.received ⟨header, t.response⟩ left later
  let logged : FrameStream := { final with log := final.log ++ t.envelope.readLog x t.response }
  have hAwait : sent.awaitResponse t.envelope x = (logged, t.outcome, .ready (.ok ())) := by
    unfold awaitResponse
    rw [hNext]
    exact if_pos hId
  have hRoundTrip :
      s.roundTrip t.envelope t.exchange = (logged, t.outcome, .ready (.ok ())) := by
    unfold FrameStream.roundTrip
    rw [ht.request]
    simp only [hSend]
    exact hAwait
  refine ⟨logged, hRoundTrip, ?_, rfl⟩
  exact ⟨h.framing, rfl, hWrites, h.errored, rfl, fun hReadable => (nomatch hReadable),
    later, hPieces, rfl, hIncoming⟩

/-- Sends the requests of exchanges one after the other, each after the response to the one before,
and answers with what has become of each. -/
def roundTrips (s : FrameStream) :
    (calls : List (Envelope × Exchange)) → FrameStream × List (Exchange × Sent)
  | [] => (s, [])
  | (e, x) :: calls =>
    let (s, result) := s.roundTrip e x
    let (s, results) := s.roundTrips calls
    (s, result :: results)

/-- Turns follow one another, each leaving the stream idle for the next. -/
theorem Idle.roundTrips {turns : List Turn} {incoming : Bytes}
    (h : s.Idle f ((turns.map Turn.response).flatten ++ incoming))
    (hTurns : ∀ t ∈ turns, t.Proper f) :
    ∃ s', s.roundTrips (turns.map fun t => (t.envelope, t.exchange)) =
        (s', turns.map fun t => (t.outcome, .ready (.ok ()))) ∧
      s'.Idle f incoming ∧
      s'.transport.written = s.transport.written ++ (turns.map Turn.request).flatten := by
  induction turns generalizing s with
  | nil =>
    rw [List.map_nil, List.flatten_nil, List.nil_append] at h
    exact ⟨s, rfl, h, (List.append_nil _).symm⟩
  | cons t turns ih =>
    rw [List.map_cons, List.flatten_cons, List.append_assoc] at h
    obtain ⟨first, hFirst, hIdle, hWritten⟩ := h.roundTrip (hTurns t List.mem_cons_self)
    obtain ⟨last, hLast, hLastIdle, hLastWritten⟩ :=
      ih hIdle fun t' hMem => hTurns t' (List.mem_cons_of_mem _ hMem)
    refine ⟨last, ?_, hLastIdle, ?_⟩
    · rw [List.map_cons, List.map_cons, FrameStream.roundTrips]
      simp only [hFirst, hLast]
    · rw [hLastWritten, hWritten, List.map_cons, List.flatten_cons, List.append_assoc]

/-- Over a transport that takes at least one byte at each write, and that gives the responses in
any pieces that are not empty, every round trip of a session succeeds: the transport has got the
requests one after the other, and each exchange has counted its attempt and read its response. -/
theorem session_exact (f : Framing) (turns : List Turn) (pieces : List Bytes) (limits : List Nat)
    (hTurns : ∀ t ∈ turns, t.Proper f) (hPieces : ∀ piece ∈ pieces, piece ≠ [])
    (hResponses : pieces.flatten = (turns.map Turn.response).flatten)
    (hLimits : ∀ limit ∈ limits, 0 < limit) :
    ∃ s', FrameStream.roundTrips
          { framing := f
            transport := { reads := pieces.map .data, writes := limits.map .accept } }
          (turns.map fun t => (t.envelope, t.exchange)) =
        (s', turns.map fun t => (t.outcome, .ready (.ok ()))) ∧
      s'.transport.written = (turns.map Turn.request).flatten ∧
      ∀ t ∈ turns, t.outcome.attempts.toNat = t.exchange.attempts.toNat + 1 := by
  have hAccepting : Accepting (limits.map .accept) := by
    intro act hMem
    obtain ⟨limit, hLimit, rfl⟩ := List.mem_map.1 hMem
    exact ⟨limit, hLimits limit hLimit, rfl⟩
  have hIdle : Idle
      { framing := f
        transport := { reads := pieces.map .data, writes := limits.map .accept } } f
      ((turns.map Turn.response).flatten ++ []) := by
    rw [List.append_nil, ← hResponses]
    exact ⟨rfl, rfl, hAccepting, rfl, rfl, fun _ => rfl, pieces, hPieces, rfl, rfl⟩
  obtain ⟨s', hRun, -, hWritten⟩ := hIdle.roundTrips hTurns
  exact ⟨s', hRun, hWritten, fun t hMem => t.attempts_outcome (hTurns t hMem).attempts⟩

/-- The second response starts in the piece that ends the first one; the requests are taken in
parts, and the rest of them at once. -/
theorem session_of_two_turns :
    let f : Framing := {}
    let hello : Turn :=
      { envelope := (Request.hello ⟨[4]⟩).operation.toEnvelope
        exchange := { key := some "c", correlationId := 1 }
        request :=
          [128, 31, 0, 1, 0, 0, 0, 0, 0, 0, 0, 3, 0, 0, 0, 1, 0, 0, 0, 0, 0, 0, 0, 0, 99, 0, 4]
        response :=
          [129, 31, 0, 0, 0, 0, 0, 0, 0, 0, 0, 2, 0, 0, 0, 1, 0, 0, 0, 0, 0, 0, 0, 0, 0, 4] }
    let observe : Turn :=
      { envelope := (Request.observeSeqno ⟨⟨7, 258, 1⟩⟩).operation.toEnvelope
        exchange := { correlationId := 2 }
        request :=
          [128, 145, 0, 0, 0, 0, 0, 7, 0, 0, 0, 8, 0, 0, 0, 2, 0, 0, 0, 0, 0, 0, 0, 0, 0, 0, 0, 0,
            0, 0, 1, 2]
        response :=
          [129, 145, 0, 0, 0, 0, 0, 7, 0, 0, 0, 0, 0, 0, 0, 2, 0, 0, 0, 0, 0, 0, 0, 0] }
    let pieces := [hello.response ++ observe.response.take 10, observe.response.drop 10]
    (∀ t ∈ [hello, observe], t.Proper f) ∧
      ∃ s', FrameStream.roundTrips
            { framing := f
              transport := { reads := pieces.map .data, writes := [1, 30].map .accept } }
            ([hello, observe].map fun t => (t.envelope, t.exchange)) =
          (s', [hello, observe].map fun t => (t.outcome, .ready (.ok ()))) ∧
        s'.transport.written = ([hello, observe].map Turn.request).flatten ∧
        ∀ t ∈ [hello, observe], t.outcome.attempts.toNat = t.exchange.attempts.toNat + 1 := by
  intro f hello observe pieces
  have hHelloRequest : hello.envelope.write hello.exchange = .ok hello.request := by
    dsimp only [hello]
    rfl
  have hObserveRequest : observe.envelope.write observe.exchange = .ok observe.request := by
    dsimp only [observe]
    rfl
  have hHelloResponse : f.WellFormed hello.response :=
    ⟨by decide, by decide, by decide, by decide⟩
  have hObserveResponse : f.WellFormed observe.response :=
    ⟨by decide, by decide, by decide, by decide⟩
  have hHello : hello.Proper f :=
    ⟨hHelloRequest, by decide, by decide, hHelloResponse, by decide⟩
  have hObserve : observe.Proper f :=
    ⟨hObserveRequest, by decide, by decide, hObserveResponse, by decide⟩
  have hTurns : ∀ t ∈ [hello, observe], t.Proper f := by
    intro t hMem
    rcases List.mem_cons.1 hMem with rfl | hMem
    · exact hHello
    · rw [List.mem_singleton.1 hMem]
      exact hObserve
  exact ⟨hTurns, session_exact f [hello, observe] pieces [1, 30] hTurns (by decide) (by decide)
    (by decide)⟩

end FrameStream

end StoreClient
