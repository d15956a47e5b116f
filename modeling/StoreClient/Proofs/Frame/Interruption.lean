import StoreClient.Proofs.Frame.Moments
import StoreClient.Request.Basic

/-!
# Round trips that do not end well

A round trip may fail before, while and after the request is sent, and its caller may give it up
whenever it has to wait. The exchange then is the one before, but for the attempt: it is counted
with the first poll, if there is a request. Only a response that belongs to the request is read into
the exchange, and with it the round trip is done. A request that is refused for its length, or that
there is none of, leaves nothing behind that could be sent later.

The polls of a round trip and the round trip of a stream are one and the same as long as the
transport need not be flushed and nobody polls again.
-/

namespace StoreClient

/-! ## One poll -/

namespace Link

variable (s : FrameStream)

theorem flush_of_settled : (Link.mk s []).flush = (⟨s.flush.1, []⟩, s.flush.2) := by
  unfold flush
  generalize s.flush = flushed
  obtain ⟨s', _ | _ | _⟩ := flushed <;> rfl

theorem feed_of_settled (frame : Bytes) :
    (Link.mk s []).feed frame = (⟨(s.feed frame).1, []⟩, (s.feed frame).2) := by
  unfold feed makeRoom FrameStream.feed
  rw [flush_of_settled]
  by_cases hRoom : s.writeBuffer.length < FrameStream.backlogLimit
  · rw [if_pos hRoom, if_pos hRoom]
    cases hEncode : s.framing.encode frame s.writeBuffer <;> simp only [put, hEncode]
  · rw [if_neg hRoom, if_neg hRoom]
    generalize s.flush = flushed
    obtain ⟨s', _ | _ | _⟩ := flushed
    · rfl
    · rfl
    · cases hEncode : s'.framing.encode frame s'.writeBuffer <;> simp only [put, hEncode]

/-- A link whose transport needs no flush sends as its stream does. -/
theorem send_of_settled (frame : Bytes) :
    ∃ left,
      (Link.mk s []).send (some frame) = (⟨(s.send frame).1, []⟩, left, (s.send frame).2) := by
  simp only [send, FrameStream.send, feed_of_settled]
  generalize s.feed frame = fed
  obtain ⟨s', _ | _ | _⟩ := fed
  · exact ⟨_, rfl⟩
  · exact ⟨_, rfl⟩
  · exact ⟨none, by simp only [flush_of_settled]⟩

/-- Polled once, a round trip is that of the stream. -/
theorem roundTrip_of_settled (e : Envelope) (x : Exchange) :
    (Link.mk s []).roundTrip e x 1 = (⟨(s.roundTrip e x).1, []⟩, (s.roundTrip e x).2) := by
  unfold roundTrip await RoundTrip.poll FrameStream.roundTrip
  cases hWrite : e.write x with
  | error fault => rfl
  | ok request =>
    obtain ⟨left, hSend⟩ := send_of_settled s request
    dsimp only
    unfold RoundTrip.send
    rw [hSend]
    generalize s.send request = sent
    obtain ⟨s', _ | _ | _⟩ := sent
    · rfl
    · rfl
    · unfold RoundTrip.receive
      dsimp only
      generalize s'.awaitResponse e _ = answered
      obtain ⟨s'', x', _ | _⟩ := answered <;> rfl

end Link

/-! ## What happens to the exchange -/

/-- A response is read into the exchange only if the call succeeds. -/
theorem FrameStream.awaitResponse_exchange {s : FrameStream} {e : Envelope} {x : Exchange}
    (h : (s.awaitResponse e x).2.2 ≠ .ready (.ok ())) : (s.awaitResponse e x).2.1 = x := by
  unfold awaitResponse at h ⊢
  generalize s.next = received at h ⊢
  obtain ⟨s', _ | _ | _ | frame⟩ := received
  · rfl
  · rfl
  · rfl
  · dsimp only at h ⊢
    by_cases hId : frame.correlationId = x.correlationId
    · rw [if_pos hId] at h
      exact absurd rfl h
    · rw [if_neg hId]

namespace RoundTrip

variable {l : Link} {t : RoundTrip}

theorem receive_exchange (h : (receive l t).2.2 ≠ .ready (.ok ())) :
    (receive l t).2.1.exchange = t.exchange :=
  FrameStream.awaitResponse_exchange h

/-- An exchange stays as it is until its response is there. -/
theorem send_exchange {frame : Option Bytes} (h : (send l t frame).2.2 ≠ .ready (.ok ())) :
    (send l t frame).2.1.exchange = t.exchange := by
  unfold send at h ⊢
  generalize l.send frame = sent at h ⊢
  obtain ⟨l', frame', _ | _ | _⟩ := sent
  · rfl
  · rfl
  · exact receive_exchange h

theorem send_started (l : Link) (t : RoundTrip) (frame : Option Bytes) :
    (send l t frame).2.1.stage ≠ .unsent := by
  unfold send
  generalize l.send frame = sent
  obtain ⟨l', frame', _ | _ | _⟩ := sent <;> exact fun h => nomatch h

/-- A poll after the first one leaves the exchange alone unless the round trip succeeds. -/
theorem poll_of_started (hStarted : t.stage ≠ .unsent) :
    (poll l t).2.1.stage ≠ .unsent ∧
      ((poll l t).2.2 ≠ .ready (.ok ()) → (poll l t).2.1.exchange = t.exchange) := by
  unfold poll
  cases hStage : t.stage with
  | unsent => exact absurd hStage hStarted
  | sending frame => exact ⟨send_started l t frame, send_exchange⟩
  | receiving => exact ⟨fun h => (nomatch h), receive_exchange⟩

/-- Further polls leave the exchange as it is until its response is there. -/
theorem await_of_started (hStarted : t.stage ≠ .unsent) (polls : Nat)
    (h : (Link.await poll polls l t).2.2 ≠ .ready (.ok ())) :
    (Link.await poll polls l t).2.1.exchange = t.exchange := by
  induction polls generalizing l t with
  | zero => rfl
  | succ polls ih =>
    obtain ⟨hStill, hExchange⟩ := poll_of_started (l := l) hStarted
    unfold Link.await at h ⊢
    generalize poll l t = polled at hStill hExchange h ⊢
    obtain ⟨l', t', _ | outcome⟩ := polled
    · exact (ih hStill h).trans (hExchange (by simp))
    · exact hExchange h

end RoundTrip

namespace Link

/-- The exchange after a round trip that has not succeeded. -/
theorem roundTrip_exchange {l : Link} {e : Envelope} {x : Exchange} {polls : Nat}
    (h : (l.roundTrip e x polls).2.2 ≠ .ready (.ok ())) :
    (l.roundTrip e x polls).2.1 =
      if 0 < polls ∧ (e.write x).isOk then { x with attempts := x.attempts + 1 } else x := by
  cases polls with
  | zero => rfl
  | succ polls =>
    unfold roundTrip await RoundTrip.poll at h ⊢
    cases hWrite : e.write x with
    | error fault => rfl
    | ok request =>
      rw [if_pos ⟨polls.succ_pos, rfl⟩]
      let counted : RoundTrip :=
        { envelope := e, exchange := { x with attempts := x.attempts + 1 } }
      have hStarted := RoundTrip.send_started l counted (some request)
      have hExchange :
          (RoundTrip.send l counted (some request)).2.2 ≠ .ready (.ok ()) →
            (RoundTrip.send l counted (some request)).2.1.exchange = counted.exchange :=
        RoundTrip.send_exchange
      simp only [hWrite] at h ⊢
      generalize RoundTrip.send l counted (some request) = sent at hStarted hExchange h ⊢
      obtain ⟨l', t', _ | outcome⟩ := sent
      · exact (RoundTrip.await_of_started hStarted polls h).trans (hExchange fun h => nomatch h)
      · exact hExchange h

/-- Whatever the transport does, a round trip that fails or is given up leaves the exchange as it
was, except that the attempt is counted if the round trip was polled and there is a request. If
there is no request, or one that is longer than the limit, then no byte of it is among those that
the link has sent or is to send: not after the round trip, and not after any calls that are made
later. These may add their own frames, in order, and no frame that is longer than the limit. -/
theorem unfinished_round_trip (l : Link) (e : Envelope) (x : Exchange) (polls : Nat) :
    ((l.roundTrip e x polls).2.2 ≠ .ready (.ok ()) →
      (l.roundTrip e x polls).2.1 =
        if 0 < polls ∧ (e.write x).isOk then { x with attempts := x.attempts + 1 } else x) ∧
      ((∀ request, e.write x = .ok request → l.stream.framing.maxFrameSize < request.length) →
        ∀ later : List Call, ∃ fed : List Bytes,
          fed.Sublist (later.filterMap Call.frame?) ∧
            (∀ frame ∈ fed, frame.length ≤ l.stream.framing.maxFrameSize) ∧
            ((l.roundTrip e x polls).1.run later).stream.offered =
              l.stream.offered ++ fed.flatten) := by
  refine ⟨roundTrip_exchange, fun hRefused later => ?_⟩
  obtain ⟨own, hOwn, hRequest⟩ := roundTrip_fed l e x polls
  obtain ⟨fed, hFed, hFrames⟩ := run_fed (l.roundTrip e x polls).1 later
  have hNone : own = [] := by
    cases hWrite : e.write x with
    | error fault =>
      rw [hWrite] at hRequest
      exact List.sublist_nil.1 hRequest
    | ok request =>
      rw [hWrite] at hRequest
      have hLong := hRefused request hWrite
      rw [List.eq_nil_iff_forall_not_mem]
      intro frame hMem
      have hLimit := hOwn.limit frame hMem
      rw [List.mem_singleton.1 (hRequest.subset hMem)] at hLimit
      omega
  subst hNone
  have hBoth := hOwn.trans hFed
  exact ⟨fed, hFrames, hBoth.limit, hBoth.offered⟩

/-- The first link takes ten bytes and has to wait, and the second time waits for the transport to
be flushed; then the caller gives up. The second link has three bytes to send, and the request is
one byte longer than its limit. -/
theorem given_up_and_refused :
    let e := (Request.hello ⟨[4]⟩).operation.toEnvelope
    let x : Exchange := { key := some "c", correlationId := 1 }
    let slow : Link :=
      { stream := { transport := { writes := [.accept 10, .notReady] } }, flushes := [.notReady] }
    let narrow : Link := { stream := { framing := .withLimit 26, writeBuffer := [1, 2, 3] } }
    (slow.roundTrip e x 2).2.2 = .pending ∧
      (slow.roundTrip e x 2).2.1 = { x with attempts := x.attempts + 1 } ∧
      (∀ request, e.write x = .ok request →
        narrow.stream.framing.maxFrameSize < request.length) ∧
      ∀ later : List Call, ∃ fed : List Bytes,
        fed.Sublist (later.filterMap Call.frame?) ∧
          (∀ frame ∈ fed, frame.length ≤ narrow.stream.framing.maxFrameSize) ∧
          ((narrow.roundTrip e x 1).1.run later).stream.offered =
            narrow.stream.offered ++ fed.flatten := by
  intro e x slow narrow
  have hWrite : e.write x = .ok
      [128, 31, 0, 1, 0, 0, 0, 0, 0, 0, 0, 3, 0, 0, 0, 1, 0, 0, 0, 0, 0, 0, 0, 0, 99, 0, 4] := by
    dsimp only [e, x]
    rfl
  have hPending : (slow.roundTrip e x 2).2.2 = .pending := by
    dsimp only [e, x, slow]
    rfl
  have hUnfinished : (slow.roundTrip e x 2).2.2 ≠ .ready (.ok ()) := by
    rw [hPending]
    exact fun h => nomatch h
  have hRefused : ∀ request, e.write x = .ok request →
      narrow.stream.framing.maxFrameSize < request.length := by
    intro request hRequest
    cases hWrite.symm.trans hRequest
    decide
  have hCounted : 0 < 2 ∧ (e.write x).isOk := by
    rw [hWrite]
    exact ⟨by decide, rfl⟩
  exact ⟨hPending, ((unfinished_round_trip slow e x 2).1 hUnfinished).trans (if_pos hCounted),
    hRefused, (unfinished_round_trip narrow e x 1).2 hRefused⟩

end Link

end StoreClient
