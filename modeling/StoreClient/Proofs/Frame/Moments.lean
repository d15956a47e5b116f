import StoreClient.Proofs.Frame.Outgoing

/-!
# What a link has sent at every moment

A flush may take many writes and a call many polls, and whoever made the call may give it up after
any of them. At each of these moments the bytes that the transport has taken, followed by those in
the write buffer, are those from before the first call, followed by the frames that were accepted
since then.

A moment is a stream together with the frames that were accepted until then. The moments of a call
are those of the calls it consists of, and the streams between two writes are the ones from which
the flush ends as it does.
-/

namespace StoreClient

namespace FrameStream

variable {s m : FrameStream}

/-! ## Between two writes -/

/-- The stream once the transport has taken some more bytes. -/
def taken (s : FrameStream) (count : Nat) (writes : List WriteAct) : FrameStream :=
  { s with
    transport :=
      { s.transport with writes, written := s.transport.written ++ s.writeBuffer.take count }
    writeBuffer := s.writeBuffer.drop count }

/-- The streams between the writes of a flush to a transport whose next writes are `acts`. -/
def writeMoments (s : FrameStream) : (acts : List WriteAct) → List FrameStream
  | .accept (limit + 1) :: acts =>
    if s.writeBuffer.isEmpty then []
    else s.taken (limit + 1) acts :: writeMoments (s.taken (limit + 1) acts) acts
  | _ => []

/-- A flush depends on the writes that it is given alone. -/
theorem writeTo_of_writes (s : FrameStream) (writes acts : List WriteAct) :
    ({ s with transport := { s.transport with writes } } : FrameStream).writeTo acts =
      s.writeTo acts := by
  induction acts generalizing s with
  | nil => rfl
  | cons act acts ih =>
    unfold writeTo
    by_cases hEmpty : s.writeBuffer.isEmpty = true
    · rw [if_pos hEmpty, if_pos hEmpty]
    · rw [if_neg hEmpty, if_neg hEmpty]
      rcases act with ⟨_ | limit⟩ | _ | text
      · rfl
      · exact ih (s.taken (limit + 1) s.transport.writes)
      · rfl
      · rfl

/-- A write that takes some bytes is followed by the next one. -/
theorem writeTo_accept (hSome : ¬ s.writeBuffer.isEmpty = true) (limit : Nat)
    (acts : List WriteAct) :
    s.writeTo (.accept (limit + 1) :: acts) = (s.taken (limit + 1) acts).writeTo acts := by
  rw [writeTo, if_neg hSome]
  · exact (writeTo_of_writes (s.taken (limit + 1) s.transport.writes) acts acts).symm
  · exact Nat.succ_ne_zero limit

/-- To flush from between two writes is to go on. -/
theorem flush_of_mem_writeMoments {acts : List WriteAct} (hm : m ∈ s.writeMoments acts) :
    m.flush = s.writeTo acts := by
  induction acts generalizing s with
  | nil => cases hm
  | cons act acts ih =>
    rcases act with ⟨_ | limit⟩ | _ | text
    · cases hm
    · rw [writeMoments] at hm
      split at hm
      · cases hm
      · rw [writeTo_accept ‹_›]
        rcases List.mem_cons.1 hm with rfl | hm
        · rfl
        · exact ih hm
    · cases hm
    · cases hm

/-- Nothing is lost, doubled or out of order between two writes. -/
theorem fed_of_mem_writeMoments (hm : m ∈ s.writeMoments s.transport.writes) : s.Fed m [] := by
  have hEnd : m.flush = s.flush := flush_of_mem_writeMoments hm
  have hBefore := m.flush_fed
  have hAfter := s.flush_fed
  rw [hEnd] at hBefore
  refine Fed.of_eq (hBefore.framing.symm.trans hAfter.framing) ?_
  have hOffered := hBefore.offered.symm.trans hAfter.offered
  rwa [List.flatten_nil, List.append_nil, List.append_nil] at hOffered

end FrameStream

namespace Link

open FrameStream (Sent)

variable {l l' l'' : Link}

/-! ## Moments -/

/-- A moment of a call, or of a run of calls. -/
structure Moment where
  /-- The stream. -/
  stream : FrameStream
  /-- The frames that were accepted so far. -/
  accepted : List Bytes := []

namespace Moment

/-- The frames that were accepted at the last of some moments. -/
def acceptedAtLast (moments : List Moment) : List Bytes :=
  (moments.getLast?.map accepted).getD []

/-- The moments of two calls, one after the other. -/
def andThen (first next : List Moment) : List Moment :=
  first ++ next.map fun m => { m with accepted := acceptedAtLast first ++ m.accepted }

end Moment

open Moment (andThen)

/-- A flush passes the streams between two of its writes, and ends. -/
def flushMoments (l : Link) : List Moment :=
  (l.stream.writeMoments l.stream.transport.writes ++ [l.flush.1.stream]).map ({ stream := · })

/-- Room is made by a flush, which is left out as long as the write buffer is below its limit. -/
def makeRoomMoments (l : Link) : List Moment :=
  if l.stream.writeBuffer.length < FrameStream.backlogLimit then [{ stream := l.stream }]
  else l.flushMoments

/-- The frame is accepted if it is encoded. -/
def putMoments (l : Link) (frame : Bytes) : List Moment :=
  match l.stream.framing.encode frame l.stream.writeBuffer with
  | .error _ => [{ stream := (l.put frame).1.stream }]
  | .ok _ => [{ stream := (l.put frame).1.stream, accepted := [frame] }]

/-- A frame is put into the write buffer once there is room. -/
def feedMoments (l : Link) (frame : Bytes) : List Moment :=
  match l.makeRoom with
  | (roomy, .ready (.ok ())) => andThen l.makeRoomMoments (roomy.putMoments frame)
  | _ => l.makeRoomMoments

/-- The transport is shut down after the flush; no frame is accepted by that. -/
def closeMoments (l : Link) : List Moment :=
  andThen l.flushMoments [{ stream := l.close.1.stream }]

/-- A frame is fed unless it has been before, and then flushed. -/
def sendMoments (l : Link) : (frame : Option Bytes) → List Moment
  | none => l.flushMoments
  | some frame =>
    match l.feed frame with
    | (fed, .ready (.ok ())) => andThen (l.feedMoments frame) fed.flushMoments
    | _ => l.feedMoments frame

/-- The moments of a call until it is done or was polled the given number of times. -/
def awaitMoments {σ : Type} (poll : Link → σ → Link × σ × Sent)
    (moments : Link → σ → List Moment) : Nat → Link → σ → List Moment
  | 0, l, _ => [{ stream := l.stream }]
  | polls + 1, l, call =>
    match poll l call with
    | (l', call', .pending) => andThen (moments l call) (awaitMoments poll moments polls l' call')
    | _ => moments l call

end Link

namespace RoundTrip

open Link (Moment)
open Link.Moment (andThen)

/-- What is received leaves the write buffer as it is, and no frame is accepted. -/
def receiveMoments (l : Link) (t : RoundTrip) : List Moment :=
  [{ stream := (receive l t).1.stream }]

/-- A round trip that has sent its request begins to receive within the same poll. -/
def sendMoments (l : Link) (t : RoundTrip) (frame : Option Bytes) : List Moment :=
  match l.send frame with
  | (sent, _, .ready (.ok ())) => andThen (l.sendMoments frame) (receiveMoments sent t)
  | _ => l.sendMoments frame

/-- One poll of a round trip goes on where the poll before stopped. The attempt is counted once,
when the request is written. -/
def pollMoments (l : Link) (t : RoundTrip) : List Moment :=
  match t.stage with
  | .unsent =>
    match t.envelope.write t.exchange with
    | .error _ => [{ stream := l.stream }]
    | .ok request =>
      sendMoments l { t with exchange := { t.exchange with attempts := t.exchange.attempts + 1 } }
        (some request)
  | .sending frame => sendMoments l t frame
  | .receiving => receiveMoments l t

end RoundTrip

namespace Link

open FrameStream (Sent)
open Moment (andThen)

variable {l l' l'' : Link}

/-- What a call passes from its first poll to its last one. -/
def callMoments (l : Link) : Call → List Moment
  | .next => [{ stream := l.stream.next.1 }]
  | .makeRoom => l.makeRoomMoments
  | .put frame => l.putMoments frame
  | .flush => l.flushMoments
  | .close => l.closeMoments
  | .send frame polls => awaitMoments send sendMoments polls l (some frame)
  | .roundTrip e x polls =>
    awaitMoments RoundTrip.poll RoundTrip.pollMoments polls l { envelope := e, exchange := x }

/-- The moments of some calls, one after the other. -/
def moments (l : Link) : List Call → List Moment
  | [] => [{ stream := l.stream }]
  | call :: calls =>
    andThen ({ stream := l.stream } :: l.callMoments call) ((l.perform call).moments calls)

/-! ## Courses -/

/-- At each of some moments a link has been given the frames that were accepted until then, and at
the last moment it has become another link. -/
structure Course (l : Link) (moments : List Moment) (l' : Link) (frames : List Bytes) : Prop where
  each : ∀ m ∈ moments, l.stream.Fed m.stream m.accepted ∧ m.accepted <+: frames
  last : moments.getLast? = some { stream := l'.stream, accepted := frames }

variable {first next : List Moment} {frames frames' : List Bytes}

theorem Course.fed (h : l.Course first l' frames) : l.Fed l' frames :=
  (h.each _ (List.mem_of_getLast? h.last)).1

theorem Course.acceptedAtLast_eq (h : l.Course first l' frames) :
    Moment.acceptedAtLast first = frames := by
  rw [Moment.acceptedAtLast, h.last]
  rfl

theorem Course.single (h : l.Fed l' frames) :
    l.Course [{ stream := l'.stream, accepted := frames }] l' frames := by
  refine ⟨fun m hm => ?_, rfl⟩
  rw [List.mem_singleton.1 hm]
  exact ⟨h, List.prefix_rfl⟩

theorem Course.cons (h : l.Course first l' frames) :
    l.Course ({ stream := l.stream } :: first) l' frames := by
  refine ⟨fun m hm => ?_, ?_⟩
  · rcases List.mem_cons.1 hm with rfl | hm
    · exact ⟨FrameStream.Fed.refl l.stream, List.nil_prefix⟩
    · exact h.each m hm
  · rw [List.getLast?_cons, h.last]
    rfl

/-- The courses of two calls make one. -/
theorem Course.andThen (hFirst : l.Course first l' frames) (hNext : l'.Course next l'' frames') :
    l.Course (Moment.andThen first next) l'' (frames ++ frames') := by
  unfold Moment.andThen
  rw [hFirst.acceptedAtLast_eq]
  refine ⟨fun m hm => ?_, ?_⟩
  · rcases List.mem_append.1 hm with hm | hm
    · obtain ⟨hFed, hPrefix⟩ := hFirst.each m hm
      exact ⟨hFed, hPrefix.trans (List.prefix_append _ _)⟩
    · obtain ⟨m', hm', rfl⟩ := List.mem_map.1 hm
      obtain ⟨hFed, hPrefix⟩ := hNext.each m' hm'
      exact ⟨FrameStream.Fed.trans hFirst.fed hFed, (List.prefix_append_right_inj frames).2 hPrefix⟩
  · rw [List.getLast?_append, List.getLast?_map, hNext.last]
    rfl

/-! ## The courses of calls -/

/-- A flush accepts no frame. -/
theorem flush_course (l : Link) : l.Course l.flushMoments l.flush.1 [] := by
  have hFlush := flush_fed l
  unfold flushMoments
  refine ⟨fun m hm => ?_, ?_⟩
  · obtain ⟨s, hs, rfl⟩ := List.mem_map.1 hm
    rcases List.mem_append.1 hs with hs | hs
    · exact ⟨FrameStream.fed_of_mem_writeMoments hs, List.prefix_rfl⟩
    · rw [List.mem_singleton.1 hs]
      exact ⟨hFlush, List.prefix_rfl⟩
  · rw [List.getLast?_map, List.getLast?_concat]
    rfl

theorem makeRoom_course (l : Link) : l.Course l.makeRoomMoments l.makeRoom.1 [] := by
  unfold makeRoomMoments makeRoom
  split
  · exact Course.single (FrameStream.Fed.refl l.stream)
  · exact flush_course l

theorem close_course (l : Link) : l.Course l.closeMoments l.close.1 [] := by
  have hClose : l.flush.1.Fed l.close.1 [] := by
    unfold close
    generalize l.flush = flushed
    obtain ⟨l', _ | _ | _⟩ := flushed
    · exact FrameStream.Fed.refl l'.stream
    · exact FrameStream.Fed.refl l'.stream
    · exact FrameStream.Fed.of_eq rfl rfl
  exact (flush_course l).andThen (Course.single hClose)

/-- A frame is accepted with the put that succeeds. -/
theorem put_course (l : Link) (frame : Bytes) :
    (∃ l', l.put frame = (l', .ready (.ok ())) ∧ l.Course (l.putMoments frame) l' [frame]) ∨
      ∃ error, l.put frame = (l, .ready (.error error)) ∧ l.Course (l.putMoments frame) l [] := by
  have hPut := put_cases l frame
  unfold putMoments
  cases hEncode : l.stream.framing.encode frame l.stream.writeBuffer with
  | error e =>
    have hEq : l.put frame = (l, .ready (.error e)) := by
      rw [put, hEncode]
    rw [hEq]
    exact Or.inr ⟨e, rfl, Course.single (FrameStream.Fed.refl l.stream)⟩
  | ok buffer =>
    rcases hPut with ⟨l', hEq, hFed⟩ | ⟨error, hEq⟩
    · rw [hEq]
      exact Or.inl ⟨l', rfl, Course.single hFed⟩
    · rw [put, hEncode] at hEq
      cases congrArg Prod.snd hEq

/-- A frame that is fed is accepted, or the call ends otherwise and none is. -/
theorem feed_course (l : Link) (frame : Bytes) :
    (∃ l', l.feed frame = (l', .ready (.ok ())) ∧ l.Course (l.feedMoments frame) l' [frame]) ∨
      ∃ l' outcome, l.feed frame = (l', outcome) ∧ outcome ≠ .ready (.ok ()) ∧
        l.Course (l.feedMoments frame) l' [] := by
  have hRoom := makeRoom_course l
  unfold feed feedMoments
  generalize l.makeRoom = roomy at hRoom ⊢
  obtain ⟨l', _ | error | _⟩ := roomy
  · exact Or.inr ⟨l', _, rfl, by simp, hRoom⟩
  · exact Or.inr ⟨l', _, rfl, by simp, hRoom⟩
  · rcases put_course l' frame with ⟨l'', hPut, hPutCourse⟩ | ⟨error, hPut, hPutCourse⟩
    · exact Or.inl ⟨l'', hPut, hRoom.andThen hPutCourse⟩
    · exact Or.inr ⟨l', _, hPut, by simp, hRoom.andThen hPutCourse⟩

/-- A call that had `before` left to put into the write buffer has come to where it has `after`
left. -/
def Advances (l : Link) (moments : List Moment) (l' : Link) (before after : Option Bytes) : Prop :=
  ∃ frames, l.Course moments l' frames ∧ (frames ++ after.toList).Sublist before.toList

variable {before between after : Option Bytes}

theorem Advances.of_course (h : l.Course first l' []) : l.Advances first l' before before :=
  ⟨[], h, List.Sublist.refl _⟩

theorem Advances.done (h : l.Course first l' []) : l.Advances first l' before none :=
  ⟨[], h, List.nil_sublist _⟩

/-- What is left of a frame after one call is left for the next. -/
theorem Advances.andThen (hFirst : l.Advances first l' before between)
    (hNext : l'.Advances next l'' between after) :
    l.Advances (Moment.andThen first next) l'' before after := by
  obtain ⟨frames, hCourse, hLeft⟩ := hFirst
  obtain ⟨frames', hCourse', hLeft'⟩ := hNext
  refine ⟨frames ++ frames', hCourse.andThen hCourse', ?_⟩
  rw [List.append_assoc]
  exact (List.Sublist.append_left hLeft' frames).trans hLeft

/-- Sending accepts its frame at most once. -/
theorem send_advances (l : Link) (frame : Option Bytes) :
    l.Advances (l.sendMoments frame) (l.send frame).1 frame (l.send frame).2.1 := by
  cases frame with
  | none => exact Advances.done (flush_course l)
  | some frame =>
    rcases feed_course l frame with ⟨l', hFeed, hCourse⟩ | ⟨l', outcome, hFeed, hOutcome, hCourse⟩
    · simp only [send, sendMoments, hFeed]
      exact ⟨[frame], hCourse.andThen (flush_course l'), List.Sublist.refl _⟩
    · rcases outcome with _ | error | _
      · simp only [send, sendMoments, hFeed]
        exact Advances.of_course hCourse
      · simp only [send, sendMoments, hFeed]
        exact Advances.of_course hCourse
      · exact absurd rfl hOutcome

/-- So many polls advance a call as each of them does. -/
theorem await_advances {σ : Type} {poll : Link → σ → Link × σ × Sent}
    {moments : Link → σ → List Moment} (left : σ → Option Bytes)
    (hPoll : ∀ (l : Link) (call : σ), l.Advances (moments l call) (poll l call).1 (left call)
      (left (poll l call).2.1)) (polls : Nat) (l : Link) (call : σ) :
    l.Advances (awaitMoments poll moments polls l call) (await poll polls l call).1 (left call)
      (left (await poll polls l call).2.1) := by
  induction polls generalizing l call with
  | zero => exact Advances.of_course (Course.single (FrameStream.Fed.refl l.stream))
  | succ polls ih =>
    have hFirst := hPoll l call
    unfold await awaitMoments
    generalize poll l call = polled at hFirst ⊢
    obtain ⟨l', call', _ | outcome⟩ := polled
    · exact hFirst.andThen (ih l' call')
    · exact hFirst

end Link

namespace RoundTrip

open Link (Advances Course)

/-- The frame that a round trip has left to put into the write buffer. -/
def left (t : RoundTrip) : Option Bytes :=
  match t.stage with
  | .unsent => (t.envelope.write t.exchange).toOption
  | .sending frame => frame
  | .receiving => none

theorem receive_course (l : Link) (t : RoundTrip) :
    l.Course (receiveMoments l t) (receive l t).1 [] :=
  Course.single (FrameStream.awaitResponse_sameOutput l.stream t.envelope t.exchange).fed

theorem send_advances (l : Link) (t : RoundTrip) (frame : Option Bytes) :
    l.Advances (sendMoments l t frame) (send l t frame).1 frame (send l t frame).2.1.left := by
  have hSend := l.send_advances frame
  unfold send sendMoments
  generalize l.send frame = sent at hSend ⊢
  obtain ⟨l', frame', _ | _ | _⟩ := sent
  · exact hSend
  · exact hSend
  · exact hSend.andThen (Advances.done (receive_course l' t))

/-- A poll of a round trip accepts the request at most once. -/
theorem poll_advances (l : Link) (t : RoundTrip) :
    l.Advances (pollMoments l t) (poll l t).1 t.left (poll l t).2.1.left := by
  unfold poll pollMoments
  cases hStage : t.stage with
  | unsent =>
    have hLeft : t.left = (t.envelope.write t.exchange).toOption := by
      unfold left
      rw [hStage]
    cases hWrite : t.envelope.write t.exchange with
    | error fault =>
      exact Advances.of_course (Course.single (FrameStream.Fed.refl l.stream))
    | ok request =>
      rw [hLeft, hWrite]
      exact send_advances l _ (some request)
  | sending frame =>
    have hLeft : t.left = frame := by
      unfold left
      rw [hStage]
    rw [hLeft]
    exact send_advances l t frame
  | receiving => exact Advances.done (receive_course l t)

end RoundTrip

namespace Link

variable {l : Link}

/-- A call accepts the frame that it is to send, or nothing. -/
theorem call_course (l : Link) (call : Call) :
    ∃ frames, l.Course (l.callMoments call) (l.perform call) frames ∧
      frames.Sublist call.frame?.toList := by
  cases call with
  | next =>
    have hNext : l.Fed (l.perform .next) [] := l.stream.next_sameOutput.fed
    exact ⟨[], Course.single hNext, List.nil_sublist _⟩
  | makeRoom => exact ⟨[], makeRoom_course l, List.nil_sublist _⟩
  | put frame =>
    rcases put_course l frame with ⟨l', hPut, hCourse⟩ | ⟨error, hPut, hCourse⟩
    · simp only [perform, hPut]
      exact ⟨[frame], hCourse, List.Sublist.refl _⟩
    · simp only [perform, hPut]
      exact ⟨[], hCourse, List.nil_sublist _⟩
  | flush => exact ⟨[], flush_course l, List.nil_sublist _⟩
  | close => exact ⟨[], close_course l, List.nil_sublist _⟩
  | send frame polls =>
    obtain ⟨frames, hCourse, hLeft⟩ := await_advances id send_advances polls l (some frame)
    exact ⟨frames, hCourse, (List.sublist_append_left frames _).trans hLeft⟩
  | roundTrip e x polls =>
    obtain ⟨frames, hCourse, hLeft⟩ := await_advances RoundTrip.left RoundTrip.poll_advances polls l
      { envelope := e, exchange := x }
    exact ⟨frames, hCourse, (List.sublist_append_left frames _).trans hLeft⟩

/-- The frames that a run of calls accepts are some of those that were given to it, in order. -/
theorem run_course (l : Link) (calls : List Call) :
    ∃ frames, l.Course (l.moments calls) (l.run calls) frames ∧
      frames.Sublist (calls.filterMap Call.frame?) := by
  induction calls generalizing l with
  | nil =>
    exact ⟨[], Course.single (FrameStream.Fed.refl l.stream), List.nil_sublist _⟩
  | cons call calls ih =>
    obtain ⟨first, hFirst, hFirstFrames⟩ := call_course l call
    obtain ⟨last, hLast, hLastFrames⟩ := ih (l.perform call)
    have hFrames : (call :: calls).filterMap Call.frame? =
        call.frame?.toList ++ calls.filterMap Call.frame? := by
      cases hFrame : call.frame? with
      | none => exact List.filterMap_cons_none hFrame
      | some frame => exact List.filterMap_cons_some hFrame
    refine ⟨first ++ last, hFirst.cons.andThen hLast, ?_⟩
    rw [hFrames]
    exact hFirstFrames.append hLastFrames

/-- A round trip puts its request into the write buffer or nothing. -/
theorem roundTrip_fed (l : Link) (e : Envelope) (x : Exchange) (polls : Nat) :
    ∃ fed, l.Fed (l.roundTrip e x polls).1 fed ∧ fed.Sublist (e.write x).toOption.toList := by
  obtain ⟨frames, hCourse, hFrames⟩ := call_course l (.roundTrip e x polls)
  exact ⟨frames, hCourse.fed, hFrames⟩

/-- A run of calls has put into the write buffer some of the frames that its calls were to send, in
the order of the calls. -/
theorem run_fed (l : Link) (calls : List Call) :
    ∃ fed, l.Fed (l.run calls) fed ∧ fed.Sublist (calls.filterMap Call.frame?) := by
  obtain ⟨frames, hCourse, hFrames⟩ := run_course l calls
  exact ⟨frames, hCourse.fed, hFrames⟩

/-- Whatever the transport does, and however the calls end that are made on a link: at every moment
the bytes that the transport has taken, followed by those in the write buffer, are those from before
the first call, followed by the frames that were accepted until then, in order. These are frames
that the calls were to send, each at most once and in the order of the calls. -/
theorem output_at_every_moment (l : Link) (calls : List Call) :
    (∀ m ∈ l.moments calls,
      m.stream.transport.written ++ m.stream.writeBuffer =
        l.stream.transport.written ++ l.stream.writeBuffer ++ m.accepted.flatten) ∧
      ∃ accepted,
        (l.moments calls).getLast? = some { stream := (l.run calls).stream, accepted } ∧
          (∀ m ∈ l.moments calls, m.accepted <+: accepted) ∧
          accepted.Sublist (calls.filterMap Call.frame?) := by
  obtain ⟨accepted, hCourse, hFrames⟩ := run_course l calls
  refine ⟨fun m hm => (hCourse.each m hm).1.offered, accepted, hCourse.last, ?_, hFrames⟩
  exact fun m hm => (hCourse.each m hm).2

/-- A call is given up when two bytes of its frame are sent; the next one sends the third byte
before its own frame. -/
example :
    let l : Link := { stream := { transport := { writes := [.accept 2, .notReady, .accept 1] } } }
    ((l.moments [.send [1, 2, 3] 1, .send [4, 5] 1]).map fun m =>
        (m.stream.transport.written, m.stream.writeBuffer)).eraseDups =
      [([], []), ([], [1, 2, 3]), ([1, 2], [3]), ([1, 2], [3, 4, 5]), ([1, 2, 3], [4, 5]),
        ([1, 2, 3, 4, 5], [])] := by
  decide +kernel

end Link

end StoreClient
