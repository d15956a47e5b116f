import StoreClient.Frame.Link

/-!
# What a link sends

The bytes that the transport has taken, followed by those in the write buffer, are what a link was
given to send. Receiving and flushing leave them as they are; flushing only moves bytes from the
buffer to the transport, however it ends. They grow by whole frames alone, each within the limit.
-/

namespace StoreClient

namespace FrameStream

variable {s s' s'' : FrameStream} {frames frames' : List Bytes}

/-- The bytes given to a stream to send, in order: those taken by the transport, and those that
wait. -/
def offered (s : FrameStream) : Bytes := s.transport.written ++ s.writeBuffer

/-- Whether a stream has become another one, and was given some frames to send in between. -/
structure Fed (s s' : FrameStream) (frames : List Bytes) : Prop where
  framing : s'.framing = s.framing
  offered : s'.offered = s.offered ++ frames.flatten
  limit : ∀ frame ∈ frames, frame.length ≤ s.framing.maxFrameSize

namespace Fed

theorem of_eq (hFraming : s'.framing = s.framing) (hOffered : s'.offered = s.offered) :
    s.Fed s' [] where
  framing := hFraming
  offered := by rw [hOffered, List.flatten_nil, List.append_nil]
  limit := List.forall_mem_nil _

theorem refl (s : FrameStream) : s.Fed s [] := of_eq rfl rfl

/-- Frames are accepted one call after the other. -/
theorem trans (hFirst : s.Fed s' frames) (hLast : s'.Fed s'' frames') :
    s.Fed s'' (frames ++ frames') where
  framing := hLast.framing.trans hFirst.framing
  offered := by
    rw [hLast.offered, hFirst.offered, List.flatten_append, List.append_assoc]
  limit := by
    have hLimit := hLast.limit
    rw [hFirst.framing] at hLimit
    exact List.forall_mem_append.2 ⟨hFirst.limit, hLimit⟩

end Fed

/-! ## Receiving -/

/-- Whether two streams have the same limit, and the same bytes that were or are to be sent. -/
def SameOutput (s s' : FrameStream) : Prop :=
  s'.framing = s.framing ∧ s'.transport.written = s.transport.written ∧
    s'.writeBuffer = s.writeBuffer

theorem SameOutput.fed (h : s.SameOutput s') : s.Fed s' [] := by
  obtain ⟨hFraming, hWritten, hBuffer⟩ := h
  refine Fed.of_eq hFraming ?_
  unfold offered
  rw [hWritten, hBuffer]

theorem finish_sameOutput (s : FrameStream) : s.SameOutput s.finish.1 := by
  unfold finish
  split <;> exact ⟨rfl, rfl, rfl⟩

theorem readEnd_sameOutput (s : FrameStream) (acts : List ReadAct) :
    s.SameOutput (readFrom.readEnd s acts).1 := by
  unfold readFrom.readEnd
  by_cases hEnded : s.ended = true
  · simp only [hEnded, if_true]
    exact ⟨rfl, rfl, rfl⟩
  · simp only [hEnded]
    exact finish_sameOutput _

/-- Reading leaves what is written as it is. -/
theorem readFrom_sameOutput (s : FrameStream) (acts : List ReadAct) :
    s.SameOutput (s.readFrom acts).1 := by
  induction acts generalizing s with
  | nil => exact readEnd_sameOutput s []
  | cons act acts ih =>
    rcases act with ⟨_ | ⟨b, bytes⟩⟩ | _ | text
    · exact readEnd_sameOutput s acts
    · unfold readFrom
      dsimp only
      split
      · exact ⟨rfl, rfl, rfl⟩
      · exact ⟨rfl, rfl, rfl⟩
      · exact ih _
    · exact ⟨rfl, rfl, rfl⟩
    · exact ⟨rfl, rfl, rfl⟩

theorem next_sameOutput (s : FrameStream) : s.SameOutput s.next.1 := by
  unfold next
  split
  · exact ⟨rfl, rfl, rfl⟩
  · split
    · split
      · exact finish_sameOutput s
      · split
        · exact ⟨rfl, rfl, rfl⟩
        · exact ⟨rfl, rfl, rfl⟩
        · exact readFrom_sameOutput _ _
    · exact readFrom_sameOutput s _

/-- Waiting for a response writes nothing. -/
theorem awaitResponse_sameOutput (s : FrameStream) (e : Envelope) (x : Exchange) :
    s.SameOutput (s.awaitResponse e x).1 := by
  have hNext := next_sameOutput s
  unfold awaitResponse
  generalize s.next = received at hNext ⊢
  obtain ⟨s', _ | _ | _ | frame⟩ := received
  · exact hNext
  · exact hNext
  · exact hNext
  · dsimp only
    split <;> exact hNext

/-! ## Flushing -/

/-- A write moves bytes from the buffer to the transport, and so does a write that fails after some
of them. -/
theorem writeTo_offered (s : FrameStream) (acts : List WriteAct) :
    (s.writeTo acts).1.framing = s.framing ∧ (s.writeTo acts).1.offered = s.offered := by
  induction acts generalizing s with
  | nil => exact ⟨rfl, List.append_nil _⟩
  | cons act acts ih =>
    unfold writeTo
    by_cases hEmpty : s.writeBuffer.isEmpty = true
    · rw [if_pos hEmpty]
      exact ⟨rfl, rfl⟩
    · rw [if_neg hEmpty]
      rcases act with ⟨_ | limit⟩ | _ | text
      · exact ⟨rfl, rfl⟩
      · obtain ⟨hFraming, hOffered⟩ := ih
          { s with
            transport :=
              { s.transport with
                written := s.transport.written ++ s.writeBuffer.take (limit + 1) }
            writeBuffer := s.writeBuffer.drop (limit + 1) }
        refine ⟨hFraming, hOffered.trans ?_⟩
        simp only [offered, List.append_assoc, List.take_append_drop]
      · exact ⟨rfl, rfl⟩
      · exact ⟨rfl, rfl⟩

theorem flush_fed (s : FrameStream) : s.Fed s.flush.1 [] := by
  obtain ⟨hFraming, hOffered⟩ := writeTo_offered s s.transport.writes
  exact Fed.of_eq hFraming hOffered

end FrameStream

/-! ## Sending -/

namespace Link

variable {l l' l'' : Link}

/-- Whether a link has become another one, and was given some frames to send in between. -/
def Fed (l l' : Link) (frames : List Bytes) : Prop := l.stream.Fed l'.stream frames

theorem Fed.trans {frames frames' : List Bytes} (hFirst : l.Fed l' frames)
    (hLast : l'.Fed l'' frames') : l.Fed l'' (frames ++ frames') :=
  FrameStream.Fed.trans hFirst hLast

theorem flush_fed (l : Link) : l.Fed l.flush.1 [] := by
  have hFlush := FrameStream.flush_fed l.stream
  unfold flush
  generalize l.stream.flush = flushed at hFlush ⊢
  obtain ⟨s, _ | _ | _⟩ := flushed
  · exact hFlush
  · exact hFlush
  · have hSettle : (settle { l with stream := s }).1.stream = s := by
      unfold settle
      split <;> rfl
    unfold Fed
    rw [hSettle]
    exact hFlush

/-- A frame is put into the write buffer as a whole, or not at all. -/
theorem put_cases (l : Link) (frame : Bytes) :
    (∃ l', l.put frame = (l', .ready (.ok ())) ∧ l.Fed l' [frame]) ∨
      ∃ error, l.put frame = (l, .ready (.error error)) := by
  unfold put Framing.encode
  by_cases hLong : l.stream.framing.maxFrameSize < frame.length
  · rw [if_pos hLong]
    exact Or.inr ⟨_, rfl⟩
  · rw [if_neg hLong]
    refine Or.inl ⟨_, rfl, rfl, ?_, ?_⟩
    · simp only [FrameStream.offered, List.flatten_singleton, List.append_assoc]
    · intro frame' hMem
      rw [List.mem_singleton.1 hMem]
      exact Nat.le_of_not_lt hLong

end Link

end StoreClient
