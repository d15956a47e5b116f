import StoreClient.Frame.Basic
import StoreClient.Proofs.Wire.Header

/-!
# Reassembly of frames

Bytes arrive in chunks whose boundaries have nothing to do with those of the frames. Whoever
receives them appends each chunk to a buffer and then cuts frames off it until there is none left to
cut. What is cut off depends on the bytes alone: neither the frames nor the error that ends them
change with the chunks.
-/

namespace StoreClient

/-- What cutting frames off a buffer has come to. -/
structure Drained where
  /-- The frames, in order. -/
  frames : List Frame
  /-- The bytes that are left in the buffer, or the error that ended the cutting. -/
  rest : Except FrameError Bytes

/-- Goes on with the bytes that are left, unless there was an error. -/
def Drained.andThen (d : Drained) (next : Bytes → Drained) : Drained :=
  match d.rest with
  | .error e => ⟨d.frames, .error e⟩
  | .ok left => ⟨d.frames ++ (next left).frames, (next left).rest⟩

theorem Drained.andThen_congr {d : Drained} {next next' : Bytes → Drained}
    (h : ∀ left, d.rest = .ok left → next left = next' left) :
    d.andThen next = d.andThen next' := by
  unfold andThen
  cases hr : d.rest with
  | error e => rfl
  | ok left => simp only [h left hr]

namespace Framing

variable {f : Framing} {buffer rest : Bytes} {frame : Frame} {e : FrameError}

/-! ## Cutting off one frame -/

/-- A frame is decoded if its header can be read, it is not too large, and all of it is there. -/
theorem decode?_eq_some_iff :
    f.decode? buffer = .ok (some (frame, rest)) ↔
      Header.size ≤ buffer.length ∧ Header.parse buffer = .ok frame.header ∧
        frame.header.frameLength ≤ f.maxFrameSize ∧ frame.header.frameLength ≤ buffer.length ∧
        frame.raw = buffer.take frame.header.frameLength ∧
        rest = buffer.drop frame.header.frameLength := by
  unfold decode?
  constructor
  · intro h
    split at h
    · cases h
    · rename_i hSize
      split at h
      · cases h
      · rename_i header hParse
        split at h
        · cases h
        · rename_i hMax
          split at h
          · cases h
          · rename_i hLength
            cases h
            exact ⟨Nat.le_of_not_lt hSize, hParse, Nat.le_of_not_lt hMax, Nat.le_of_not_lt hLength,
              rfl, rfl⟩
  · rintro ⟨hSize, hParse, hMax, hLength, hRaw, hRest⟩
    rw [if_neg (by omega), hParse]
    simp only
    rw [if_neg (by omega), if_neg (by omega), ← hRaw, ← hRest]

/-- Decoding fails if the header cannot be read or announces a frame that is too large. -/
theorem decode?_eq_error_iff :
    f.decode? buffer = .error e ↔
      Header.size ≤ buffer.length ∧
        ((∃ fault, Header.parse buffer = .error fault ∧ e = .protocol fault) ∨
          ∃ header, Header.parse buffer = .ok header ∧ f.maxFrameSize < header.frameLength ∧
            e = .frameTooLarge header.frameLength f.maxFrameSize) := by
  unfold decode?
  constructor
  · intro h
    split at h
    · cases h
    · rename_i hSize
      refine ⟨by omega, ?_⟩
      split at h
      · rename_i fault hParse
        cases h
        exact Or.inl ⟨fault, hParse, rfl⟩
      · rename_i header hParse
        split at h
        · rename_i hMax
          cases h
          exact Or.inr ⟨header, hParse, hMax, rfl⟩
        · split at h <;> cases h
  · rintro ⟨hSize, ⟨fault, hParse, rfl⟩ | ⟨header, hParse, hMax, rfl⟩⟩
    · rw [if_neg (by omega), hParse]
    · rw [if_neg (by omega), hParse]
      simp only
      rw [if_pos hMax]

theorem length_rest_lt (h : f.decode? buffer = .ok (some (frame, rest))) :
    rest.length < buffer.length := by
  obtain ⟨-, -, -, hLength, -, rfl⟩ := decode?_eq_some_iff.1 h
  have hSize : 24 ≤ frame.header.frameLength := frame.header.size_le_frameLength
  rw [List.length_drop]
  omega

/-- Bytes that come later are left behind a decoded frame. -/
theorem decode?_append_of_some (more : Bytes) (h : f.decode? buffer = .ok (some (frame, rest))) :
    f.decode? (buffer ++ more) = .ok (some (frame, rest ++ more)) := by
  obtain ⟨hSize, hParse, hMax, hLength, hRaw, rfl⟩ := decode?_eq_some_iff.1 h
  refine decode?_eq_some_iff.2 ⟨?_, ?_, hMax, ?_, ?_, ?_⟩
  · rw [List.length_append]
    omega
  · rw [Header.parse_append more hSize, hParse]
  · rw [List.length_append]
    omega
  · rw [hRaw, List.take_append_of_le_length hLength]
  · rw [List.drop_append_of_le_length hLength]

/-- Bytes that come later do not mend an error. -/
theorem decode?_append_of_error (more : Bytes) (h : f.decode? buffer = .error e) :
    f.decode? (buffer ++ more) = .error e := by
  obtain ⟨hSize, hWhy⟩ := decode?_eq_error_iff.1 h
  refine decode?_eq_error_iff.2 ⟨?_, ?_⟩
  · rw [List.length_append]
    omega
  · rw [Header.parse_append more hSize]
    exact hWhy

/-! ## Cutting off all frames -/

/-- Cuts frames off a buffer until there is none left to cut, or until there is an error. -/
def drain (f : Framing) (buffer : Bytes) : Drained :=
  match h : f.decode? buffer with
  | .error e => ⟨[], .error e⟩
  | .ok none => ⟨[], .ok buffer⟩
  | .ok (some (frame, rest)) =>
    have := length_rest_lt h
    ⟨frame :: (drain f rest).frames, (drain f rest).rest⟩
termination_by buffer.length

theorem drain_of_error (h : f.decode? buffer = .error e) : f.drain buffer = ⟨[], .error e⟩ := by
  rw [drain]
  split
  · rename_i h'
    cases h.symm.trans h'
    rfl
  · rename_i h'
    cases h.symm.trans h'
  · rename_i h'
    cases h.symm.trans h'

theorem drain_of_none (h : f.decode? buffer = .ok none) : f.drain buffer = ⟨[], .ok buffer⟩ := by
  rw [drain]
  split
  · rename_i h'
    cases h.symm.trans h'
  · rfl
  · rename_i h'
    cases h.symm.trans h'

theorem drain_of_some (h : f.decode? buffer = .ok (some (frame, rest))) :
    f.drain buffer = ⟨frame :: (f.drain rest).frames, (f.drain rest).rest⟩ := by
  rw [drain]
  split
  · rename_i h'
    cases h.symm.trans h'
  · rename_i h'
    cases h.symm.trans h'
  · rename_i h'
    cases h.symm.trans h'
    rfl

/-- The decoding of a buffer goes on until no frame is complete. -/
theorem decode?_of_drain_rest (f : Framing) (buffer : Bytes) :
    ∀ left, (f.drain buffer).rest = .ok left → f.decode? left = .ok none := by
  induction buffer using drain.induct f with
  | case1 buffer e h =>
    intro left hLeft
    rw [drain_of_error h] at hLeft
    cases hLeft
  | case2 buffer h =>
    intro left hLeft
    rw [drain_of_none h] at hLeft
    cases hLeft
    exact h
  | case3 buffer frame rest h _ ih =>
    intro left hLeft
    rw [drain_of_some h] at hLeft
    exact ih left hLeft

/-- Cutting frames off two pieces at once is the same as cutting them off the first piece, and then
off what is left of it followed by the second one. -/
theorem drain_append (f : Framing) (buffer more : Bytes) :
    f.drain (buffer ++ more) = (f.drain buffer).andThen fun left => f.drain (left ++ more) := by
  induction buffer using drain.induct f with
  | case1 buffer e h =>
    rw [drain_of_error h, drain_of_error (decode?_append_of_error more h)]
    rfl
  | case2 buffer h =>
    rw [drain_of_none h]
    rfl
  | case3 buffer frame rest h _ ih =>
    rw [drain_of_some h, drain_of_some (decode?_append_of_some more h), ih]
    unfold Drained.andThen
    cases (f.drain rest).rest with
    | error e => rfl
    | ok left => rfl

/-! ## Chunks -/

/-- Appends chunks to a buffer one after the other, and cuts all frames off after each of them, up
to the first error. -/
def feed (f : Framing) (buffer : Bytes) : (chunks : List Bytes) → Drained
  | [] => ⟨[], .ok buffer⟩
  | chunk :: chunks => (f.drain (buffer ++ chunk)).andThen fun left => feed f left chunks

/-- Chunks that are added to a buffer from which nothing can be cut off yet come to the same as all
their bytes at once. -/
theorem feed_eq_drain (hBuffer : f.decode? buffer = .ok none) (chunks : List Bytes) :
    f.feed buffer chunks = f.drain (buffer ++ chunks.flatten) := by
  induction chunks generalizing buffer with
  | nil =>
    rw [List.flatten_nil, List.append_nil, drain_of_none hBuffer]
    rfl
  | cons chunk chunks ih =>
    calc f.feed buffer (chunk :: chunks)
        = (f.drain (buffer ++ chunk)).andThen fun left => f.feed left chunks := rfl
      _ = (f.drain (buffer ++ chunk)).andThen fun left => f.drain (left ++ chunks.flatten) :=
          Drained.andThen_congr fun left hLeft =>
            ih (decode?_of_drain_rest f (buffer ++ chunk) left hLeft)
      _ = f.drain (buffer ++ chunk ++ chunks.flatten) := (drain_append f _ _).symm
      _ = f.drain (buffer ++ (chunk :: chunks).flatten) := by
          rw [List.append_assoc, List.flatten_cons]

/-- However a byte string is cut into chunks, the same frames are cut off it, and the same error or
the same bytes come after them. An error is final: it stays the same whatever is appended, and no
frame is cut off after it. -/
theorem reassembly_ignores_chunks (f : Framing) :
    (∀ chunks : List Bytes, f.feed [] chunks = f.drain chunks.flatten) ∧
      (∀ buffer more e, f.decode? buffer = .error e → f.decode? (buffer ++ more) = .error e) ∧
      ∀ buffer more e, (f.drain buffer).rest = .error e →
        f.drain (buffer ++ more) = f.drain buffer := by
  refine ⟨fun chunks => ?_, fun buffer more e h => decode?_append_of_error more h, ?_⟩
  · exact feed_eq_drain rfl chunks
  · intro buffer more e h
    rw [drain_append]
    unfold Drained.andThen
    rw [h]
    simp only [← h]

/-- A frame and a header that names no direction, cut within the header. -/
theorem reassembly_of_cut_header :
    let good : Bytes := 0x81 :: List.replicate 23 0
    let bad : Bytes := 0x42 :: List.replicate 23 0
    feed {} [] [good ++ bad.take 5, [], bad.drop 5] = drain {} (good ++ bad) ∧
      decode? {} (bad ++ good) = .error (.protocol (.invalidMagic 0x42)) ∧
      drain {} (good ++ bad ++ good) = drain {} (good ++ bad) := by
  intro good bad
  have hBad : decode? {} bad = .error (.protocol (.invalidMagic 0x42)) := by rfl
  have hGood : ∃ frame, decode? {} (good ++ bad) = .ok (some (frame, bad)) := ⟨_, by rfl⟩
  have hRest : (drain {} (good ++ bad)).rest = .error (.protocol (.invalidMagic 0x42)) := by
    obtain ⟨frame, hFrame⟩ := hGood
    rw [drain_of_some hFrame, drain_of_error hBad]
  obtain ⟨hChunks, hError, hDrain⟩ := reassembly_ignores_chunks {}
  exact ⟨hChunks _, hError _ _ _ hBad, hDrain _ _ _ hRest⟩

end Framing

end StoreClient
