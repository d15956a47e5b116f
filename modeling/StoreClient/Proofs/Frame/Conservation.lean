import StoreClient.Proofs.Frame.Reassembly

/-!
# Framing loses and invents nothing

A stream of well-formed frames is cut into just these frames. Whatever else is received, the frames
that are cut off a buffer and the bytes that are left in it make up what was in the buffer, in
order, and every frame is as long as its header says. As each frame takes at least the bytes of a
header away, the cutting ends.
-/

namespace StoreClient

namespace Framing

variable {f : Framing} {buffer rest left : Bytes} {frame : Frame} {frames : List Frame}

/-! ## What is sent -/

/-- Whether a byte string is a frame within the limit: its first byte names a direction, and it is
as long as its header declares. -/
structure WellFormed (f : Framing) (frame : Bytes) : Prop where
  size : Header.size ≤ frame.length
  magic : frame.getD 0 0 = 0x80 ∨ frame.getD 0 0 = 0x81
  length : frame.length = Header.size + (frame.uint32At 8).toNat
  limit : frame.length ≤ f.maxFrameSize

/-- Appends frames to an empty buffer, one after the other. -/
def encodeAll (f : Framing) (frames : List Bytes) : Except FrameError Bytes :=
  frames.foldlM (fun buffer frame => f.encode frame buffer) []

theorem encode_of_le {frame : Bytes} (h : frame.length ≤ f.maxFrameSize) (buffer : Bytes) :
    f.encode frame buffer = .ok (buffer ++ frame) := by
  unfold encode
  rw [if_neg (by omega)]

/-- Frames that are not too large are encoded one behind the other. -/
theorem foldlM_encode {frames : List Bytes} (h : ∀ frame ∈ frames, frame.length ≤ f.maxFrameSize)
    (buffer : Bytes) :
    frames.foldlM (fun buffer frame => f.encode frame buffer) buffer =
      .ok (buffer ++ frames.flatten) := by
  induction frames generalizing buffer with
  | nil =>
    rw [List.flatten_nil, List.append_nil]
    rfl
  | cons frame frames ih =>
    have hFrame := encode_of_le (h frame List.mem_cons_self) buffer
    have hFrames := ih (fun frame' hMem => h frame' (List.mem_cons_of_mem _ hMem)) (buffer ++ frame)
    rw [List.foldlM_cons, hFrame, List.flatten_cons, ← List.append_assoc, ← hFrames]
    rfl

/-- A well-formed frame is cut off whatever follows it. -/
theorem WellFormed.decode? {frame : Bytes} (h : f.WellFormed frame) (rest : Bytes) :
    ∃ header, Header.parse frame = .ok header ∧
      f.decode? (frame ++ rest) = .ok (some (⟨header, frame⟩, rest)) := by
  obtain ⟨header, hParse⟩ := Header.parse_of_magic h.size h.magic
  have hLength : header.frameLength = frame.length := by
    rw [h.length, ← (Header.fields_of_parse hParse).1]
    rfl
  have hWhole : f.decode? frame = .ok (some (⟨header, frame⟩, [])) := by
    refine decode?_eq_some_iff.2 ⟨h.size, hParse, ?_, ?_, ?_, ?_⟩
    · rw [hLength]
      exact h.limit
    · rw [hLength]
    · rw [hLength, List.take_length]
    · rw [hLength, List.drop_length]
  exact ⟨header, hParse, decode?_append_of_some rest hWhole⟩

/-- Well-formed frames that were written one behind the other are read back as they were. -/
theorem drain_flatten {frames : List Bytes} (h : ∀ frame ∈ frames, f.WellFormed frame) :
    (f.drain frames.flatten).frames.map Frame.raw = frames ∧
      (f.drain frames.flatten).rest = .ok [] := by
  induction frames with
  | nil =>
    have hNone : f.decode? [] = .ok none := rfl
    rw [List.flatten_nil, drain_of_none hNone]
    exact ⟨rfl, rfl⟩
  | cons frame frames ih =>
    obtain ⟨hFrames, hRest⟩ := ih fun frame' hMem => h frame' (List.mem_cons_of_mem _ hMem)
    obtain ⟨header, -, hFrame⟩ := (h frame List.mem_cons_self).decode? frames.flatten
    rw [List.flatten_cons, drain_of_some hFrame, List.map_cons, hFrames]
    exact ⟨rfl, hRest⟩

/-! ## What is received -/

/-- Whether a frame is what its own header says, within the limit. -/
structure Whole (f : Framing) (frame : Frame) : Prop where
  header : Header.parse frame.raw = .ok frame.header
  length : frame.raw.length = frame.header.frameLength
  size : Header.size ≤ frame.raw.length
  limit : frame.raw.length ≤ f.maxFrameSize

/-- A decoded frame is as long as its header says. -/
theorem whole_of_decode? (h : f.decode? buffer = .ok (some (frame, rest))) : f.Whole frame := by
  obtain ⟨hSize, hParse, hMax, hLength, hRaw, -⟩ := decode?_eq_some_iff.1 h
  have hRawLength : frame.raw.length = frame.header.frameLength := by
    rw [hRaw, List.length_take]
    omega
  have hRawSize : Header.size ≤ frame.raw.length := by
    rw [hRawLength]
    exact frame.header.size_le_frameLength
  have hHeader : Header.parse frame.raw = .ok frame.header := by
    rw [← hParse, ← Header.parse_append (buffer.drop frame.header.frameLength) hRawSize, hRaw,
      List.take_append_drop]
  exact ⟨hHeader, hRawLength, hRawSize, by omega⟩

theorem append_of_decode? (h : f.decode? buffer = .ok (some (frame, rest))) :
    frame.raw ++ rest = buffer := by
  obtain ⟨-, -, -, -, hRaw, rfl⟩ := decode?_eq_some_iff.1 h
  rw [hRaw, List.take_append_drop]

/-- Calls that each cut a frame off: what they cut off a buffer, in order, and what they leave. -/
inductive Cuts (f : Framing) :
    (buffer : Bytes) → (frames : List Frame) → (left : Bytes) → Prop where
  | none (buffer : Bytes) : Cuts f buffer [] buffer
  | one {buffer rest left : Bytes} {frame : Frame} {frames : List Frame} :
    f.decode? buffer = .ok (some (frame, rest)) → Cuts f rest frames left →
      Cuts f buffer (frame :: frames) left

/-- Frames and what is left are the bytes that they were cut from. -/
theorem Cuts.flatten_append (h : f.Cuts buffer frames left) :
    (frames.map Frame.raw).flatten ++ left = buffer := by
  induction h with
  | none buffer => rfl
  | one hFrame _ ih =>
    rw [List.map_cons, List.flatten_cons, List.append_assoc, ih]
    exact append_of_decode? hFrame

theorem Cuts.whole (h : f.Cuts buffer frames left) : ∀ frame ∈ frames, f.Whole frame := by
  induction h with
  | none buffer =>
    intro frame hMem
    cases hMem
  | one hFrame _ ih =>
    intro frame hMem
    rcases List.mem_cons.1 hMem with rfl | hMem
    · exact whole_of_decode? hFrame
    · exact ih frame hMem

/-- Each frame takes the bytes of a header away, so that there are not many. -/
theorem Cuts.length_le (h : f.Cuts buffer frames left) :
    Header.size * frames.length ≤ buffer.length := by
  induction h with
  | none buffer => exact Nat.zero_le _
  | one hFrame _ ih =>
    have hSize := (whole_of_decode? hFrame).size
    have hBuffer := congrArg List.length (append_of_decode? hFrame)
    rw [List.length_append] at hBuffer
    rw [List.length_cons, Nat.mul_succ]
    omega

/-- Why no more is cut off a buffer: the next call asks for more bytes, or it fails. -/
def Stops (f : Framing) (left : Bytes) (outcome : Except FrameError Bytes) : Prop :=
  (f.decode? left = .ok none ∧ outcome = .ok left) ∨
    ∃ e, f.decode? left = .error e ∧ outcome = .error e

/-- The decoding of a buffer cuts it into frames until it stops. -/
theorem exists_cuts_drain (f : Framing) (buffer : Bytes) :
    ∃ left, f.Cuts buffer (f.drain buffer).frames left ∧ f.Stops left (f.drain buffer).rest := by
  induction buffer using drain.induct f with
  | case1 buffer e h =>
    rw [drain_of_error h]
    exact ⟨buffer, .none buffer, Or.inr ⟨e, h, rfl⟩⟩
  | case2 buffer h =>
    rw [drain_of_none h]
    exact ⟨buffer, .none buffer, Or.inl ⟨h, rfl⟩⟩
  | case3 buffer frame rest h _ ih =>
    obtain ⟨left, hCuts, hStops⟩ := ih
    rw [drain_of_some h]
    exact ⟨left, .one h hCuts, hStops⟩

/-- Well-formed frames are all accepted for sending, and what is sent is cut into just these frames
with nothing left over. Of any bytes whatever, the frames that are cut off and what is left when the
cutting stops are all there was; each frame is what its own header says; and no run of calls cuts
off more frames than the bytes have headers, so that the cutting stops. -/
theorem framing_conserves (f : Framing) :
    (∀ frames : List Bytes, (∀ frame ∈ frames, f.WellFormed frame) →
      (∀ frame ∈ frames, ∀ buffer, f.encode frame buffer = .ok (buffer ++ frame)) ∧
        ∃ sent, f.encodeAll frames = .ok sent ∧ (f.drain sent).frames.map Frame.raw = frames ∧
          (f.drain sent).rest = .ok []) ∧
      ∀ buffer : Bytes,
        (∃ left, f.Cuts buffer (f.drain buffer).frames left ∧
          f.Stops left (f.drain buffer).rest ∧
          ((f.drain buffer).frames.map Frame.raw).flatten ++ left = buffer) ∧
        (∀ frame ∈ (f.drain buffer).frames,
          Header.parse frame.raw = .ok frame.header ∧
            frame.raw.length = frame.header.frameLength ∧
            24 ≤ frame.raw.length ∧ frame.raw.length ≤ f.maxFrameSize) ∧
        ∀ frames left, f.Cuts buffer frames left → 24 * frames.length ≤ buffer.length := by
  constructor
  · intro frames h
    have hLimit : ∀ frame ∈ frames, frame.length ≤ f.maxFrameSize :=
      fun frame hMem => (h frame hMem).limit
    obtain ⟨hFrames, hRest⟩ := drain_flatten h
    exact ⟨fun frame hMem buffer => encode_of_le (hLimit frame hMem) buffer, frames.flatten,
      foldlM_encode hLimit [], hFrames, hRest⟩
  · intro buffer
    obtain ⟨left, hCuts, hStops⟩ := exists_cuts_drain f buffer
    refine ⟨⟨left, hCuts, hStops, hCuts.flatten_append⟩, ?_, fun frames left h => h.length_le⟩
    intro frame hMem
    obtain ⟨hHeader, hLength, hSize, hLimit⟩ := hCuts.whole frame hMem
    exact ⟨hHeader, hLength, hSize, hLimit⟩

/-- A frame without a body and one of exactly the greatest length, whose extras are declared longer
than its body; and a frame that is followed by a byte of the next one. -/
theorem conservation_at_limit :
    let f : Framing := ⟨26⟩
    let short : Bytes := 0x80 :: List.replicate 23 0
    let long : Bytes := [0x81, 0, 0, 0, 9, 0, 0, 0, 0, 0, 0, 2] ++ List.replicate 12 0 ++ [7, 8]
    (∀ frame ∈ [short, long], f.WellFormed frame) ∧
      (∃ sent, f.encodeAll [short, long] = .ok sent ∧
        (f.drain sent).frames.map Frame.raw = [short, long] ∧ (f.drain sent).rest = .ok []) ∧
      ∃ frame, f.Cuts (short ++ [0x81]) [frame] [0x81] ∧ 24 * 1 ≤ (short ++ [0x81]).length := by
  intro f short long
  have hShort : f.WellFormed short := ⟨by decide, by decide, by decide, by decide⟩
  have hLong : f.WellFormed long := ⟨by decide, by decide, by decide, by decide⟩
  have hFrames : ∀ frame ∈ [short, long], f.WellFormed frame := by
    intro frame hMem
    rcases List.mem_cons.1 hMem with rfl | hMem
    · exact hShort
    · rw [List.mem_singleton.1 hMem]
      exact hLong
  obtain ⟨header, -, hDecode⟩ := hShort.decode? [0x81]
  have hCuts : f.Cuts (short ++ [0x81]) [⟨header, short⟩] [0x81] := .one hDecode (.none _)
  obtain ⟨hSent, hReceived⟩ := framing_conserves f
  exact ⟨hFrames, (hSent _ hFrames).2, _, hCuts, (hReceived _).2.2 _ _ hCuts⟩

end Framing

end StoreClient
