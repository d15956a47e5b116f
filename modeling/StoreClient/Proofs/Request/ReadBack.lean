import StoreClient.Proofs.Request.Layout
import StoreClient.Request.Basic

/-!
# Reading back what was written

The frame of a request is written from its layout and taken apart by its header. The two share
nothing but the table of the header: the writer narrows the lengths of the segments to the width of
the fields that carry them, and the reader widens them again. As the writer refuses segments that do
not fit, no length is cut off on the way, and whoever takes a frame apart finds every segment where
its header says.
-/

namespace StoreClient

namespace Layout

/-- What the header of a frame says about the layout that the frame was written from, and what is
found at the places that it names. -/
structure FoundBy (l : Layout) (correlationId : UInt32) (cas : UInt64) (extras body frame : Bytes)
    (h : Header) : Prop where
  magic : h.magic = .request
  opcode : h.opcode = l.opcode.code
  datatype : h.datatype = l.datatype
  statusOrVBucket : h.statusOrVBucket = l.vbucket.getD 0
  correlationId : h.correlationId = correlationId
  cas : h.cas = cas
  keyLength : h.keyLength.toNat = l.key.length
  extrasLength : h.extrasLength.toNat = extras.length
  bodyLength :
    h.bodyLength.toNat = extras.length + l.key.length + l.path.length + body.length
  frameLength : frame.length = h.frameLength
  extrasAt : frame.slice h.extrasOffset h.extrasLength.toNat = extras
  keyAt : frame.slice (h.extrasOffset + h.extrasLength.toNat) h.keyLength.toNat = l.key
  valueAt : frame.slice h.bodyOffset h.valueLength = l.path ++ body

variable {l : Layout} {correlationId : UInt32} {cas : UInt64} {extras body : Bytes}

theorem Fits.keyLength_header (h : l.Fits extras body) :
    (l.header correlationId cas extras body).keyLength.toNat = l.key.length :=
  UInt16.toNat_ofNat_of_lt' (Nat.lt_succ_of_le h.keyLength)

theorem Fits.extrasLength_header (h : l.Fits extras body) :
    (l.header correlationId cas extras body).extrasLength.toNat = extras.length :=
  UInt8.toNat_ofNat_of_lt' (Nat.lt_succ_of_le h.extrasLength)

theorem Fits.bodyLength_header (h : l.Fits extras body) :
    (l.header correlationId cas extras body).bodyLength.toNat =
      extras.length + l.key.length + l.path.length + body.length :=
  UInt32.toNat_ofNat_of_lt' (Nat.lt_succ_of_le h.bodyLength)

/-- The segments of a frame stand where its header says. -/
theorem Fits.foundBy (h : l.Fits extras body) :
    l.FoundBy correlationId cas extras body
      ((l.header correlationId cas extras body).toBytes ++ extras ++ l.key ++ l.path ++ body)
      (l.header correlationId cas extras body) := by
  let header := l.header correlationId cas extras body
  have hKey : header.keyLength.toNat = l.key.length := h.keyLength_header
  have hExtras : header.extrasLength.toNat = extras.length := h.extrasLength_header
  have hBody : header.bodyLength.toNat =
      extras.length + l.key.length + l.path.length + body.length := h.bodyLength_header
  have hSize : header.toBytes.length = Header.size := header.length_toBytes
  have hKeyOffset :
      header.extrasOffset + header.extrasLength.toNat = (header.toBytes ++ extras).length := by
    rw [List.length_append, hExtras, hSize]
    rfl
  have hValueOffset : header.bodyOffset = (header.toBytes ++ extras ++ l.key).length := by
    rw [Header.bodyOffset, List.length_append, List.length_append, hExtras, hKey, hSize]
  have hValueLength : header.valueLength = (l.path ++ body).length := by
    rw [Header.valueLength, List.length_append]
    omega
  have hFrameLength :
      (header.toBytes ++ extras ++ l.key ++ l.path ++ body).length = header.frameLength := by
    simp only [List.length_append, Header.frameLength]
    omega
  have hExtrasAt :
      (header.toBytes ++ extras ++ l.key ++ l.path ++ body).slice header.toBytes.length
        extras.length = extras := by
    rw [List.append_assoc _ l.path, List.append_assoc _ l.key]
    exact Bytes.slice_append_middle _ _ _
  have hKeyAt :
      (header.toBytes ++ extras ++ l.key ++ l.path ++ body).slice (header.toBytes ++ extras).length
        l.key.length = l.key := by
    rw [List.append_assoc _ l.path]
    exact Bytes.slice_append_middle _ _ _
  have hValueAt :
      (header.toBytes ++ extras ++ l.key ++ l.path ++ body).slice
        (header.toBytes ++ extras ++ l.key).length (l.path ++ body).length = l.path ++ body := by
    have hSlice := Bytes.slice_append_middle (header.toBytes ++ extras ++ l.key) (l.path ++ body) []
    rwa [List.append_nil, ← List.append_assoc] at hSlice
  rw [← hKeyOffset, ← hKey] at hKeyAt
  rw [hSize, ← hExtras] at hExtrasAt
  rw [← hValueOffset, ← hValueLength] at hValueAt
  exact
    { magic := rfl
      opcode := rfl
      datatype := rfl
      statusOrVBucket := rfl
      correlationId := rfl
      cas := rfl
      keyLength := hKey
      extrasLength := hExtras
      bodyLength := hBody
      frameLength := hFrameLength
      extrasAt := hExtrasAt
      keyAt := hKeyAt
      valueAt := hValueAt }

end Layout

/-- A request is written exactly if it has the key that it needs, its extras and its body can be
had, and all segments fit the fields that carry their lengths. What is written then is taken apart
by its own header into the segments that it was made of. -/
theorem Envelope.write_read_back (e : Envelope) (x : Exchange) :
    ((∃ frame, e.write x = .ok frame) ↔
      ((e.layout x).requiresKey = true → (e.layout x).key ≠ []) ∧
        ∃ extras body, (e.layout x).extras = .ok extras ∧ (e.layout x).body = .ok body ∧
          (e.layout x).key.length ≤ 65535 ∧ extras.length ≤ 255 ∧
          extras.length + (e.layout x).key.length + (e.layout x).path.length + body.length
            ≤ 2 ^ 32 - 1) ∧
      ∀ frame, e.write x = .ok frame →
        ∃ extras body header, (e.layout x).extras = .ok extras ∧ (e.layout x).body = .ok body ∧
          Header.parse frame = .ok header ∧
          (e.layout x).FoundBy x.correlationId x.cas extras body frame header := by
  constructor
  · constructor
    · rintro ⟨frame, hFrame⟩
      obtain ⟨extras, body, hFits, -⟩ := Layout.frame_eq_ok_iff.1 hFrame
      refine ⟨?_, extras, body, hFits.hasExtras, hFits.hasBody, hFits.keyLength,
        hFits.extrasLength, hFits.bodyLength⟩
      intro hRequires hEmpty
      apply hFits.hasKey
      rw [hRequires, hEmpty]
      rfl
    · rintro ⟨hKey, extras, body, hExtras, hBody, hKeyLength, hExtrasLength, hBodyLength⟩
      have hHasKey : ¬ ((e.layout x).requiresKey && (e.layout x).key.isEmpty) = true := by
        rw [Bool.and_eq_true, List.isEmpty_iff]
        rintro ⟨hRequires, hEmpty⟩
        exact hKey hRequires hEmpty
      exact ⟨_, Layout.frame_eq_ok_iff.2 ⟨extras, body,
        ⟨hHasKey, hExtras, hBody, hKeyLength, hExtrasLength, hBodyLength⟩, rfl⟩⟩
  · intro frame hFrame
    obtain ⟨extras, body, hFits, rfl⟩ := Layout.frame_eq_ok_iff.1 hFrame
    refine ⟨extras, body, _, hFits.hasExtras, hFits.hasBody, ?_, hFits.foundBy⟩
    simp only [List.append_assoc]
    exact Header.parse_toBytes _ _

/-- An element is appended to an array in an extended attribute: all segments are there. -/
theorem read_back_of_appended_element :
    let r : Request := .mutation
      { verb := .arrayAppend, path := "p", value := [0x5b, 0x31, 0x5d], pathFlags := ⟨4⟩
        docFlags := ⟨1⟩, expiry := 9, removeBrackets := true }
    let x : Exchange := { key := some "k", vbucket := some 3, correlationId := 7, cas := 5 }
    let frame : Bytes :=
      [128, 203, 0, 1, 8, 4, 0, 3, 0, 0, 0, 11, 0, 0, 0, 7, 0, 0, 0, 0, 0, 0, 0, 5, 0, 1, 4, 0, 0,
        0, 9, 1, 107, 112, 49]
    r.operation.write x = .ok frame ∧
      ∃ extras body header, (r.operation.layout x).extras = .ok extras ∧
        (r.operation.layout x).body = .ok body ∧ Header.parse frame = .ok header ∧
        (r.operation.layout x).FoundBy x.correlationId x.cas extras body frame header :=
  ⟨by rfl, (Envelope.write_read_back _ _).2 _ (by rfl)⟩

end StoreClient
