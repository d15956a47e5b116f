import StoreClient.Proofs.Request.Negotiation
import StoreClient.Proofs.Request.Report

/-!
# Frames in the wrong direction

The first byte of a frame tells a request from a response, and the two have a partition and a status
in the same place. Who reads a response asks the first byte only to be one of the two, and takes
everything from the bytes behind it. So a request is read as the response with the same bytes behind
the first: its partition counts as a status, and partition zero as success. A peer that sends a
request back as it came is the plainest case, because every length in the frame is right.
-/

namespace StoreClient

/-! ## Behind the first byte -/

section FirstByte

variable {first first' : UInt8} {tail : Bytes} {start : Nat}

theorem Bytes.slice_of_tail (hStart : 1 ≤ start) (length : Nat) :
    Bytes.slice (first :: tail) start length = Bytes.slice (first' :: tail) start length := by
  obtain ⟨start, rfl⟩ := Nat.exists_eq_add_of_le' hStart
  rfl

theorem segment_of_tail (hStart : 1 ≤ start) (length : Nat) :
    segment (first :: tail) start length = segment (first' :: tail) start length := by
  have hSlice : Bytes.slice (first :: tail) start length =
      Bytes.slice (first' :: tail) start length := Bytes.slice_of_tail hStart length
  unfold segment
  rw [hSlice]
  rfl

theorem Header.one_le_bodyOffset (h : Header) : 1 ≤ h.bodyOffset := by
  unfold Header.bodyOffset Header.size
  omega

theorem valueSegment_of_tail (h : Header) (magic : Magic) :
    valueSegment (first :: tail) h = valueSegment (first' :: tail) { h with magic } :=
  segment_of_tail h.one_le_bodyOffset h.valueLength

theorem readMutationToken_of_tail (vbucket : Option UInt16) (h : Header) (magic : Magic) :
    readMutationToken vbucket (first :: tail) h =
      readMutationToken vbucket (first' :: tail) { h with magic } := by
  have hExtras : segment (first :: tail) h.extrasOffset 16 =
      segment (first' :: tail) h.extrasOffset 16 :=
    segment_of_tail (Nat.le_add_left 1 23) 16
  unfold readMutationToken
  rw [hExtras]
  rfl

theorem Observe.parse_of_tail (h : Header) (magic : Magic) :
    Observe.parse (first :: tail) h = Observe.parse (first' :: tail) { h with magic } := by
  have hSegment : ∀ start length, 1 ≤ start →
      segment (first :: tail) start length = segment (first' :: tail) start length :=
    fun start length hStart => segment_of_tail hStart length
  have hBody := h.one_le_bodyOffset
  unfold Observe.parse
  dsimp only
  simp (disch := omega) only [hSegment]
  rfl

end FirstByte

/-! ## The same bytes in both directions -/

/-- The exchange without the bytes of the response that it has taken over. -/
def Exchange.withoutResponse (x : Exchange) : Exchange :=
  { x with header := none, response := none }

namespace Request

variable {r : Request} {x : Exchange} {h : Header} {rest : Bytes}

/-- The first byte of a response makes no difference to its value. -/
theorem parse_of_tail (r : Request) {first first' : UInt8} {tail : Bytes} (h : Header)
    (magic : Magic) :
    r.operation.parse (first :: tail) h = r.operation.parse (first' :: tail) { h with magic } := by
  have hValue : valueSegment (first :: tail) h = valueSegment (first' :: tail) { h with magic } :=
    valueSegment_of_tail h magic
  cases r with
  | counter c => exact congrArg (· >>= FieldType.read .uint64 .network) hValue
  | hello w =>
    have hAvailable : Hello.available (first :: tail) h =
        Hello.available (first' :: tail) { h with magic } :=
      Bytes.slice_of_tail h.one_le_bodyOffset h.valueLength
    exact congrArg (fun value => Except.ok (Hello.codes value)) hAvailable
  | observe => exact Observe.parse_of_tail h magic
  | observeSeqno o =>
    change ObserveSeqno.parse _ _ = ObserveSeqno.parse _ _
    unfold ObserveSeqno.parse
    rw [hValue]
  | lookup l => exact hValue
  | mutation m => exact hValue

/-- The first byte of a response makes no difference to its mutation token. -/
theorem readToken_of_tail (r : Request) (vbucket : Option UInt16) {first first' : UInt8}
    {tail : Bytes} (h : Header) (magic : Magic) :
    r.operation.readToken vbucket (first :: tail) h =
      r.operation.readToken vbucket (first' :: tail) { h with magic } := by
  cases r with
  | counter c => exact readMutationToken_of_tail vbucket h magic
  | mutation m => exact readMutationToken_of_tail vbucket h magic
  | hello | observe | observeSeqno | lookup => rfl

/-- What is taken over from a frame, and the value that comes of it, are the same in the other
direction. -/
theorem read_of_direction (r : Request) (x : Exchange) (h : Header) (rest : Bytes)
    (magic : Magic) :
    let after := r.operation.read x (h.toBytes ++ rest)
    let turned := r.operation.read x ({ h with magic }.toBytes ++ rest)
    after.withoutResponse = turned.withoutResponse ∧
      r.operation.parsed? after = r.operation.parsed? turned := by
  intro after turned
  have hParse : Header.parse (h.toBytes ++ rest) = .ok h := Header.parse_toBytes h rest
  have hParse' : Header.parse ({ h with magic }.toBytes ++ rest) = .ok { h with magic } :=
    Header.parse_toBytes _ rest
  have hToken : r.operation.readToken x.vbucket (h.toBytes ++ rest) h =
      r.operation.readToken x.vbucket ({ h with magic }.toBytes ++ rest) { h with magic } :=
    r.readToken_of_tail x.vbucket h magic
  have hValue : r.operation.parse (h.toBytes ++ rest) h =
      r.operation.parse ({ h with magic }.toBytes ++ rest) { h with magic } :=
    r.parse_of_tail h magic
  have hParsed : r.operation.parsed? (x.receive (h.toBytes ++ rest) h) =
      r.operation.parsed? (x.receive ({ h with magic }.toBytes ++ rest) { h with magic }) := by
    by_cases hSuccess : h.status = .success
    · rw [r.operation.parsed?_of_success (x := x.receive _ h) hSuccess rfl rfl,
        r.operation.parsed?_of_success (x := x.receive _ { h with magic }) hSuccess rfl rfl, hValue]
    · rw [r.operation.parsed?_of_not_success (x := x.receive _ h) hSuccess,
        r.operation.parsed?_of_not_success (x := x.receive _ { h with magic }) hSuccess]
  unfold after turned Envelope.read
  rw [hParse, hParse']
  simp only [← hToken]
  cases r.operation.readToken x.vbucket (h.toBytes ++ rest) h with
  | error fault => exact ⟨rfl, rfl⟩
  | ok token =>
    cases token with
    | none => exact ⟨rfl, hParsed⟩
    | some token => exact ⟨rfl, hParsed⟩

end Request

/-! ## When a frame counts as a success -/

/-- Only the status zero is a success. -/
theorem Status.ofCode_eq_success_iff (code : UInt16) : ofCode code = .success ↔ code = 0 := by
  constructor
  · intro hSuccess
    have hTable : ∀ entry ∈ table, entry.2 = .success → entry.1 = 0 := by decide
    unfold ofCode at hSuccess
    cases hLookup : table.lookup code with
    | none =>
      rw [hLookup] at hSuccess
      cases hSuccess
    | some status =>
      rw [hLookup] at hSuccess
      obtain ⟨before, after, hSplit, -⟩ := List.lookup_eq_some_iff.1 hLookup
      exact hTable (code, status) (hSplit ▸ List.mem_append_right _ List.mem_cons_self) hSuccess
  · rintro rfl
    rfl

namespace Request

/-- Whether the responses to a request carry a mutation token. -/
def HasToken : Request → Prop
  | .counter _ | .mutation _ => True
  | .hello _ | .observe | .observeSeqno _ | .lookup _ => False

/-- Whether the mutation token in the extras of a frame is cut off: it is asked for, the header
declares extras that are long enough for it, and the frame ends before it does. -/
def CutsOffToken (r : Request) (vbucket : Option UInt16) (h : Header) (rest : Bytes) : Prop :=
  r.HasToken ∧ vbucket ≠ none ∧ 16 ≤ h.extrasLength.toNat ∧ rest.length < 16

variable {r : Request} {x : Exchange} {h : Header} {rest : Bytes}

theorem not_exists_error {α : Type} (a : α) :
    ¬ ∃ fault : Fault, (Except.ok a : Except Fault α) = .error fault := by
  rintro ⟨fault, hError⟩
  cases hError

/-- A mutation token cannot be read exactly if the frame ends before it does. -/
theorem readToken_eq_error_iff (r : Request) (vbucket : Option UInt16) (h : Header) (rest : Bytes) :
    (∃ fault, r.operation.readToken vbucket (h.toBytes ++ rest) h = .error fault) ↔
      r.CutsOffToken vbucket h rest := by
  have hToken : (∃ fault, readMutationToken vbucket (h.toBytes ++ rest) h = .error fault) ↔
      vbucket ≠ none ∧ 16 ≤ h.extrasLength.toNat ∧ rest.length < 16 := by
    have hLength : (h.toBytes ++ rest).length = h.extrasOffset + rest.length := by
      rw [List.length_append, Header.length_toBytes]
      rfl
    unfold readMutationToken
    cases vbucket with
    | none => simp
    | some vbucket =>
      by_cases hFew : h.extrasLength < 16
      · have hFew' : h.extrasLength.toNat < 16 := hFew
        simp [hFew, Nat.not_le_of_lt hFew']
      · have hMany : 16 ≤ h.extrasLength.toNat := Nat.le_of_not_lt hFew
        by_cases hShort : rest.length < 16
        · simp [hFew, segment, hLength, hShort, hMany, Except.map]
        · simp [hFew, segment, hLength, hShort, Except.map]
  unfold CutsOffToken
  cases r with
  | counter c => exact hToken.trans (and_iff_right trivial).symm
  | mutation m => exact hToken.trans (and_iff_right trivial).symm
  | hello | observe | observeSeqno | lookup =>
    exact iff_of_false (not_exists_error none) fun hCut => hCut.1

/-- Bytes with a header count as a success exactly if the place of the status holds zero and the
token can be read. -/
theorem succeeded_iff (r : Request) (x : Exchange) (h : Header) (rest : Bytes) :
    (r.operation.read x (h.toBytes ++ rest)).succeeded = true ↔
      h.statusOrVBucket = 0 ∧ ¬ r.CutsOffToken x.vbucket h rest := by
  have hParse : Header.parse (h.toBytes ++ rest) = .ok h := Header.parse_toBytes h rest
  have hStatus : h.status.isSuccess = true ↔ h.statusOrVBucket = 0 := by
    unfold Status.isSuccess
    rw [beq_iff_eq]
    exact Status.ofCode_eq_success_iff _
  rw [← r.readToken_eq_error_iff x.vbucket h rest, ← hStatus]
  unfold Envelope.read
  rw [hParse]
  simp only
  cases r.operation.readToken x.vbucket (h.toBytes ++ rest) h with
  | error fault =>
    refine iff_of_false Bool.false_ne_true ?_
    rintro ⟨-, hNot⟩
    exact hNot ⟨fault, rfl⟩
  | ok token =>
    have hRead : ¬ ∃ fault : Fault, Except.ok token = .error fault := not_exists_error token
    cases token with
    | none => exact ⟨fun hSuccess => ⟨hSuccess, hRead⟩, And.left⟩
    | some token => exact ⟨fun hSuccess => ⟨hSuccess, hRead⟩, And.left⟩

theorem succeeded_eq_true_iff (y : Exchange) : y.succeeded = true ↔ y.status = .success :=
  beq_iff_eq

theorem value_of_not_succeeded {y : Exchange} (h : y.succeeded = false) :
    r.operation.value y = r.operation.default := by
  have hFailed : y.status ≠ .success := by
    rw [Ne, ← succeeded_eq_true_iff, h]
    exact Bool.false_ne_true
  unfold Operation.value
  rw [r.operation.parsed?_of_not_success hFailed]

/-- After a success the value is parsed from the response that was read. -/
theorem parsed?_of_succeeded {frame : Bytes} (hParse : Header.parse frame = .ok h)
    (hSuccess : (r.operation.read x frame).succeeded = true) :
    r.operation.parsed? (r.operation.read x frame) = some (r.operation.parse frame h) := by
  rw [succeeded_eq_true_iff] at hSuccess
  rcases r.read_cases x frame with
    ⟨fault, hFailed, -⟩ | ⟨h', hParse', -, -, hResponse, hHeader⟩
  · cases hFailed.symm.trans hSuccess
  · obtain rfl : h' = h := Except.ok.inj (hParse'.symm.trans hParse)
    exact r.operation.parsed?_of_success hSuccess hResponse hHeader

end Request

/-! ## Requests that come back -/

namespace Observe

theorem keyLength_of_body {x : Exchange} {body : Bytes} (hBody : Observe.body x = .ok body) :
    x.keyBytes.length ≤ maxKeyLength := by
  unfold Observe.body at hBody
  split at hBody
  · cases hBody
  · split at hBody
    · cases hBody
    · obtain ⟨u, hLength, -⟩ := bind_eq_ok_iff.1 hBody
      exact checkLength_eq_ok_iff.1 hLength

/-- A question about a key is no report about it: it ends behind the key. -/
theorem parse_own_body {x : Exchange} {h : Header} {body : Bytes}
    (hBody : Observe.body x = .ok body) (hDeclares : h.Declares [] [] body) :
    ∃ fault, Observe.parse (h.frameOf [] [] body) h = .error fault := by
  have hKey := keyLength_of_body hBody
  obtain ⟨-, vbucket, -, rfl⟩ := parts_of_body hBody
  generalize hWord : UInt16.ofNat x.keyBytes.length = length at hDeclares
  have hLength : length.toNat = x.keyBytes.length := by
    rw [← hWord]
    exact UInt16.toNat_ofNat_of_lt' (Nat.lt_succ_of_le hKey)
  have hAt : segment
      (h.frameOf [] [] (Bytes.ofUInt16 vbucket ++ Bytes.ofUInt16 length ++ x.keyBytes))
      (h.bodyOffset + 2) 2 = .ok (Bytes.ofUInt16 length) :=
    hDeclares.segment_value (Bytes.ofUInt16 vbucket) (List.prefix_append _ _) (by simp) (by simp)
  generalize hFrame :
    h.frameOf [] [] (Bytes.ofUInt16 vbucket ++ Bytes.ofUInt16 length ++ x.keyBytes) = frame at hAt
  have hReported : reportedKeyLength frame h = x.keyBytes.length := by
    unfold reportedKeyLength
    rw [Bytes.uint16At_of_slice (segment_eq_ok_iff.1 hAt).2, hLength]
  have hEnd : frame.length = h.bodyOffset + 4 + x.keyBytes.length := by
    have hExtras := hDeclares.extrasLength
    have hNoKey := hDeclares.keyLength
    rw [← hFrame]
    simp only [Header.frameOf, List.length_append, Header.length_toBytes, Header.bodyOffset,
      Bytes.length_ofUInt16, List.length_nil] at hExtras hNoKey ⊢
    omega
  cases hParse : Observe.parse frame h with
  | error fault => exact ⟨fault, rfl⟩
  | ok report =>
    have hSize : Header.size ≤ frame.length := by
      rw [hEnd, Header.bodyOffset]
      omega
    obtain ⟨hLess, -⟩ := (exists_parse_iff hSize).1 ⟨report, hParse⟩
    unfold reportEnd at hLess
    omega

end Observe

namespace Request

variable {r : Request} {x : Exchange} {h : Header}

/-- What a request makes of its own frame: a negotiation is granted what it wishes for, and a path
comes back as the value. The other frames hold too little for a value. -/
def ownValue : (r : Request) → r.Value
  | .counter _ => (0 : UInt64)
  | .hello w => w.features
  | .observe => ({} : KeyReport)
  | .observeSeqno _ => ({} : PartitionReport)
  | .lookup l => Utf8.encode l.path
  | .mutation m => Utf8.encode m.path ++ m.body

/-- The frame of a request has the lengths that its header declares. -/
theorem exists_declares {frame : Bytes} (hWrite : r.operation.write x = .ok frame) :
    ∃ (extras body : Bytes) (h : Header), (r.operation.layout x).Fits extras body ∧
      h.statusOrVBucket = (r.operation.layout x).vbucket.getD 0 ∧
      h.Declares extras (r.operation.layout x).key ((r.operation.layout x).path ++ body) ∧
      h.frameOf extras (r.operation.layout x).key ((r.operation.layout x).path ++ body) =
        frame := by
  obtain ⟨extras, body, hFits, rfl⟩ := Layout.frame_eq_ok_iff.1 hWrite
  refine ⟨extras, body, (r.operation.layout x).header x.correlationId x.cas extras body, hFits, rfl,
    ⟨hFits.extrasLength_header.symm, hFits.keyLength_header.symm, ?_⟩, ?_⟩
  · rw [hFits.bodyLength_header, List.length_append]
    omega
  · simp only [Header.frameOf, List.append_assoc]

/-- The value of a frame that a request wrote itself. -/
theorem parse_own_frame {extras body : Bytes} (hFits : (r.operation.layout x).Fits extras body)
    (hDeclares :
      h.Declares extras (r.operation.layout x).key ((r.operation.layout x).path ++ body)) :
    let frame := h.frameOf extras (r.operation.layout x).key ((r.operation.layout x).path ++ body)
    r.operation.parse frame h = .ok r.ownValue ∨
      r.ownValue = r.operation.default ∧ ∃ fault, r.operation.parse frame h = .error fault := by
  intro frame
  have hValue : valueSegment frame h = .ok ((r.operation.layout x).path ++ body) :=
    hDeclares.valueSegment_eq
  have hBody := hFits.hasBody
  cases r with
  | counter c =>
    -- no body, so no number
    cases hBody
    exact Or.inr ⟨rfl, .incompleteFrame 8 0, bind_of_ok hValue⟩
  | hello w =>
    cases hBody
    left
    change Except.ok (Hello.codes (Hello.available frame h)) = _
    rw [Hello.available_of_valueSegment hValue]
    exact congrArg Except.ok (Hello.codes_body w)
  | observe =>
    refine Or.inr ⟨rfl, ?_⟩
    cases hFits.hasExtras
    exact Observe.parse_own_body hBody hDeclares
  | observeSeqno o =>
    cases hBody
    have hShort : (Bytes.ofUInt64 o.token.uuid).length <
        ObserveSeqno.expectedLength (Bytes.ofUInt64 o.token.uuid) := by
      rw [Bytes.length_ofUInt64]
      unfold ObserveSeqno.expectedLength
      split <;> decide
    exact Or.inr ⟨rfl, _, ObserveSeqno.parse_of_short hValue hShort⟩
  | lookup l =>
    cases hBody
    left
    refine Eq.trans hValue ?_
    exact congrArg Except.ok (List.append_nil _)
  | mutation m =>
    cases hBody
    exact Or.inl hValue

/-- A request that comes back counts as a success exactly if its partition is zero, and its value is
then its own. -/
theorem read_own_frame {frame : Bytes} (hWrite : r.operation.write x = .ok frame) :
    let back := r.operation.read x frame
    (back.succeeded = true ↔ (r.operation.layout x).vbucket.getD 0 = 0) ∧
      (back.succeeded = true → r.operation.value back = r.ownValue) := by
  intro back
  obtain ⟨extras, body, h, hFits, hVBucket, hDeclares, rfl⟩ := exists_declares hWrite
  have hFrame : h.frameOf extras (r.operation.layout x).key ((r.operation.layout x).path ++ body) =
      h.toBytes ++ (extras ++ (r.operation.layout x).key ++
        ((r.operation.layout x).path ++ body)) := by
    simp only [Header.frameOf, List.append_assoc]
  have hWhole : ¬ r.CutsOffToken x.vbucket h
      (extras ++ (r.operation.layout x).key ++ ((r.operation.layout x).path ++ body)) := by
    rintro ⟨-, -, hLong, hShort⟩
    rw [← hDeclares.extrasLength] at hLong
    simp only [List.length_append] at hShort
    omega
  have hIff : back.succeeded = true ↔ (r.operation.layout x).vbucket.getD 0 = 0 := by
    unfold back
    rw [hFrame, r.succeeded_iff, hVBucket]
    exact and_iff_left hWhole
  refine ⟨hIff, fun hSuccess => ?_⟩
  have hParsed := parsed?_of_succeeded Header.parse_frameOf hSuccess
  unfold Operation.value
  rw [hParsed]
  rcases parse_own_frame hFits hDeclares with hValue | ⟨hOwn, fault, hFault⟩
  · rw [hValue]
  · rw [hFault, hOwn]

/-- A request frame, with any header fields and any bytes behind them, is refused -- no success, and
no value but the default -- exactly if its partition is not zero or its mutation token is cut off.
It is read as the response with the same bytes behind the first. So a request that comes back as it
was written counts as a success if its partition is zero, and then has its own path and body for a
value. -/
theorem request_frame_refused_iff (r : Request) (x : Exchange) :
    (∀ (h : Header) (rest : Bytes),
      let after := r.operation.read x ({ h with magic := .request }.toBytes ++ rest)
      let answer := r.operation.read x ({ h with magic := .response }.toBytes ++ rest)
      (after.succeeded = false ∧ r.operation.value after = r.operation.default ↔
          h.statusOrVBucket ≠ 0 ∨ r.CutsOffToken x.vbucket h rest) ∧
        after.withoutResponse = answer.withoutResponse ∧
        r.operation.value after = r.operation.value answer) ∧
      ∀ frame, r.operation.write x = .ok frame →
        let back := r.operation.read x frame
        (back.succeeded = true ↔ (r.operation.layout x).vbucket.getD 0 = 0) ∧
          (back.succeeded = true → r.operation.value back = r.ownValue) := by
  refine ⟨fun h rest => ?_, fun frame hWrite => read_own_frame hWrite⟩
  intro after answer
  obtain ⟨hSame, hParsed⟩ := r.read_of_direction x { h with magic := .request } rest .response
  have hIff : after.succeeded = true ↔
      h.statusOrVBucket = 0 ∧ ¬ r.CutsOffToken x.vbucket h rest := r.succeeded_iff x _ rest
  refine ⟨⟨?_, ?_⟩, hSame, ?_⟩
  · rintro ⟨hRefused, -⟩
    by_contra hNot
    rw [not_or, not_ne_iff] at hNot
    exact Bool.false_ne_true (hRefused.symm.trans (hIff.2 hNot))
  · intro hCondition
    have hRefused : after.succeeded = false := by
      rw [← Bool.not_eq_true, hIff]
      rintro ⟨hZero, hWhole⟩
      exact hCondition.elim (fun hNot => hNot hZero) hWhole
    exact ⟨hRefused, value_of_not_succeeded hRefused⟩
  · unfold Operation.value
    rw [hParsed]

/-- A mutation that comes back succeeds with its path and its value. The frame with another
partition is refused, and so is one that ends within its token. -/
theorem mutation_comes_back :
    let r : Request := .mutation { verb := .upsert, path := "p", value := [0x31] }
    let x : Exchange := { key := some "k", vbucket := some 0, correlationId := 7 }
    let h : Header :=
      { magic := .request, opcode := 0xc8, keyLength := 1, extrasLength := 16, datatype := 0
        statusOrVBucket := 0, bodyLength := 17, correlationId := 7, cas := 0 }
    let frame : Bytes :=
      [0x80, 0xc8, 0, 1, 3, 0, 0, 0, 0, 0, 0, 6, 0, 0, 0, 7, 0, 0, 0, 0, 0, 0, 0, 0, 0, 1, 0, 0x6b,
        0x70, 0x31]
    r.operation.write x = .ok frame ∧
      (r.operation.read x frame).succeeded = true ∧
      r.operation.value (r.operation.read x frame) = ([0x70, 0x31] : Bytes) ∧
      (r.operation.read x ({ h with statusOrVBucket := 3 }.toBytes ++ [1, 2])).succeeded = false ∧
      (r.operation.read x (h.toBytes ++ [1, 2])).succeeded = false := by
  intro r x h frame
  obtain ⟨hForeign, hOwn⟩ := request_frame_refused_iff r x
  have hWrite : r.operation.write x = .ok frame := by
    unfold r x frame
    rfl
  have hSuccess : (r.operation.read x frame).succeeded = true := (hOwn frame hWrite).1.2 rfl
  have hPartition := (hForeign { h with statusOrVBucket := 3 } [1, 2]).1.2 (Or.inl (by decide))
  have hToken :=
    (hForeign h [1, 2]).1.2 (Or.inr ⟨trivial, Option.some_ne_none _, by decide, by decide⟩)
  exact ⟨hWrite, hSuccess, ((hOwn frame hWrite).2 hSuccess).trans (by decide), hPartition.1,
    hToken.1⟩

/-- A question about a path that comes back is answered with the path. -/
theorem path_taken_for_value :
    let r : Request := .lookup { verb := .get, path := "a.b" }
    let x := Exchange.about "doc"
    let frame : Bytes :=
      [0x80, 0xc5, 0, 3, 3, 0, 0, 0, 0, 0, 0, 9, 0, 0, 0, 0, 0, 0, 0, 0, 0, 0, 0, 0, 0, 3, 0, 0x64,
        0x6f, 0x63, 0x61, 0x2e, 0x62]
    r.operation.write x = .ok frame ∧
      (∃ h, Header.parse frame = .ok h ∧ h.magic = .request) ∧
      (r.operation.read x frame).succeeded = true ∧
      r.operation.value (r.operation.read x frame) = ([0x61, 0x2e, 0x62] : Bytes) ∧
      r.operation.value (r.operation.read x frame) ≠ r.operation.default := by
  refine ⟨by rfl, ⟨_, rfl, rfl⟩, by rfl, by rfl, ?_⟩
  intro hDefault
  have hValue : ([0x61, 0x2e, 0x62] : Bytes) = [] := hDefault
  cases hValue

end Request

end StoreClient
