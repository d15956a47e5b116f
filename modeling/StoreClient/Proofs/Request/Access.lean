import StoreClient.Proofs.Request.Layout
import StoreClient.Request.Basic

/-!
# Accesses within bounds

The readers of responses take bytes at places that a header names, whatever the frame is. Here they
are written with accesses that are checked: a byte, a rest or a part of a byte string that is not
there has no value at all, which is another thing than a fault. The checked readers have a value for
all byte strings, and it is that of the readers: no access ever leaves the byte string.
-/

namespace StoreClient

/-- A reading whose accesses are checked: none if one of them is out of bounds, else a fault or a
value. -/
abbrev Checked (α : Type) := ExceptT Fault Option α

namespace Checked

variable {α β : Type}

/-- The outcome of a reading that looks at the bounds itself. -/
def of (outcome : Except Fault α) : Checked α := ExceptT.mk (some outcome)

/-- An access that is out of bounds. -/
def outside : Checked α := ExceptT.mk none

/-- The byte at a position. -/
def byteAt (bytes : Bytes) (i : Nat) : Checked UInt8 :=
  match bytes[i]? with
  | some b => of (.ok b)
  | none => outside

/-- The bytes from a position on. -/
def suffix (bytes : Bytes) (start : Nat) : Checked Bytes :=
  if start ≤ bytes.length then of (.ok (bytes.drop start)) else outside

/-- The bytes from one position up to another. -/
def between (bytes : Bytes) (start stop : Nat) : Checked Bytes :=
  if start ≤ stop ∧ stop ≤ bytes.length then of (.ok (bytes.slice start (stop - start)))
  else outside

/-- The field at the start of a span. -/
def field (t : FieldType) (span : Bytes) : Checked t.Value := of (t.read .network span)

theorem of_ok_bind (a : α) (next : α → Checked β) : (of (.ok a) >>= next) = next a := rfl

theorem run_of_bind (outcome : Except Fault α) (next : Except Fault α → Option β) :
    ((of outcome).run >>= next) = next outcome := rfl

theorem byteAt_of_lt {bytes : Bytes} {i : Nat} (h : i < bytes.length) :
    byteAt bytes i = of (.ok (bytes.getD i 0)) := by
  have hByte : bytes[i]? = some bytes[i] := List.getElem?_eq_getElem h
  unfold byteAt
  rw [List.getD_eq_getElem?_getD, hByte]
  rfl

theorem suffix_of_le {bytes : Bytes} {start : Nat} (h : start ≤ bytes.length) :
    suffix bytes start = of (.ok (bytes.drop start)) := if_pos h

theorem field_of_le {t : FieldType} {span : Bytes} (h : t.width ≤ span.length) :
    field t span = of (.ok (t.ofWord (Bytes.ofBigEndian (span.take t.width)))) := by
  unfold field FieldType.read
  rw [if_neg (by omega)]
  rfl

theorem field_uint8 {span : Bytes} (h : span.length = 1) :
    field .uint8 span = of (.ok (span.getD 0 0)) := by
  obtain ⟨b, rfl⟩ := List.length_eq_one_iff.1 h
  have hByte : UInt8.ofNat (Bytes.ofBigEndian [b]) = b := by
    unfold Bytes.ofBigEndian
    rw [List.foldl_cons, List.foldl_nil, Nat.zero_mul, Nat.zero_add, UInt8.ofNat_toNat]
  have hWidth : FieldType.width .uint8 ≤ [b].length := Nat.le_refl 1
  rw [field_of_le hWidth]
  exact congrArg (fun v : UInt8 => of (.ok v)) hByte

theorem field_uint16 {span : Bytes} (h : 2 ≤ span.length) :
    field .uint16 span = of (.ok (span.uint16At 0)) := field_of_le h

theorem field_uint32 {span : Bytes} (h : 4 ≤ span.length) :
    field .uint32 span = of (.ok (span.uint32At 0)) := field_of_le h

theorem field_uint64 {span : Bytes} (h : 8 ≤ span.length) :
    field .uint64 span = of (.ok (span.uint64At 0)) := field_of_le h

/-- The field at a position. -/
def fieldAt (t : FieldType) (bytes : Bytes) (start : Nat) : Checked t.Value := do
  field t (← suffix bytes start)

/-- A field that is within the bytes is read from where it is. -/
theorem fieldAt_of_le {t : FieldType} {bytes : Bytes} {start : Nat}
    (h : start + t.width ≤ bytes.length) :
    fieldAt t bytes start =
      of (.ok (t.ofWord (Bytes.ofBigEndian (bytes.slice start t.width)))) := by
  have hSpan : t.width ≤ (bytes.drop start).length := by
    rw [List.length_drop]
    omega
  unfold fieldAt
  rw [suffix_of_le (by omega), of_ok_bind, field_of_le hSpan]
  rfl

theorem fieldAt_uint16 {bytes : Bytes} {start : Nat} (h : start + 2 ≤ bytes.length) :
    fieldAt .uint16 bytes start = of (.ok (bytes.uint16At start)) := fieldAt_of_le h

theorem fieldAt_uint32 {bytes : Bytes} {start : Nat} (h : start + 4 ≤ bytes.length) :
    fieldAt .uint32 bytes start = of (.ok (bytes.uint32At start)) := fieldAt_of_le h

theorem fieldAt_uint64 {bytes : Bytes} {start : Nat} (h : start + 8 ≤ bytes.length) :
    fieldAt .uint64 bytes start = of (.ok (bytes.uint64At start)) := fieldAt_of_le h

theorem except_map_eq_bind (x : Except Fault α) (f : α → β) :
    x.map f = x >>= fun a => .ok (f a) := by
  cases x <;> rfl

/-- A checked reading that goes on from a segment follows the reading that goes on from it, if it
does so for all bytes of the right length. -/
theorem of_segment_bind {frame : Bytes} {start length : Nat} {next : Bytes → Checked β}
    {next' : Bytes → Except Fault β}
    (h : ∀ bytes : Bytes, bytes.length = length → next bytes = of (next' bytes)) :
    (of (segment frame start length) >>= next) = of (segment frame start length >>= next') := by
  unfold segment
  by_cases hShort : frame.length < start + length
  · rw [if_pos hShort]
    rfl
  · rw [if_neg hShort]
    apply h
    unfold Bytes.slice
    rw [List.length_take, List.length_drop]
    omega

end Checked

open Checked

/-! ## Headers -/

/-- The header at the start of a frame, read with checked accesses. -/
def Header.checkedParse (frame : Bytes) : Checked Header :=
  if frame.length < Header.size then of (.error (.incompleteFrame Header.size frame.length))
  else do
    let magic ← of (Magic.ofCode (← byteAt frame 0))
    let opcode ← byteAt frame 1
    let keyLength ← fieldAt .uint16 frame 2
    let extrasLength ← byteAt frame 4
    let datatype ← byteAt frame 5
    let statusOrVBucket ← fieldAt .uint16 frame 6
    let bodyLength ← fieldAt .uint32 frame 8
    let correlationId ← fieldAt .uint32 frame 12
    let cas ← fieldAt .uint64 frame 16
    return {
      magic, opcode, keyLength, extrasLength, datatype, statusOrVBucket, bodyLength, correlationId,
      cas }

theorem Header.checkedParse_eq (frame : Bytes) :
    Header.checkedParse frame = of (Header.parse frame) := by
  unfold Header.checkedParse Header.parse
  by_cases hShort : frame.length < Header.size
  · rw [if_pos hShort, if_pos hShort]
  · have hSize : 24 ≤ frame.length := Nat.le_of_not_lt hShort
    rw [if_neg hShort, if_neg hShort, byteAt_of_lt (by omega), of_ok_bind]
    cases Magic.ofCode (frame.getD 0 0) with
    | error fault => rfl
    | ok magic =>
      rw [of_ok_bind, byteAt_of_lt (by omega), of_ok_bind, fieldAt_uint16 (by omega), of_ok_bind,
        byteAt_of_lt (by omega), of_ok_bind, byteAt_of_lt (by omega), of_ok_bind,
        fieldAt_uint16 (by omega), of_ok_bind, fieldAt_uint32 (by omega), of_ok_bind,
        fieldAt_uint32 (by omega), of_ok_bind, fieldAt_uint64 (by omega), of_ok_bind]
      rfl

/-! ## Values -/

/-- The mutation token of a response, read with checked accesses. -/
def checkedToken (vbucket : Option UInt16) (frame : Bytes) (h : Header) :
    Checked (Option MutationToken) :=
  match vbucket with
  | none => of (.ok none)
  | some vbucket =>
    if h.extrasLength < 16 then of (.ok none)
    else do
      let extras ← of (segment frame h.extrasOffset 16)
      let uuid ← field .uint64 extras
      let seqno ← fieldAt .uint64 extras 8
      return some { vbucket, uuid, seqno }

/-- Reading a mutation token accesses nothing out of bounds. -/
theorem checkedToken_eq (vbucket : Option UInt16) (frame : Bytes) (h : Header) :
    checkedToken vbucket frame h = of (readMutationToken vbucket frame h) := by
  unfold checkedToken readMutationToken
  cases vbucket with
  | none => rfl
  | some vbucket =>
    by_cases hFew : h.extrasLength < 16
    · simp only [if_pos hFew]
    · simp only [if_neg hFew]
      rw [except_map_eq_bind]
      refine of_segment_bind fun extras hExtras => ?_
      rw [field_uint64 (by omega), of_ok_bind, fieldAt_uint64 (by omega), of_ok_bind]
      rfl

namespace Counter

/-- The new value of a counter, read with checked accesses. -/
def checkedParse (frame : Bytes) (h : Header) : Checked UInt64 := do
  field .uint64 (← of (valueSegment frame h))

theorem checkedParse_eq (frame : Bytes) (h : Header) :
    checkedParse frame h = of (Counter.parse frame h) := by
  unfold checkedParse Counter.parse
  exact of_segment_bind fun value _ => rfl

end Counter

namespace Hello

/-- The pairs of bytes that a value is made of; an odd byte at the end is ignored. -/
def pairs : Bytes → List Bytes
  | first :: second :: rest => [first, second] :: pairs rest
  | _ => []

/-- The feature codes of a negotiation, read with checked accesses, each from a pair of bytes. -/
def checkedParse (frame : Bytes) (h : Header) : Checked (List UInt16) := do
  let start := min h.bodyOffset frame.length
  let stop := min (start + h.valueLength) frame.length
  (pairs (← between frame start stop)).mapM (field .uint16)

/-- Pair by pair, the codes of a negotiation are read within the bytes. -/
theorem mapM_pairs (value : Bytes) :
    (pairs value).mapM (field .uint16) = of (.ok (codes value)) := by
  induction value using pairs.induct with
  | case1 first second rest ih =>
    have hPair : 2 ≤ [first, second].length := Nat.le_refl 2
    rw [pairs, List.mapM_cons, field_uint16 hPair, of_ok_bind, ih]
    rfl
  | case2 value hShort =>
    have hPairs : pairs value = [] := by
      rw [pairs]
      exact hShort
    have hCodes : codes value = [] := by
      rw [codes]
      exact hShort
    rw [hPairs, hCodes]
    rfl

/-- What is there of the value of a negotiation is within the frame. -/
theorem between_available (frame : Bytes) (h : Header) :
    between frame (min h.bodyOffset frame.length)
        (min (min h.bodyOffset frame.length + h.valueLength) frame.length) =
      of (.ok (available frame h)) := by
  unfold between available Bytes.slice
  rw [if_pos (by omega)]
  by_cases hOffset : h.bodyOffset ≤ frame.length
  · rw [Nat.min_eq_left hOffset, List.take_eq_take_iff.2]
    rw [List.length_drop]
    omega
  · have hStart : min h.bodyOffset frame.length = frame.length := Nat.min_eq_right (by omega)
    rw [hStart, List.drop_length, List.drop_of_length_le (by omega), List.take_nil, List.take_nil]

theorem checkedParse_eq (frame : Bytes) (h : Header) :
    checkedParse frame h = of (Hello.parse frame h) := by
  unfold checkedParse Hello.parse
  simp only [between_available, of_ok_bind]
  exact mapM_pairs (available frame h)

end Hello

namespace Observe

/-- The report on a key, read with checked accesses, one after the other. -/
def checkedParse (frame : Bytes) (h : Header) : Checked KeyReport := do
  let persistStat ← field .uint32 (← of (segment frame 16 4))
  let replStat ← field .uint32 (← of (segment frame 20 4))
  let start := h.bodyOffset
  let vbucket ← field .uint16 (← of (segment frame start 2))
  let keyLength ← field .uint16 (← of (segment frame (start + 2) 2))
  let length := UInt16.toNat keyLength
  let key ← of (readText (← of (segment frame (start + 4) length)))
  let state ← field .uint8 (← of (segment frame (start + 4 + length) 1))
  let cas ← field .uint64 (← of (segment frame (start + 5 + length) 8))
  return { persistStat, replStat, vbucket, key, state := KeyState.ofCode state, cas }

theorem checkedParse_eq (frame : Bytes) (h : Header) :
    checkedParse frame h = of (Observe.parse frame h) := by
  unfold checkedParse Observe.parse
  refine of_segment_bind fun persist hPersist => ?_
  rw [field_uint32 (by omega), of_ok_bind]
  refine of_segment_bind fun repl hRepl => ?_
  rw [field_uint32 (by omega), of_ok_bind]
  refine of_segment_bind fun vbucket hVBucket => ?_
  rw [field_uint16 (by omega), of_ok_bind]
  refine of_segment_bind fun keyLength hKeyLength => ?_
  rw [field_uint16 (by omega), of_ok_bind]
  refine of_segment_bind fun keyBytes _ => ?_
  cases readText keyBytes with
  | error fault => rfl
  | ok key =>
    refine of_segment_bind fun state hState => ?_
    rw [field_uint8 hState, of_ok_bind]
    refine of_segment_bind fun cas hCas => ?_
    rw [field_uint64 (by omega), of_ok_bind]
    rfl

end Observe

namespace ObserveSeqno

/-- The report on a partition, read with checked accesses. How long it has to be depends on its
first byte. -/
def checkedParse (frame : Bytes) (h : Header) : Checked PartitionReport := do
  let value ← of (valueSegment frame h)
  let isHardFailover := value.head? == some 1
  let expected := if isHardFailover then hardFailoverLength else noFailoverLength
  if value.length < expected then of (.error (.incompleteFrame expected value.length))
  else do
    let vbucket ← fieldAt .uint16 value 1
    let uuid ← fieldAt .uint64 value 3
    let lastPersistedSeqno ← fieldAt .uint64 value 11
    let currentSeqno ← fieldAt .uint64 value 19
    let report : PartitionReport :=
      { isHardFailover, vbucket, uuid, lastPersistedSeqno, currentSeqno }
    if isHardFailover then
      let oldUuid ← fieldAt .uint64 value 27
      let lastSeqnoReceived ← fieldAt .uint64 value 35
      return { report with oldUuid, lastSeqnoReceived }
    else return report

theorem checkedParse_eq (frame : Bytes) (h : Header) :
    checkedParse frame h = of (ObserveSeqno.parse frame h) := by
  unfold checkedParse ObserveSeqno.parse
  refine of_segment_bind fun value _ => ?_
  simp only
  generalize (value.head? == some 1) = isHardFailover
  cases isHardFailover with
  | true =>
    simp only [if_true]
    by_cases hShort : value.length < hardFailoverLength
    · rw [if_pos hShort, if_pos hShort]
    · have hLength : 43 ≤ value.length := Nat.le_of_not_lt hShort
      rw [if_neg hShort, if_neg hShort, fieldAt_uint16 (by omega), of_ok_bind,
        fieldAt_uint64 (by omega), of_ok_bind, fieldAt_uint64 (by omega), of_ok_bind,
        fieldAt_uint64 (by omega), of_ok_bind, fieldAt_uint64 (by omega), of_ok_bind,
        fieldAt_uint64 (by omega), of_ok_bind]
      rfl
  | false =>
    simp only [if_false, Bool.false_eq_true]
    by_cases hShort : value.length < noFailoverLength
    · rw [if_pos hShort, if_pos hShort]
    · have hLength : 27 ≤ value.length := Nat.le_of_not_lt hShort
      rw [if_neg hShort, if_neg hShort, fieldAt_uint16 (by omega), of_ok_bind,
        fieldAt_uint64 (by omega), of_ok_bind, fieldAt_uint64 (by omega), of_ok_bind,
        fieldAt_uint64 (by omega), of_ok_bind]
      rfl

end ObserveSeqno

namespace Request

/-- The value of a successful response, read with checked accesses. -/
def checkedParse : (r : Request) → Bytes → Header → Checked r.Value
  | .counter _ => Counter.checkedParse
  | .hello _ => Hello.checkedParse
  | .observe => Observe.checkedParse
  | .observeSeqno _ => ObserveSeqno.checkedParse
  | .lookup _ => fun frame h => of (valueSegment frame h)
  | .mutation _ => fun frame h => of (valueSegment frame h)

theorem checkedParse_eq (r : Request) (frame : Bytes) (h : Header) :
    r.checkedParse frame h = of (r.operation.parse frame h) := by
  cases r with
  | counter c => exact Counter.checkedParse_eq frame h
  | hello w => exact Hello.checkedParse_eq frame h
  | observe => exact Observe.checkedParse_eq frame h
  | observeSeqno o => exact ObserveSeqno.checkedParse_eq frame h
  | lookup l => rfl
  | mutation m => rfl

/-- What is taken from the extras of a response, read with checked accesses: the mutation token,
after requests that write. -/
def checkedExtras (r : Request) (vbucket : Option UInt16) (frame : Bytes) (h : Header) :
    Checked (Option MutationToken) :=
  match r with
  | .counter _ | .mutation _ => checkedToken vbucket frame h
  | _ => of (.ok none)

theorem checkedExtras_eq (r : Request) (vbucket : Option UInt16) (frame : Bytes) (h : Header) :
    r.checkedExtras vbucket frame h = of (r.operation.readToken vbucket frame h) := by
  cases r with
  | counter c => exact checkedToken_eq vbucket frame h
  | mutation m => exact checkedToken_eq vbucket frame h
  | hello | observe | observeSeqno | lookup => rfl

/-- Takes over a response with checked accesses; none if one of them is out of bounds. -/
def checkedRead (r : Request) (x : Exchange) (frame : Bytes) : Option Exchange := do
  match ← (Header.checkedParse frame).run with
  | .error fault => return x.fail fault
  | .ok h =>
    match ← (r.checkedExtras x.vbucket frame h).run with
    | .error fault => return (x.receive frame h).fail fault
    | .ok none => return x.receive frame h
    | .ok (some token) => return { x.receive frame h with token := some token }

/-- Takes the value of the response with checked accesses; none if one of them is out of bounds. -/
def checkedValue (r : Request) (x : Exchange) : Option (r.Value × Exchange) :=
  match x.succeeded, x.response, x.header with
  | true, some frame, some h => do
    match ← (r.checkedParse frame h).run with
    | .error fault => return (r.operation.default, x.fail fault)
    | .ok value => return (value, x)
  | _, _, _ => some (r.operation.default, x)

/-- Reading a response accesses nothing out of bounds, whatever the bytes are. -/
theorem checkedRead_eq (r : Request) (x : Exchange) (frame : Bytes) :
    r.checkedRead x frame = some (r.operation.read x frame) := by
  unfold checkedRead Envelope.read
  simp only [Header.checkedParse_eq, run_of_bind]
  cases Header.parse frame with
  | error fault => rfl
  | ok h =>
    simp only [checkedExtras_eq, run_of_bind]
    cases r.operation.readToken x.vbucket frame h with
    | error fault => rfl
    | ok token => cases token <;> rfl

/-- Taking the value of a response accesses nothing out of bounds. -/
theorem checkedValue_eq (r : Request) (x : Exchange) :
    r.checkedValue x = some (r.operation.value x, r.operation.afterValue x) := by
  unfold checkedValue Operation.value Operation.afterValue Operation.parsed?
  cases x.succeeded with
  | false => rfl
  | true =>
    cases x.response with
    | none => rfl
    | some frame =>
      cases x.header with
      | none => rfl
      | some h =>
        simp only [checkedParse_eq, run_of_bind]
        cases r.operation.parse frame h <;> rfl

end Request

end StoreClient
