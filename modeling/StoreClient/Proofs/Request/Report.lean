import StoreClient.Proofs.Request.Truncation
import StoreClient.Proofs.Text.Decoding

/-!
# Reports read back

A response is put together from a header, extras, a key and a value, whose lengths the header
declares. What an observation then says about a key or about a partition are the fields that the
value was made of, wherever extras and key make it start. The two averages about a key come from the
header.
-/

namespace StoreClient

/-! ## Words in their place -/

namespace Bytes

theorem bigEndian_add (high low n : Nat) :
    bigEndian (high + low) n = bigEndian high (n / 256 ^ low) ++ bigEndian low n := by
  induction low generalizing n with
  | zero => simp [bigEndian]
  | succ low ih =>
    rw [← Nat.add_assoc, bigEndian, ih, bigEndian, List.append_assoc, Nat.div_div_eq_div_mul,
      Nat.pow_succ']

theorem bigEndian_mod (width n : Nat) : bigEndian width (n % 256 ^ width) = bigEndian width n := by
  have hLength := length_bigEndian width n
  have hBack := bigEndian_ofBigEndian (bigEndian width n)
  rwa [hLength, ofBigEndian_bigEndian] at hBack

/-- Eight bytes are those of the upper half and of the lower one. -/
theorem ofUInt64_halves (n : UInt64) :
    ofUInt64 n = ofUInt32 (n >>> 32).toUInt32 ++ ofUInt32 n.toUInt32 := by
  have hLess := n.toNat_lt
  have hShift : (n >>> 32).toNat = n.toNat / 2 ^ 32 := by
    rw [UInt64.toNat_shiftRight, Nat.shiftRight_eq_div_pow]
    rfl
  have hHigh : (n >>> 32).toUInt32.toNat = n.toNat / 256 ^ 4 := by
    rw [UInt64.toNat_toUInt32, hShift]
    omega
  have hLow : n.toUInt32.toNat = n.toNat % 256 ^ 4 := UInt64.toNat_toUInt32 n
  unfold ofUInt64 ofUInt32
  rw [hHigh, hLow, bigEndian_mod]
  exact bigEndian_add 4 4 n.toNat

@[simp] theorem uint16At_ofUInt16 (n : UInt16) : (ofUInt16 n).uint16At 0 = n :=
  uint16At_of_slice rfl

@[simp] theorem uint32At_ofUInt32 (n : UInt32) : (ofUInt32 n).uint32At 0 = n :=
  uint32At_of_slice rfl

@[simp] theorem uint64At_ofUInt64 (n : UInt64) : (ofUInt64 n).uint64At 0 = n :=
  uint64At_of_slice rfl

theorem length_slice {bytes : Bytes} {start length : Nat} (h : start + length ≤ bytes.length) :
    (bytes.slice start length).length = length := by
  unfold slice
  rw [List.length_take, List.length_drop]
  omega

theorem ofUInt16_uint16At {bytes : Bytes} {start : Nat} (h : start + 2 ≤ bytes.length) :
    ofUInt16 (bytes.uint16At start) = bytes.slice start 2 := by
  have hBack := bigEndian_ofBigEndian (bytes.slice start 2)
  have hLess := ofBigEndian_lt (bytes.slice start 2)
  rw [length_slice h] at hBack hLess
  unfold ofUInt16 uint16At
  rw [UInt16.toNat_ofNat_of_lt' hLess, hBack]

theorem ofUInt64_uint64At {bytes : Bytes} {start : Nat} (h : start + 8 ≤ bytes.length) :
    ofUInt64 (bytes.uint64At start) = bytes.slice start 8 := by
  have hBack := bigEndian_ofBigEndian (bytes.slice start 8)
  have hLess := ofBigEndian_lt (bytes.slice start 8)
  rw [length_slice h] at hBack hLess
  unfold ofUInt64 uint64At
  rw [UInt64.toNat_ofNat_of_lt' hLess, hBack]

theorem slice_append_drop (bytes : Bytes) {start length stop : Nat} (h : start + length = stop) :
    bytes.slice start length ++ bytes.drop stop = bytes.drop start := by
  subst h
  unfold slice
  rw [← List.drop_drop, List.take_append_drop]

end Bytes

/-! ## Whole responses -/

/-- A part is found behind what is before it. -/
theorem segment_middle (before part after : Bytes) {start length : Nat}
    (hStart : before.length = start) (hLength : part.length = length) :
    segment (before ++ part ++ after) start length = .ok part := by
  subst hStart hLength
  refine segment_eq_ok_iff.2 ⟨?_, Bytes.slice_append_middle _ _ _⟩
  simp only [List.length_append]
  omega

theorem bind_of_ok {α β : Type} {outcome : Except Fault α} {a : α} {next : α → Except Fault β}
    (h : outcome = .ok a) : (outcome >>= next) = next a := by
  rw [h]
  rfl

namespace Header

/-- Whether segments have the lengths that a header declares. -/
structure Declares (h : Header) (extras key value : Bytes) : Prop where
  extrasLength : extras.length = h.extrasLength.toNat
  keyLength : key.length = h.keyLength.toNat
  bodyLength : extras.length + key.length + value.length = h.bodyLength.toNat

/-- The frame of a header and segments. -/
def frameOf (h : Header) (extras key value : Bytes) : Bytes :=
  h.toBytes ++ extras ++ key ++ value

section Frames

variable {h : Header} {extras key value : Bytes}

theorem parse_frameOf : parse (h.frameOf extras key value) = .ok h := by
  simp only [frameOf, List.append_assoc]
  exact parse_toBytes h _

/-- A part of the value stands where the header says that the value starts. -/
theorem Declares.segment_value (hDeclares : h.Declares extras key value)
    (before : Bytes) {part : Bytes} {start length : Nat} (hValue : before ++ part <+: value)
    (hStart : h.bodyOffset + before.length = start) (hLength : part.length = length) :
    segment (h.frameOf extras key value) start length = .ok part := by
  obtain ⟨after, rfl⟩ := hValue
  have hFrame : h.frameOf extras key (before ++ part ++ after) =
      h.toBytes ++ extras ++ key ++ before ++ part ++ after := by
    simp only [frameOf, List.append_assoc]
  rw [hFrame]
  refine segment_middle _ _ _ ?_ hLength
  simp only [List.length_append, length_toBytes, hDeclares.extrasLength, hDeclares.keyLength]
  exact hStart

/-- The value is found behind extras and key. -/
theorem Declares.valueSegment_eq (hDeclares : h.Declares extras key value) :
    valueSegment (h.frameOf extras key value) h = .ok value := by
  have hLength : value.length = h.valueLength := by
    obtain ⟨hExtras, hKey, hBody⟩ := hDeclares
    unfold valueLength
    omega
  exact hDeclares.segment_value [] (List.prefix_refl _) rfl hLength

/-- The last field of the header as two words. -/
theorem segment_cas (h : Header) (extras key value : Bytes) :
    segment (h.frameOf extras key value) 16 4 = .ok (Bytes.ofUInt32 (h.cas >>> 32).toUInt32) ∧
      segment (h.frameOf extras key value) 20 4 = .ok (Bytes.ofUInt32 h.cas.toUInt32) := by
  have hBytes : h.toBytes = h.toBytes.take 16 ++ Bytes.ofUInt64 h.cas := toBytes_cas h h.cas
  have hSize : (h.toBytes.take 16).length = 16 := by
    rw [List.length_take, length_toBytes]
    rfl
  unfold frameOf
  rw [hBytes, Bytes.ofUInt64_halves]
  generalize h.toBytes.take 16 = front at hSize
  constructor
  · simpa only [List.append_assoc] using
      segment_middle front (Bytes.ofUInt32 (h.cas >>> 32).toUInt32)
        (Bytes.ofUInt32 h.cas.toUInt32 ++ extras ++ key ++ value) hSize (Bytes.length_ofUInt32 _)
  · simpa only [List.append_assoc] using
      segment_middle (front ++ Bytes.ofUInt32 (h.cas >>> 32).toUInt32)
        (Bytes.ofUInt32 h.cas.toUInt32) (extras ++ key ++ value) (by simp [hSize])
        (Bytes.length_ofUInt32 _)

end Frames

end Header

/-! ## Reports about a key -/

namespace Observe

/-- The value of a response about a key: partition, length of the key, key, state, compare-and-swap
value, and bytes that are passed over. -/
def valueOf (vbucket length : UInt16) (raw : Bytes) (state : UInt8) (cas : UInt64)
    (rest : Bytes) : Bytes :=
  Bytes.ofUInt16 vbucket ++ Bytes.ofUInt16 length ++ raw ++ [state] ++ Bytes.ofUInt64 cas ++ rest

variable {h : Header} {extras key raw rest : Bytes} {vbucket length : UInt16} {state : UInt8}
  {cas : UInt64}

theorem parse_frameOf (hLength : raw.length = length.toNat)
    (hDeclares : h.Declares extras key (valueOf vbucket length raw state cas rest)) :
    Observe.parse (h.frameOf extras key (valueOf vbucket length raw state cas rest)) h =
      (readText raw).map fun text =>
        { persistStat := (h.cas >>> 32).toUInt32
          replStat := h.cas.toUInt32
          vbucket
          key := text
          state := KeyState.ofCode state
          cas } := by
  obtain ⟨hPersist, hRepl⟩ :=
    Header.segment_cas h extras key (valueOf vbucket length raw state cas rest)
  generalize hValue : valueOf vbucket length raw state cas rest = value at *
  unfold valueOf at hValue
  have hVBucket : segment (h.frameOf extras key value) h.bodyOffset 2 =
      .ok (Bytes.ofUInt16 vbucket) :=
    hDeclares.segment_value [] (by simp [← hValue]) rfl
      (Bytes.length_ofUInt16 _)
  have hKeyLength : segment (h.frameOf extras key value) (h.bodyOffset + 2) 2 =
      .ok (Bytes.ofUInt16 length) :=
    hDeclares.segment_value (Bytes.ofUInt16 vbucket) (by simp [← hValue])
      (by simp) (Bytes.length_ofUInt16 _)
  have hKey : segment (h.frameOf extras key value) (h.bodyOffset + 4) length.toNat = .ok raw :=
    hDeclares.segment_value (Bytes.ofUInt16 vbucket ++ Bytes.ofUInt16 length)
      (by simp [← hValue]) (by simp) hLength
  have hState : segment (h.frameOf extras key value) (h.bodyOffset + 4 + length.toNat) 1 =
      .ok [state] :=
    hDeclares.segment_value (Bytes.ofUInt16 vbucket ++ Bytes.ofUInt16 length ++ raw)
      (by simp [← hValue]) (by simp [hLength]; omega) rfl
  have hCas : segment (h.frameOf extras key value) (h.bodyOffset + 5 + length.toNat) 8 =
      .ok (Bytes.ofUInt64 cas) :=
    hDeclares.segment_value
      (Bytes.ofUInt16 vbucket ++ Bytes.ofUInt16 length ++ raw ++ [state])
      (by simp [← hValue]) (by simp [hLength]; omega) (Bytes.length_ofUInt64 _)
  unfold Observe.parse
  rw [bind_of_ok hPersist, bind_of_ok hRepl]
  dsimp only
  rw [bind_of_ok hVBucket, bind_of_ok hKeyLength, Bytes.uint16At_ofUInt16, bind_of_ok hKey]
  cases readText raw with
  | error fault => rfl
  | ok text =>
    rw [bind_of_ok rfl, bind_of_ok hState, bind_of_ok hCas]
    simp only [Bytes.uint16At_ofUInt16, Bytes.uint32At_ofUInt32, Bytes.uint64At_ofUInt64]
    rfl

end Observe

/-! ## Reports about a partition -/

namespace PartitionReport

/-- The bytes of a report behind a first byte. -/
def bytes (r : PartitionReport) (first : UInt8) : Bytes :=
  [first] ++ Bytes.ofUInt16 r.vbucket ++ Bytes.ofUInt64 r.uuid ++
    Bytes.ofUInt64 r.lastPersistedSeqno ++ Bytes.ofUInt64 r.currentSeqno ++
    if r.isHardFailover then Bytes.ofUInt64 r.oldUuid ++ Bytes.ofUInt64 r.lastSeqnoReceived else []

/-- Whether a value starts with a report. The first byte tells whether the history was cut; if it
was not, the value says nothing about the branch before the cut. -/
def WrittenIn (r : PartitionReport) (value : Bytes) : Prop :=
  ∃ first rest, value = r.bytes first ++ rest ∧ (r.isHardFailover = true ↔ first = 1) ∧
    (r.isHardFailover = false → r.oldUuid = 0 ∧ r.lastSeqnoReceived = 0)

/-- A value is started by one report at most. -/
theorem WrittenIn.unique {r r' : PartitionReport} {value : Bytes} (h : r.WrittenIn value)
    (h' : r'.WrittenIn value) : r = r' := by
  obtain ⟨first, rest, hValue, hCut, hNone⟩ := h
  obtain ⟨first', rest', hValue', hCut', hNone'⟩ := h'
  have hSame := hValue.symm.trans hValue'
  unfold bytes at hSame
  simp only [List.append_assoc] at hSame
  obtain ⟨hFirst, hFields⟩ := List.append_inj hSame rfl
  obtain rfl := List.singleton_inj.1 hFirst
  obtain ⟨hVBucket, hFields⟩ := List.append_inj hFields (by simp)
  obtain ⟨hUuid, hFields⟩ := List.append_inj hFields (by simp)
  obtain ⟨hPersisted, hFields⟩ := List.append_inj hFields (by simp)
  obtain ⟨hCurrent, hFields⟩ := List.append_inj hFields (by simp)
  have hSameCut : r.isHardFailover = r'.isHardFailover := by
    rw [Bool.eq_iff_iff, hCut, hCut']
  have hHistory : r.oldUuid = r'.oldUuid ∧ r.lastSeqnoReceived = r'.lastSeqnoReceived := by
    cases hHard : r'.isHardFailover with
    | false =>
      obtain ⟨hOld, hLast⟩ := hNone (hSameCut.trans hHard)
      obtain ⟨hOld', hLast'⟩ := hNone' hHard
      exact ⟨hOld.trans hOld'.symm, hLast.trans hLast'.symm⟩
    | true =>
      rw [hSameCut, hHard] at hFields
      simp only [if_true, List.append_assoc] at hFields
      obtain ⟨hOld, hFields⟩ := List.append_inj hFields (by simp)
      obtain ⟨hLast, -⟩ := List.append_inj hFields (by simp)
      exact ⟨Bytes.ofUInt64_injective hOld, Bytes.ofUInt64_injective hLast⟩
  obtain ⟨hOld, hLast⟩ := hHistory
  cases r
  cases r'
  simp only [mk.injEq]
  exact ⟨hSameCut, Bytes.ofUInt16_injective hVBucket, Bytes.ofUInt64_injective hUuid,
    Bytes.ofUInt64_injective hPersisted, Bytes.ofUInt64_injective hCurrent, hOld, hLast⟩

end PartitionReport

namespace ObserveSeqno

/-- The length that the first byte of a value asks for. -/
def expectedLength (value : Bytes) : Nat :=
  if value.head? = some 1 then hardFailoverLength else noFailoverLength

/-- The fields that every report has, behind the first byte. -/
theorem split_fields (first : UInt8) (tail : Bytes) (h : 27 ≤ (first :: tail).length) :
    first :: tail =
      [first] ++ Bytes.ofUInt16 (Bytes.uint16At (first :: tail) 1) ++
        Bytes.ofUInt64 (Bytes.uint64At (first :: tail) 3) ++
        Bytes.ofUInt64 (Bytes.uint64At (first :: tail) 11) ++
        Bytes.ofUInt64 (Bytes.uint64At (first :: tail) 19) ++ (first :: tail).drop 27 := by
  rw [Bytes.ofUInt16_uint16At (by omega), Bytes.ofUInt64_uint64At (by omega),
    Bytes.ofUInt64_uint64At (by omega), Bytes.ofUInt64_uint64At (by omega)]
  simp only [List.append_assoc]
  rw [Bytes.slice_append_drop _ rfl, Bytes.slice_append_drop _ rfl, Bytes.slice_append_drop _ rfl,
    Bytes.slice_append_drop _ rfl]
  rfl

/-- The two fields about the branch before the cut. -/
theorem split_history {value : Bytes} (h : 43 ≤ value.length) :
    value.drop 27 =
      Bytes.ofUInt64 (value.uint64At 27) ++ Bytes.ofUInt64 (value.uint64At 35) ++
        value.drop 43 := by
  rw [Bytes.ofUInt64_uint64At (by omega), Bytes.ofUInt64_uint64At (by omega), List.append_assoc,
    Bytes.slice_append_drop _ rfl, Bytes.slice_append_drop _ rfl]

variable {frame value : Bytes} {h : Header}

/-- A report on a partition that ends early is rejected with the length that its first byte asks
for. -/
theorem parse_of_short (hValue : valueSegment frame h = .ok value)
    (hShort : value.length < expectedLength value) :
    parse frame h = .error (.incompleteFrame (expectedLength value) value.length) := by
  unfold parse
  rw [bind_of_ok hValue]
  unfold expectedLength at *
  by_cases hCut : value.head? = some 1
  · simp [hCut] at hShort ⊢
    omega
  · simp [hCut] at hShort ⊢
    omega

/-- A report on a partition that is long enough is read as it is written. -/
theorem exists_parse (hValue : valueSegment frame h = .ok value)
    (hLong : expectedLength value ≤ value.length) :
    ∃ report, parse frame h = .ok report ∧ report.WrittenIn value := by
  unfold parse
  rw [bind_of_ok hValue]
  cases value with
  | nil => exact absurd hLong (by decide)
  | cons first tail =>
    unfold expectedLength at hLong
    by_cases hCut : first = 1
    · subst hCut
      have hLength : 43 ≤ (1 :: tail : Bytes).length := hLong
      have hShort : ¬ (1 :: tail : Bytes).length < hardFailoverLength := Nat.not_lt_of_le hLength
      simp only [List.head?_cons, beq_self_eq_true, if_true, if_neg hShort]
      refine ⟨_, rfl, 1, (1 :: tail).drop 43, ?_, by simp, by simp⟩
      have hSplit := split_fields 1 tail (by omega)
      rw [split_history hLength] at hSplit
      unfold PartitionReport.bytes
      simpa only [List.append_assoc, if_true] using hSplit
    · have hFlag : ((first :: tail).head? == some 1) = false := by simp [hCut]
      have hNot : ¬ (first :: tail).head? = some 1 := by simpa using hCut
      rw [if_neg hNot] at hLong
      have hLength : 27 ≤ (first :: tail).length := hLong
      have hShort : ¬ (first :: tail).length < noFailoverLength := Nat.not_lt_of_le hLength
      simp only [hFlag, Bool.false_eq_true, if_false, if_neg hShort]
      refine ⟨_, rfl, first, (first :: tail).drop 27, ?_, by simp [hCut], by simp⟩
      unfold PartitionReport.bytes
      simpa using split_fields first tail hLength

end ObserveSeqno

/-! ## Taking the value -/

namespace Operation

variable {α : Type} (op : Operation α) {x : Exchange} {frame : Bytes} {h : Header}

/-- A response without a token is taken over as it is, and its value is what it is parsed to. -/
theorem value_of_parse {a : α} (hToken : op.readToken x.vbucket frame h = .ok none)
    (hParse : Header.parse frame = .ok h) (hSuccess : h.status = .success)
    (hValue : op.parse frame h = .ok a) :
    op.value (op.read x frame) = a ∧ op.afterValue (op.read x frame) = x.receive frame h := by
  have hRead : op.read x frame = x.receive frame h := by
    unfold Envelope.read
    simp only [hParse, hToken]
  have hParsed := op.parsed?_of_success (x := x.receive frame h) hSuccess rfl rfl
  rw [hRead]
  unfold value afterValue
  simp only [hParsed, hValue]
  exact ⟨trivial, trivial⟩

theorem value_of_fault {fault : Fault} (hToken : op.readToken x.vbucket frame h = .ok none)
    (hParse : Header.parse frame = .ok h) (hSuccess : h.status = .success)
    (hFault : op.parse frame h = .error fault) :
    op.value (op.read x frame) = op.default ∧
      op.afterValue (op.read x frame) = (x.receive frame h).fail fault := by
  have hRead : op.read x frame = x.receive frame h := by
    unfold Envelope.read
    simp only [hParse, hToken]
  have hParsed := op.parsed?_of_success (x := x.receive frame h) hSuccess rfl rfl
  rw [hRead]
  unfold value afterValue
  simp only [hParsed, hFault]
  exact ⟨trivial, trivial⟩

end Operation

/-- A successful response whose segments have the lengths that its header declares. If the value
is a report about a key, with bytes behind it or none, an observation reads back what the report was
made of, with the halves of the last header field as averages; a key that is no text is a fault.
About a partition, a value that is long enough for its first byte is read back as the one report
that it starts with, and a shorter one is a fault that names both lengths. -/
theorem reports_read_back (x : Exchange) (o : ObserveSeqno) (h : Header) (extras key value : Bytes)
    (hSuccess : h.status = .success) (hDeclares : h.Declares extras key value) :
    let frame := h.frameOf extras key value
    (∀ vbucket length raw state cas rest, raw.length = UInt16.toNat length →
        value = Observe.valueOf vbucket length raw state cas rest →
        (∀ text, Utf8.encode text = raw →
          Observe.operation.value (Observe.operation.read x frame) =
              { persistStat := (h.cas >>> 32).toUInt32
                replStat := h.cas.toUInt32
                vbucket
                key := text
                state := KeyState.ofCode state
                cas } ∧
            Observe.operation.afterValue (Observe.operation.read x frame) = x.receive frame h) ∧
        ((∀ text, Utf8.encode text ≠ raw) →
          ∃ flaw, Utf8.decode raw = .error flaw ∧
            Observe.operation.value (Observe.operation.read x frame) =
              Observe.operation.default ∧
            Observe.operation.afterValue (Observe.operation.read x frame) =
              (x.receive frame h).fail (.stringEncoding flaw.message))) ∧
      (let expected := if value.head? = some 1 then 43 else 27
       (expected ≤ value.length →
          (∀ report : PartitionReport, report.WrittenIn value ↔
            o.operation.value (o.operation.read x frame) = report) ∧
          o.operation.afterValue (o.operation.read x frame) = x.receive frame h) ∧
        (value.length < expected →
          o.operation.value (o.operation.read x frame) = o.operation.default ∧
          o.operation.afterValue (o.operation.read x frame) =
            (x.receive frame h).fail (.incompleteFrame expected value.length))) := by
  intro frame
  have hHeader : Header.parse frame = .ok h := Header.parse_frameOf
  have hValue : valueSegment frame h = .ok value := hDeclares.valueSegment_eq
  refine ⟨?_, ?_, ?_⟩
  · rintro vbucket length raw state cas rest hLength rfl
    have hParse := Observe.parse_frameOf hLength hDeclares
    constructor
    · intro text hText
      have hRead : readText raw = .ok text := by
        unfold readText
        rw [Utf8.decode_eq_ok_iff.2 hText]
        rfl
      rw [hRead] at hParse
      exact Observe.operation.value_of_parse rfl hHeader hSuccess hParse
    · intro hNone
      cases hDecode : Utf8.decode raw with
      | ok text => exact absurd (Utf8.decode_eq_ok_iff.1 hDecode) (hNone text)
      | error flaw =>
        have hRead : readText raw = .error (.stringEncoding flaw.message) := by
          unfold readText
          rw [hDecode]
          rfl
        rw [hRead] at hParse
        exact ⟨flaw, rfl,
          Observe.operation.value_of_fault rfl hHeader hSuccess hParse⟩
  · intro hLong
    obtain ⟨report, hParse, hWritten⟩ := ObserveSeqno.exists_parse hValue hLong
    obtain ⟨hReport, hAfter⟩ :=
      o.operation.value_of_parse (x := x) rfl hHeader hSuccess hParse
    refine ⟨fun report' => ?_, hAfter⟩
    rw [hReport]
    constructor
    · exact fun hWritten' => hWritten.unique hWritten'
    · rintro rfl
      exact hWritten
  · intro hShort
    exact o.operation.value_of_fault rfl hHeader hSuccess
      (ObserveSeqno.parse_of_short hValue hShort)

/-- Behind two bytes of extras and one of a key: a report about the key "é" with a byte behind it,
one about a key that is no text, a report of a cut, and half of one. -/
theorem reports_read_back_behind_extras :
    let x : Exchange := Observe.exchange "k" 3
    let o : ObserveSeqno := ⟨⟨7, 5, 0⟩⟩
    let header : UInt32 → Header := fun length =>
      { magic := .response, opcode := 0x92, keyLength := 1, extrasLength := 2, datatype := 0
        statusOrVBucket := 0, bodyLength := length, correlationId := 0, cas := 0x300000004 }
    let named := Observe.valueOf 3 2 [0xc3, 0xa9] 0x80 9 [0xff]
    let unnamed := Observe.valueOf 3 1 [0xff] 0x80 9 []
    let cut : PartitionReport :=
      { isHardFailover := true, vbucket := 7, uuid := 6, lastPersistedSeqno := 10
        currentSeqno := 11, oldUuid := 5, lastSeqnoReceived := 8 }
    let namedFrame := (header 19).frameOf [1, 2] [3] named
    let unnamedFrame := (header 17).frameOf [1, 2] [3] unnamed
    let cutFrame := (header 46).frameOf [1, 2] [3] (cut.bytes 1)
    let halfFrame := (header 30).frameOf [1, 2] [3] ((cut.bytes 1).take 27)
    (header 19).status = .success ∧ (header 19).Declares [1, 2] [3] named ∧
      (header 17).Declares [1, 2] [3] unnamed ∧ (header 46).Declares [1, 2] [3] (cut.bytes 1) ∧
      (header 30).Declares [1, 2] [3] ((cut.bytes 1).take 27) ∧
      Observe.operation.value (Observe.operation.read x namedFrame) =
        { persistStat := 3, replStat := 4, vbucket := 3, key := "é", state := .notFound
          cas := 9 } ∧
      (Observe.operation.afterValue (Observe.operation.read x unnamedFrame)).fault =
        some (.stringEncoding "invalid utf-8 sequence of 1 bytes from index 0") ∧
      o.operation.value (o.operation.read x cutFrame) = cut ∧
      (o.operation.afterValue (o.operation.read x halfFrame)).fault =
        some (.incompleteFrame 43 27) := by
  intro x o header named unnamed cut namedFrame unnamedFrame cutFrame halfFrame
  have hNamed : (header 19).Declares [1, 2] [3] named := ⟨rfl, rfl, rfl⟩
  have hUnnamed : (header 17).Declares [1, 2] [3] unnamed := ⟨rfl, rfl, rfl⟩
  have hCut : (header 46).Declares [1, 2] [3] (cut.bytes 1) := ⟨rfl, rfl, rfl⟩
  have hHalf : (header 30).Declares [1, 2] [3] ((cut.bytes 1).take 27) := ⟨rfl, rfl, rfl⟩
  refine ⟨rfl, hNamed, hUnnamed, hCut, hHalf, ?_, ?_, ?_, ?_⟩
  · have hKey :=
      ((reports_read_back x o _ _ _ _ rfl hNamed).1 _ _ _ _ _ _ rfl rfl).1 "é" (by decide)
    exact hKey.1.trans (by decide)
  · have hNone : ∀ text, Utf8.encode text ≠ [0xff] := by
      intro text hText
      cases Utf8.decode_eq_ok_iff.2 hText
    obtain ⟨flaw, hFlaw, -, hAfter⟩ :=
      ((reports_read_back x o _ _ _ _ rfl hUnnamed).1 _ _ _ _ _ _ rfl rfl).2 hNone
    cases hFlaw
    rw [hAfter]
    rfl
  · have hWritten : cut.WrittenIn (cut.bytes 1) := ⟨1, [], by simp, by decide, by decide⟩
    exact (((reports_read_back x o _ _ _ _ rfl hCut).2.1 (by decide)).1 cut).1 hWritten
  · rw [((reports_read_back x o _ _ _ _ rfl hHalf).2.2 (by decide)).2]
    rfl

end StoreClient
