import StoreClient.Proofs.Request.Outcome

/-!
# Responses that are cut off

A response may be cut off anywhere, also within its header. Four of the kinds of requests read the
value as its header declares it, so that a response that is cut off is never taken for a success. An
observation reads its fields one after the other and asks for no more than the frame has: once all
fields are there, the rest of the value may be missing. A negotiation takes what is there, and is
left out here.
-/

namespace StoreClient

/-! ## Segments -/

namespace Bytes

theorem uint16At_slice (bytes : Bytes) (start : Nat) :
    (bytes.slice start 2).uint16At 0 = bytes.uint16At start := by
  unfold uint16At
  have hSlice : (bytes.slice start 2).slice 0 2 = bytes.slice start 2 := by
    simp [slice, List.take_take]
  rw [hSlice]

end Bytes

section Segments

variable {frame : Bytes} {h : Header}

/-- A segment can be read exactly if it is within the bytes. -/
theorem segment_eq_ok_iff {start length : Nat} {bytes : Bytes} :
    segment frame start length = .ok bytes ↔
      start + length ≤ frame.length ∧ frame.slice start length = bytes := by
  unfold segment
  by_cases hShort : frame.length < start + length
  · rw [if_pos hShort]
    constructor
    · intro hOk
      cases hOk
    · rintro ⟨hLong, -⟩
      omega
  · rw [if_neg hShort]
    constructor
    · intro hOk
      exact ⟨Nat.le_of_not_lt hShort, Except.ok.inj hOk⟩
    · rintro ⟨-, rfl⟩
      rfl

theorem segment_append {start length : Nat} {bytes : Bytes} (more : Bytes)
    (hBytes : segment frame start length = .ok bytes) :
    segment (frame ++ more) start length = .ok bytes := by
  obtain ⟨hLong, rfl⟩ := segment_eq_ok_iff.1 hBytes
  refine segment_eq_ok_iff.2 ⟨?_, Bytes.slice_append_left more hLong⟩
  rw [List.length_append]
  omega

/-- The declared value ends where the frame ends, or after it. -/
theorem valueSegment_of_short (hShort : frame.length < h.frameLength) :
    ∃ fault, valueSegment frame h = .error fault := by
  have hEnd : h.frameLength ≤ h.bodyOffset + h.valueLength := by
    simp only [Header.frameLength, Header.bodyOffset, Header.valueLength]
    omega
  exact ⟨_, if_pos (by omega)⟩

theorem exists_error_of_bind {α β : Type} {outcome : Except Fault α} {next : α → Except Fault β}
    (hError : ∃ fault, outcome = .error fault) : ∃ fault, (outcome >>= next) = .error fault := by
  obtain ⟨fault, rfl⟩ := hError
  exact ⟨fault, rfl⟩

end Segments

/-! ## Reports -/

namespace Observe

/-- The length of the key in a report. -/
def reportedKeyLength (frame : Bytes) (h : Header) : Nat :=
  (frame.uint16At (h.bodyOffset + 2)).toNat

/-- Where the last field of a report ends. -/
def reportEnd (frame : Bytes) (h : Header) : Nat :=
  h.bodyOffset + 13 + reportedKeyLength frame h

/-- Whether the first `length` bytes of a frame hold a whole report, with a key that is a text. -/
def HasReport (frame : Bytes) (h : Header) (length : Nat) : Prop :=
  reportEnd frame h ≤ length ∧
    ∃ key, readText (frame.slice (h.bodyOffset + 4) (reportedKeyLength frame h)) = .ok key

variable {frame : Bytes} {h : Header}

/-- A report on a key can be parsed exactly if it is there, and its key is a text. -/
theorem exists_parse_iff (hSize : Header.size ≤ frame.length) :
    (∃ report, Observe.parse frame h = .ok report) ↔ HasReport frame h frame.length := by
  have hHeader : 24 ≤ frame.length := hSize
  unfold Observe.parse HasReport reportEnd reportedKeyLength
  simp only [bind_eq_ok_iff, segment_eq_ok_iff]
  constructor
  · rintro ⟨report, -, -, -, -, -, -, keyLength, ⟨-, rfl⟩, keyBytes, ⟨-, rfl⟩, key, hKey, -, -, cas,
      ⟨hCas, -⟩, -⟩
    rw [Bytes.uint16At_slice] at hKey hCas
    exact ⟨by omega, key, hKey⟩
  · rintro ⟨hEnd, key, hKey⟩
    refine ⟨_, _, ⟨by omega, rfl⟩, _, ⟨by omega, rfl⟩, _, ⟨by omega, rfl⟩, _, ⟨by omega, rfl⟩, _,
      ⟨?_, rfl⟩, key, ?_, _, ⟨?_, rfl⟩, _, ⟨?_, rfl⟩, rfl⟩
    · rw [Bytes.uint16At_slice]
      omega
    · rw [Bytes.uint16At_slice]
      exact hKey
    · rw [Bytes.uint16At_slice]
      omega
    · rw [Bytes.uint16At_slice]
      omega

/-- Bytes behind a report on a key make no difference to it. -/
theorem parse_append {report : KeyReport} (more : Bytes)
    (hReport : Observe.parse frame h = .ok report) :
    Observe.parse (frame ++ more) h = .ok report := by
  unfold Observe.parse at hReport ⊢
  simp only [bind_eq_ok_iff] at hReport ⊢
  obtain ⟨persist, hPersist, repl, hRepl, vbucket, hVBucket, keyLength, hKeyLength, keyBytes,
    hKeyBytes, key, hKey, state, hState, cas, hCas, hFields⟩ := hReport
  exact ⟨persist, segment_append more hPersist, repl, segment_append more hRepl, vbucket,
    segment_append more hVBucket, keyLength, segment_append more hKeyLength, keyBytes,
    segment_append more hKeyBytes, key, hKey, state, segment_append more hState, cas,
    segment_append more hCas, hFields⟩

/-- Whether the start of a frame holds a whole report is seen from the start alone. -/
theorem hasReport_append (more : Bytes) :
    HasReport (frame ++ more) h frame.length ↔ HasReport frame h frame.length := by
  by_cases hShort : frame.length < h.bodyOffset + 4
  · -- the length of the key is not there: the ends may differ, but both lie past the start
    have hNot : ∀ bytes : Bytes, ¬ HasReport bytes h frame.length := by
      rintro bytes ⟨hEnd, -⟩
      unfold reportEnd at hEnd
      omega
    exact iff_of_false (hNot _) (hNot _)
  · have hKeyLength : reportedKeyLength (frame ++ more) h = reportedKeyLength frame h := by
      unfold reportedKeyLength
      rw [Bytes.uint16At_append_left more (by omega)]
    unfold HasReport reportEnd
    rw [hKeyLength]
    refine and_congr_right fun hEnd => ?_
    rw [Bytes.slice_append_left more (by omega)]

end Observe

/-! ## Outcomes -/

theorem Header.size_le_of_parse {frame : Bytes} {h : Header} (hParse : Header.parse frame = .ok h) :
    Header.size ≤ frame.length := by
  by_contra hShort
  unfold Header.parse at hParse
  rw [if_pos (by omega)] at hParse
  cases hParse

/-- The header of a frame that is cut off behind it is that of the frame. -/
theorem Header.parse_prefix {frame start : Bytes} {h h' : Header} (hStart : start <+: frame)
    (hParse : Header.parse frame = .ok h) (hParse' : Header.parse start = .ok h') : h' = h := by
  obtain ⟨rest, rfl⟩ := hStart
  rw [Header.parse_append rest (Header.size_le_of_parse hParse')] at hParse
  exact Except.ok.inj (hParse'.symm.trans hParse)

namespace Request

variable {r : Request} {x : Exchange} {frame start : Bytes} {h : Header}

/-- Bytes whose value cannot be parsed come to a failure, whether their header can be read or not.
-/
theorem undecodable_of_parse_error
    (hError : ∀ h, Header.parse frame = .ok h → ∃ fault, r.operation.parse frame h = .error fault)
    (hSuccess : ∀ h, Header.parse frame = .ok h → h.status = .success) :
    r.operation.value (r.operation.read x frame) = r.operation.default ∧
      (r.operation.afterValue (r.operation.read x frame)).status = .clientFailure := by
  unfold Operation.value Operation.afterValue
  rcases r.read_cases x frame with
    ⟨fault, hStatus, -, -⟩ | ⟨h, hParse, hStatus, -, hResponse, hHeader⟩
  · have hFailed : (r.operation.read x frame).status ≠ .success := by
      rw [hStatus]
      decide
    rw [r.operation.parsed?_of_not_success hFailed]
    exact ⟨rfl, hStatus⟩
  · obtain ⟨fault, hFault⟩ := hError h hParse
    have hRead : (r.operation.read x frame).status = .success := hStatus.trans (hSuccess h hParse)
    rw [r.operation.parsed?_of_success hRead hResponse hHeader, hFault]
    exact ⟨rfl, rfl⟩

/-- The value of a response that is cut off cannot be parsed, except by a negotiation or an
observation. -/
theorem parse_error_of_truncated (hHello : ∀ w, r ≠ .hello w) (hObserve : r ≠ .observe)
    (hShort : frame.length < h.frameLength) :
    ∃ fault, r.operation.parse frame h = .error fault := by
  have hValue := valueSegment_of_short hShort
  cases r with
  | counter c => exact exists_error_of_bind hValue
  | hello w => exact absurd rfl (hHello w)
  | observe => exact absurd rfl hObserve
  | observeSeqno o => exact exists_error_of_bind hValue
  | lookup l => exact hValue
  | mutation m => exact hValue

/-- A response to an observation is taken over as soon as its header can be read. -/
theorem observe_of_report {report : KeyReport} (hParse : Header.parse frame = .ok h)
    (hSuccess : h.status = .success) (hReport : Observe.parse frame h = .ok report) :
    Observe.operation.value (Observe.operation.read x frame) = report ∧
      (Observe.operation.afterValue (Observe.operation.read x frame)).status = .success := by
  have hRead : Observe.operation.read x frame = x.receive frame h := by
    unfold Envelope.read
    rw [hParse]
    rfl
  have hParsed : Observe.operation.parsed? (x.receive frame h) = some (.ok report) := by
    rw [Observe.operation.parsed?_of_success (x := x.receive frame h) hSuccess rfl rfl]
    exact congrArg some hReport
  rw [hRead]
  unfold Operation.value Operation.afterValue
  rw [hParsed]
  exact ⟨rfl, hSuccess⟩

/-- An observation whose response is cut off behind the report has the value of the whole response.
-/
theorem observe_of_hasReport (hParse : Header.parse frame = .ok h) (hSuccess : h.status = .success)
    (hStart : start <+: frame) (hReport : Observe.HasReport frame h start.length) :
    (Observe.operation.afterValue (Observe.operation.read x start)).status = .success ∧
      Observe.operation.value (Observe.operation.read x start) =
        Observe.operation.value (Observe.operation.read x frame) := by
  obtain ⟨rest, rfl⟩ := hStart
  have hSize : Header.size ≤ start.length := by
    obtain ⟨hEnd, -⟩ := hReport
    unfold Observe.reportEnd Header.bodyOffset at hEnd
    omega
  rw [Observe.hasReport_append] at hReport
  obtain ⟨report, hStartReport⟩ := (Observe.exists_parse_iff hSize).2 hReport
  have hParseStart : Header.parse start = .ok h := by
    rwa [Header.parse_append rest hSize] at hParse
  obtain ⟨hValue, hStatus⟩ := observe_of_report (x := x) hParseStart hSuccess hStartReport
  obtain ⟨hWhole, -⟩ :=
    observe_of_report (x := x) hParse hSuccess (Observe.parse_append rest hStartReport)
  exact ⟨hStatus, hValue.trans hWhole.symm⟩

/-- A response that is cut off anywhere, of a frame as long as its header declares and with the
status of success, comes to the default value and a failure, unless the request is a negotiation
(which is left out) or an observation whose whole report is left; the latter succeeds with the value
of the whole response. -/
theorem truncated_fails_iff (r : Request) (x : Exchange) (frame start : Bytes) (h : Header)
    (hHello : ∀ w, r ≠ .hello w) (hParse : Header.parse frame = .ok h)
    (hSuccess : h.status = .success) (hLength : frame.length = h.frameLength)
    (hStart : start <+: frame) (hProper : start ≠ frame) :
    ((r.operation.value (r.operation.read x start) = r.operation.default ∧
        (r.operation.afterValue (r.operation.read x start)).status = .clientFailure) ↔
      ¬ (r = .observe ∧ Observe.HasReport frame h start.length)) ∧
      (r = .observe ∧ Observe.HasReport frame h start.length →
        (r.operation.afterValue (r.operation.read x start)).status = .success ∧
          r.operation.value (r.operation.read x start) =
            r.operation.value (r.operation.read x frame)) := by
  have hShort : start.length < h.frameLength := by
    have hLess : start.length ≠ frame.length := fun hSame => hProper (hStart.eq_of_length hSame)
    have hLessEq := hStart.length_le
    omega
  have hSame : ∀ h', Header.parse start = .ok h' → h' = h :=
    fun h' hParse' => Header.parse_prefix hStart hParse hParse'
  have hStartSuccess : ∀ h', Header.parse start = .ok h' → h'.status = .success := by
    intro h' hParse'
    rw [hSame h' hParse']
    exact hSuccess
  by_cases hReport : r = .observe ∧ Observe.HasReport frame h start.length
  · obtain ⟨rfl, hHas⟩ := hReport
    have hWhole := observe_of_hasReport (x := x) hParse hSuccess hStart hHas
    refine ⟨iff_of_false ?_ (fun hNot => hNot ⟨rfl, hHas⟩), fun _ => hWhole⟩
    rintro ⟨-, hFailure⟩
    cases hFailure.symm.trans hWhole.1
  · refine ⟨iff_of_true (undecodable_of_parse_error ?_ hStartSuccess) hReport,
      fun hIs => absurd hIs hReport⟩
    intro h' hParse'
    rw [hSame h' hParse']
    by_cases hObserve : r = .observe
    · subst hObserve
      have hNot : ¬ Observe.HasReport start h start.length := by
        obtain ⟨rest, rfl⟩ := hStart
        intro hHas
        exact hReport ⟨rfl, (Observe.hasReport_append rest).2 hHas⟩
      cases hOutcome : Observe.parse start h with
      | error fault => exact ⟨fault, hOutcome⟩
      | ok report =>
        have hHas := (Observe.exists_parse_iff (Header.size_le_of_parse hParse')).1 ⟨_, hOutcome⟩
        exact absurd hHas hNot
    · exact parse_error_of_truncated hHello hObserve hShort

/-- The value of a counter is cut off behind the mutation token. -/
theorem truncated_counter_fails :
    let r : Request := .counter { direction := .increment }
    let x : Exchange := { key := some "hits", vbucket := some 6 }
    let h : Header :=
      { magic := .response, opcode := 5, keyLength := 0, extrasLength := 16, datatype := 0
        statusOrVBucket := 0, bodyLength := 24, correlationId := 0, cas := 0 }
    let frame := h.toBytes ++ List.replicate 24 7
    let start := frame.take 47
    (∀ w, r ≠ .hello w) ∧ Header.parse frame = .ok h ∧ h.status = .success ∧
      frame.length = h.frameLength ∧ start <+: frame ∧ start ≠ frame ∧
      ((r.operation.value (r.operation.read x start) = r.operation.default ∧
          (r.operation.afterValue (r.operation.read x start)).status = .clientFailure) ↔
        ¬ (r = .observe ∧ Observe.HasReport frame h start.length)) ∧
        (r = .observe ∧ Observe.HasReport frame h start.length →
          (r.operation.afterValue (r.operation.read x start)).status = .success ∧
            r.operation.value (r.operation.read x start) =
              r.operation.value (r.operation.read x frame)) := by
  intro r x h frame start
  have hHello : ∀ w, r ≠ .hello w := fun w hw => nomatch hw
  have hParse : Header.parse frame = .ok h := Header.parse_toBytes h _
  have hStart : start <+: frame := List.take_prefix 47 frame
  exact ⟨hHello, hParse, rfl, rfl, hStart, by decide,
    truncated_fails_iff r x frame start h hHello hParse rfl rfl hStart (by decide)⟩

/-- The last byte of a response is cut off, which belongs to no field of the report: the observation
succeeds. -/
theorem truncated_observe_succeeds :
    let x := Observe.exchange "k" 3
    let h : Header :=
      { magic := .response, opcode := 0x92, keyLength := 0, extrasLength := 0, datatype := 0
        statusOrVBucket := 0, bodyLength := 15, correlationId := 0, cas := 0 }
    let start := h.toBytes ++ [0, 3, 0, 1, 0x6b, 1, 0, 0, 0, 0, 0, 0, 0, 9]
    let frame := start ++ [0xff]
    let report : KeyReport := { vbucket := 3, key := "k", state := .foundPersisted, cas := 9 }
    Header.parse frame = .ok h ∧ h.status = .success ∧ frame.length = h.frameLength ∧
      start <+: frame ∧ start ≠ frame ∧
      Observe.operation.value (Observe.operation.read x start) = report ∧
      report ≠ Observe.operation.default ∧
      (Observe.operation.afterValue (Observe.operation.read x start)).status = .success := by
  intro x h start frame report
  have hParse : Header.parse frame = .ok h := Header.parse_toBytes h _
  have hParseStart : Header.parse start = .ok h := Header.parse_toBytes h _
  have hReport : Observe.parse start h = .ok report := by decide
  obtain ⟨hValue, hStatus⟩ := observe_of_report (x := x) hParseStart rfl hReport
  exact ⟨hParse, rfl, rfl, List.prefix_append _ _, by decide, hValue, by decide, hStatus⟩

end Request

end StoreClient
