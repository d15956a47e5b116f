import StoreClient.Proofs.Request.Content
import StoreClient.Proofs.Request.Truncation

/-!
# Whole codes of a negotiation

The response to a wish for features is read as far as it goes. Its codes are the whole slots of two
bytes between the start of the value and the end of the value or of the frame, whichever comes
first; half a slot is passed over, and nothing that is missing is a fault.
-/

namespace StoreClient

/-! ## Parts of parts -/

namespace Bytes

variable {start length i width : Nat}

theorem slice_slice (bytes : Bytes) (h : i + width ≤ length) :
    (bytes.slice start length).slice i width = bytes.slice (start + i) width := by
  simp only [slice, List.drop_take, List.drop_drop, List.take_take]
  rw [Nat.min_eq_left (by omega)]

theorem uint16At_slice_of_le (bytes : Bytes) (h : i + 2 ≤ length) :
    (bytes.slice start length).uint16At i = bytes.uint16At (start + i) := by
  unfold uint16At
  rw [slice_slice bytes h]

end Bytes

namespace Hello

/-! ## Slots -/

theorem codes_of_short {value : Bytes} (h : value.length ≤ 1) : codes value = [] := by
  rcases value with _ | ⟨first, _ | ⟨second, rest⟩⟩
  · rfl
  · rfl
  · simp at h

/-- The codes are the pairs of bytes of the value. -/
theorem codes_eq_map_range (value : Bytes) :
    codes value = (List.range (value.length / 2)).map fun i => value.uint16At (2 * i) := by
  induction value using pairs.induct with
  | case1 first second rest ih =>
    have hLength : (first :: second :: rest).length / 2 = rest.length / 2 + 1 := by
      simp only [List.length_cons]
      omega
    -- the slots of the rest are those of the whole from the second on
    have hShift : ∀ i, Bytes.uint16At (first :: second :: rest) (2 * (i + 1)) =
        Bytes.uint16At rest (2 * i) := fun i => rfl
    rw [codes, ih, hLength, List.range_succ_eq_map, List.map_cons, List.map_map]
    simp only [Function.comp_def, Nat.succ_eq_add_one, hShift]
    rfl
  | case2 value hShort =>
    have hLength : value.length ≤ 1 := by
      rcases value with _ | ⟨first, _ | ⟨second, rest⟩⟩
      · simp
      · simp
      · exact absurd rfl (hShort first second rest)
    rw [codes_of_short hLength, Nat.div_eq_of_lt (by omega)]
    rfl

/-- More bytes add codes behind the others. -/
theorem codes_prefix_append (value more : Bytes) : codes value <+: codes (value ++ more) := by
  induction value using pairs.induct with
  | case1 first second rest ih =>
    simp only [List.cons_append, codes]
    exact (List.prefix_cons_inj _).2 ih
  | case2 value hShort =>
    rw [codes]
    · exact List.nil_prefix
    · exact hShort

/-- Half a slot behind the codes of a wish is passed over. -/
theorem codes_body_append (w : Hello) {odd : Bytes} (h : odd.length ≤ 1) :
    codes (w.body ++ odd) = w.features := by
  obtain ⟨features⟩ := w
  unfold body
  induction features with
  | nil => exact codes_of_short h
  | cons code features ih =>
    obtain ⟨first, second, hPair⟩ : ∃ first second, Bytes.ofUInt16 code = [first, second] :=
      ⟨_, _, rfl⟩
    have hCode : Bytes.uint16At [first, second] 0 = code := Bytes.uint16At_of_slice hPair.symm
    simp only [List.flatMap_cons, hPair, List.cons_append, List.nil_append, codes, hCode]
    exact congrArg _ ih

/-! ## The part of the value that is there -/

theorem length_available (frame : Bytes) (h : Header) :
    (available frame h).length =
      min (h.bodyOffset + h.valueLength) frame.length - h.bodyOffset := by
  unfold available Bytes.slice
  rw [List.length_take, List.length_drop]
  omega

/-- The codes are read from the pairs of bytes that are there, up to the announced length. -/
theorem codes_available (frame : Bytes) (h : Header) :
    codes (available frame h) =
      (List.range ((min (h.bodyOffset + h.valueLength) frame.length - h.bodyOffset) / 2)).map
        fun i => frame.uint16At (h.bodyOffset + 2 * i) := by
  rw [codes_eq_map_range, length_available]
  refine List.map_congr_left fun i hi => ?_
  have hIn := List.mem_range.1 hi
  exact Bytes.uint16At_slice_of_le frame (by omega)

/-- A frame that is cut off has the first of the codes. -/
theorem codes_available_prefix {start frame : Bytes} (hStart : start <+: frame) (h : Header) :
    codes (available start h) <+: codes (available frame h) := by
  obtain ⟨rest, rfl⟩ := hStart
  obtain ⟨more, hMore⟩ : available start h <+: available (start ++ rest) h := by
    unfold available Bytes.slice
    rw [List.drop_append, List.take_append]
    exact List.prefix_append _ _
  rw [← hMore]
  exact codes_prefix_append _ _

/-- A frame that has the whole value has all of it available. -/
theorem available_of_valueSegment {frame value : Bytes} {h : Header}
    (hValue : valueSegment frame h = .ok value) : available frame h = value :=
  (segment_eq_ok_iff.1 hValue).2

/-! ## Responses -/

section Responses

variable {w : Hello} {x : Exchange} {frame : Bytes} {h : Header}

theorem parsed?_read (hParse : Header.parse frame = .ok h) (hSuccess : h.status = .success) :
    w.operation.read x frame = x.receive frame h ∧
      w.operation.parsed? (x.receive frame h) = some (.ok (codes (available frame h))) := by
  constructor
  · unfold Envelope.read
    rw [hParse]
    rfl
  · exact w.operation.parsed?_of_success (x := x.receive frame h) hSuccess rfl rfl

/-- A successful negotiation has the codes for its value. -/
theorem value_read (hParse : Header.parse frame = .ok h) (hSuccess : h.status = .success) :
    w.operation.value (w.operation.read x frame) = codes (available frame h) := by
  obtain ⟨hRead, hParsed⟩ := parsed?_read (w := w) (x := x) hParse hSuccess
  rw [hRead]
  unfold Operation.value
  rw [hParsed]

/-- A frame of any length whose header can be read and reports success is taken over without a
fault. Its value is the list of the whole slots that it has. A frame that is cut off behind the
header has the first of these codes, and the body of a wish gives the codes of the wish back, also
with half a slot behind it. -/
theorem whole_codes (w : Hello) (x : Exchange) (frame : Bytes) (h : Header)
    (hParse : Header.parse frame = .ok h) (hSuccess : h.status = .success) :
    w.operation.value (w.operation.read x frame) =
        (List.range ((min (h.bodyOffset + h.valueLength) frame.length - h.bodyOffset) / 2)).map
          (fun i => frame.uint16At (h.bodyOffset + 2 * i)) ∧
      w.operation.afterValue (w.operation.read x frame) = x.receive frame h ∧
      (w.operation.afterValue (w.operation.read x frame)).fault = x.fault ∧
      (∀ start, start <+: frame → Header.size ≤ start.length →
        w.operation.value (w.operation.read x start) <+:
          w.operation.value (w.operation.read x frame)) ∧
      ∀ (wish : Hello) (odd : Bytes), odd.length ≤ 1 →
        valueSegment frame h = .ok (wish.body ++ odd) →
        w.operation.value (w.operation.read x frame) = wish.features := by
  obtain ⟨hRead, hParsed⟩ := parsed?_read (w := w) (x := x) hParse hSuccess
  have hAfter : w.operation.afterValue (w.operation.read x frame) = x.receive frame h := by
    rw [hRead]
    unfold Operation.afterValue
    rw [hParsed]
  have hFault : (w.operation.afterValue (w.operation.read x frame)).fault = x.fault := by
    rw [hAfter]
    rfl
  rw [value_read hParse hSuccess]
  refine ⟨codes_available frame h, hAfter, hFault, ?_, ?_⟩
  · intro start hStart hSize
    have hParseStart : Header.parse start = .ok h := by
      obtain ⟨rest, rfl⟩ := hStart
      rwa [Header.parse_append rest hSize] at hParse
    rw [value_read hParseStart hSuccess]
    exact codes_available_prefix hStart h
  · intro wish odd hOdd hValue
    rw [available_of_valueSegment hValue]
    exact codes_body_append wish hOdd

/-- Two codes and half of a third, behind one byte of extras and two of a key: both codes are read,
and one of them if the frame is cut off within the second. -/
theorem whole_codes_of_two_and_a_half :
    let wish : Hello := { features := [4, 7] }
    let x : Exchange := { key := some "client" }
    let h : Header :=
      { magic := .response, opcode := 0x1f, keyLength := 2, extrasLength := 1, datatype := 0
        statusOrVBucket := 0, bodyLength := 8, correlationId := 0, cas := 0 }
    let frame := h.toBytes ++ [0xee] ++ [0x6b, 0x6c] ++ (wish.body ++ [0])
    let start := frame.take 30
    Header.parse frame = .ok h ∧ h.status = .success ∧ start <+: frame ∧
      Header.size ≤ start.length ∧ valueSegment frame h = .ok (wish.body ++ [0]) ∧
      wish.operation.value (wish.operation.read x frame) = wish.features ∧
      (wish.operation.afterValue (wish.operation.read x frame)).fault = none ∧
      wish.operation.value (wish.operation.read x start) = [4] ∧
      wish.operation.value (wish.operation.read x start) <+:
        wish.operation.value (wish.operation.read x frame) := by
  intro wish x h frame start
  have hParse : Header.parse frame = .ok h := Header.parse_toBytes h _
  have hParseStart : Header.parse start = .ok h := Header.parse_toBytes h _
  obtain ⟨-, -, hFault, hPrefix, hBack⟩ := whole_codes wish x frame h hParse rfl
  have hStart : start <+: frame := List.take_prefix 30 frame
  have hOne := (whole_codes wish x start h hParseStart rfl).1
  exact ⟨hParse, rfl, hStart, by decide, rfl, hBack wish [0] (by decide) rfl, hFault,
    hOne.trans (by decide), hPrefix start hStart (by decide)⟩

end Responses

end Hello

end StoreClient
