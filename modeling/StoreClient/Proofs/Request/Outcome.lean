import StoreClient.Proofs.Request.Access
import StoreClient.Proofs.Wire.Header

/-!
# What reading a response comes to

Whatever bytes come back for a request, reading them and taking the value ends in one of three ways:
the value was decoded, the server refused the request, or the bytes could not be decoded. The status
of the exchange tells which. The faults of the readers are few: a frame that is too short for what
is to be read, a first byte that names no direction and, where a text is read, bytes that are none.
-/

namespace StoreClient

/-! ## Faults of readers -/

/-- Whether a fault says that there are fewer bytes than are needed. -/
def Fault.IsShort (fault : Fault) : Prop :=
  ∃ expected actual, fault = .incompleteFrame expected actual ∧ actual < expected

/-- Whether every fault that a reading can end in has a property. -/
def FailsOnly {α : Type} (p : Fault → Prop) (outcome : Except Fault α) : Prop :=
  ∀ fault, outcome = .error fault → p fault

section FailsOnly

variable {α β : Type} {p q : Fault → Prop}

theorem FailsOnly.ok (a : α) : FailsOnly p (.ok a : Except Fault α) := by
  intro fault h
  cases h

theorem FailsOnly.error {fault : Fault} (h : p fault) :
    FailsOnly p (.error fault : Except Fault α) := by
  intro fault' h'
  cases h'
  exact h

theorem FailsOnly.mono {outcome : Except Fault α} (h : FailsOnly p outcome)
    (hpq : ∀ fault, p fault → q fault) : FailsOnly q outcome :=
  fun fault hFault => hpq fault (h fault hFault)

/-- What fails for a reason of some kind fails so in every part. -/
theorem FailsOnly.bind {outcome : Except Fault α} {next : α → Except Fault β}
    (h : FailsOnly p outcome) (hNext : ∀ a, FailsOnly p (next a)) :
    FailsOnly p (outcome >>= next) := by
  cases outcome with
  | error fault => exact FailsOnly.error (h fault rfl)
  | ok a => exact hNext a

theorem FailsOnly.map {outcome : Except Fault α} (h : FailsOnly p outcome) (f : α → β) :
    FailsOnly p (outcome.map f) := by
  cases outcome with
  | error fault => exact FailsOnly.error (h fault rfl)
  | ok a => exact FailsOnly.ok (f a)

end FailsOnly

theorem segment_short (frame : Bytes) (start length : Nat) :
    FailsOnly Fault.IsShort (segment frame start length) := by
  unfold segment
  by_cases hShort : frame.length < start + length
  · rw [if_pos hShort]
    exact FailsOnly.error ⟨_, _, rfl, hShort⟩
  · rw [if_neg hShort]
    exact FailsOnly.ok _

theorem FieldType.read_short (t : FieldType) (order : ByteOrder) (span : Bytes) :
    FailsOnly Fault.IsShort (t.read order span) := by
  unfold FieldType.read
  by_cases hShort : span.length < t.width
  · rw [if_pos hShort]
    exact FailsOnly.error ⟨_, _, rfl, hShort⟩
  · rw [if_neg hShort]
    exact FailsOnly.ok _

theorem readText_stringEncoding (span : Bytes) :
    FailsOnly (fun fault => ∃ detail, fault = .stringEncoding detail) (readText span) := by
  unfold readText
  cases Utf8.decode span with
  | error flaw => exact FailsOnly.error ⟨flaw.message, rfl⟩
  | ok text => exact FailsOnly.ok text

theorem readMutationToken_short (vbucket : Option UInt16) (frame : Bytes) (h : Header) :
    FailsOnly Fault.IsShort (readMutationToken vbucket frame h) := by
  unfold readMutationToken
  cases vbucket with
  | none => exact FailsOnly.ok none
  | some vbucket =>
    by_cases hFew : h.extrasLength < 16
    · simp only [if_pos hFew]
      exact FailsOnly.ok none
    · simp only [if_neg hFew]
      exact (segment_short _ _ _).map _

/-- A report on a key cannot be parsed because it ends early or the key is no text. -/
theorem Observe.parse_fault (frame : Bytes) (h : Header) :
    FailsOnly (fun fault => fault.IsShort ∨ ∃ detail, fault = .stringEncoding detail)
      (Observe.parse frame h) := by
  have hSegment : ∀ start length,
      FailsOnly (fun fault => fault.IsShort ∨ ∃ detail, fault = .stringEncoding detail)
        (segment frame start length) :=
    fun start length => (segment_short frame start length).mono fun _ hShort => Or.inl hShort
  unfold Observe.parse
  refine (hSegment 16 4).bind fun persist => ?_
  refine (hSegment 20 4).bind fun repl => ?_
  refine (hSegment _ 2).bind fun vbucket => ?_
  refine (hSegment _ 2).bind fun keyLength => ?_
  refine (hSegment _ _).bind fun keyBytes => ?_
  refine ((readText_stringEncoding keyBytes).mono fun _ hText => Or.inr hText).bind fun key => ?_
  refine (hSegment _ 1).bind fun state => ?_
  refine (hSegment _ 8).bind fun cas => ?_
  exact FailsOnly.ok _

/-- A report on a partition cannot be parsed because it ends early. -/
theorem ObserveSeqno.parse_short (frame : Bytes) (h : Header) :
    FailsOnly Fault.IsShort (ObserveSeqno.parse frame h) := by
  unfold ObserveSeqno.parse
  refine (segment_short _ _ _).bind fun value => ?_
  simp only
  generalize (if (value.head? == some 1) = true then hardFailoverLength else noFailoverLength) =
    expected
  by_cases hShort : value.length < expected
  · rw [if_pos hShort]
    exact FailsOnly.error ⟨_, _, rfl, hShort⟩
  · rw [if_neg hShort]
    exact FailsOnly.ok _

/-- A header cannot be parsed because it ends early or does not begin with a magic byte. -/
theorem Header.parse_fault (frame : Bytes) :
    FailsOnly (fun fault => fault.IsShort ∨
      ∃ b, frame.head? = some b ∧ b ≠ 0x80 ∧ b ≠ 0x81 ∧ fault = .invalidMagic b)
      (Header.parse frame) := by
  unfold Header.parse
  by_cases hShort : frame.length < size
  · rw [if_pos hShort]
    exact FailsOnly.error (Or.inl ⟨_, _, rfl, hShort⟩)
  · rw [if_neg hShort]
    cases frame with
    | nil => exact absurd (by decide) hShort
    | cons b bytes =>
      rw [List.getD_cons_zero]
      unfold Magic.ofCode
      by_cases hRequest : b = 0x80
      · rw [if_pos hRequest]
        exact FailsOnly.ok _
      · by_cases hResponse : b = 0x81
        · rw [if_neg hRequest, if_pos hResponse]
          exact FailsOnly.ok _
        · rw [if_neg hRequest, if_neg hResponse]
          exact FailsOnly.error (Or.inr ⟨b, rfl, hRequest, hResponse, rfl⟩)

namespace Request

/-- Whether a fault is one that reading these bytes as the response to a request can end in. -/
def Explains (r : Request) (frame : Bytes) (fault : Fault) : Prop :=
  (∃ b, frame.head? = some b ∧ b ≠ 0x80 ∧ b ≠ 0x81 ∧ fault = .invalidMagic b) ∨
    (∃ expected actual, fault = .incompleteFrame expected actual ∧ actual < expected) ∨
    (r = .observe ∧ ∃ detail, fault = .stringEncoding detail)

theorem readToken_short (r : Request) (vbucket : Option UInt16) (frame : Bytes) (h : Header) :
    FailsOnly Fault.IsShort (r.operation.readToken vbucket frame h) := by
  cases r with
  | counter c => exact readMutationToken_short vbucket frame h
  | mutation m => exact readMutationToken_short vbucket frame h
  | hello | observe | observeSeqno | lookup => exact FailsOnly.ok none

/-- Whatever cannot be parsed is explained by the bytes. -/
theorem parse_explains (r : Request) (frame : Bytes) (h : Header) :
    FailsOnly (r.Explains frame) (r.operation.parse frame h) := by
  have hShort : ∀ fault : Fault, fault.IsShort → r.Explains frame fault :=
    fun fault hFault => Or.inr (Or.inl hFault)
  have hValue : FailsOnly (r.Explains frame) (valueSegment frame h) :=
    (segment_short _ _ _).mono hShort
  cases r with
  | counter c =>
    exact hValue.bind fun value => (FieldType.read_short .uint64 .network value).mono hShort
  | hello w => exact FailsOnly.ok _
  | observe =>
    refine (Observe.parse_fault frame h).mono fun fault hFault => ?_
    rcases hFault with hFault | hFault
    · exact hShort fault hFault
    · exact Or.inr (Or.inr ⟨rfl, hFault⟩)
  | observeSeqno o => exact (ObserveSeqno.parse_short frame h).mono hShort
  | lookup l => exact hValue
  | mutation m => exact hValue

/-- The mutation token can be read if the extras are there. -/
theorem exists_readToken (r : Request) (vbucket : Option UInt16) {frame : Bytes} {h : Header}
    (hExtras : Header.size + h.extrasLength.toNat ≤ frame.length) :
    ∃ token, r.operation.readToken vbucket frame h = .ok token := by
  have hToken : ∃ token, readMutationToken vbucket frame h = .ok token := by
    unfold readMutationToken
    cases vbucket with
    | none => exact ⟨none, rfl⟩
    | some vbucket =>
      by_cases hFew : h.extrasLength < 16
      · exact ⟨none, if_pos hFew⟩
      · have hMany : 16 ≤ h.extrasLength.toNat := Nat.le_of_not_lt hFew
        have hLong : ¬ frame.length < h.extrasOffset + 16 := by
          unfold Header.extrasOffset
          omega
        simp only [if_neg hFew, segment, if_neg hLong]
        exact ⟨_, rfl⟩
  cases r with
  | counter c => exact hToken
  | mutation m => exact hToken
  | hello | observe | observeSeqno | lookup => exact ⟨none, rfl⟩

end Request

/-! ## Taking the value -/

/-- No status on the wire is a failure of the client. -/
theorem Status.ofCode_ne_clientFailure (code : UInt16) : Status.ofCode code ≠ .clientFailure := by
  unfold Status.ofCode
  cases hLookup : Status.table.lookup code with
  | none =>
    intro h
    cases h
  | some status =>
    obtain ⟨before, after, hTable, -⟩ := List.lookup_eq_some_iff.1 hLookup
    have hMem : (code, status) ∈ Status.table := by
      rw [hTable]
      exact List.mem_append_right _ List.mem_cons_self
    have hAll : ∀ entry ∈ Status.table, entry.2 ≠ .clientFailure := by decide
    exact hAll _ hMem

namespace Operation

variable {α : Type} (op : Operation α) {x : Exchange}

theorem parsed?_of_not_success (h : x.status ≠ .success) : op.parsed? x = none := by
  have hSucceeded : x.succeeded = false := by
    unfold Exchange.succeeded Status.isSuccess
    exact beq_eq_false_iff_ne.2 h
  unfold parsed?
  rw [hSucceeded]

theorem parsed?_of_success {frame : Bytes} {h : Header} (hStatus : x.status = .success)
    (hResponse : x.response = some frame) (hHeader : x.header = some h) :
    op.parsed? x = some (op.parse frame h) := by
  have hSucceeded : x.succeeded = true := by
    unfold Exchange.succeeded
    rw [hStatus]
    rfl
  unfold parsed?
  rw [hSucceeded, hResponse, hHeader]

/-- A value is taken once: taking it again gives the same one and changes nothing. -/
theorem value_afterValue (x : Exchange) :
    op.value (op.afterValue x) = op.value x ∧
      op.afterValue (op.afterValue x) = op.afterValue x := by
  cases hParsed : op.parsed? x with
  | none =>
    have hAfter : op.afterValue x = x := by
      unfold afterValue
      rw [hParsed]
    rw [hAfter]
    exact ⟨rfl, hAfter⟩
  | some outcome =>
    cases outcome with
    | ok v =>
      have hAfter : op.afterValue x = x := by
        unfold afterValue
        rw [hParsed]
      rw [hAfter]
      exact ⟨rfl, hAfter⟩
    | error fault =>
      have hAfter : op.afterValue x = x.fail fault := by
        unfold afterValue
        rw [hParsed]
      have hNone : op.parsed? (x.fail fault) = none :=
        op.parsed?_of_not_success fun h => (nomatch h)
      rw [hAfter]
      unfold value afterValue
      rw [hNone, hParsed]
      exact ⟨rfl, rfl⟩

end Operation

/-! ## Verdicts -/

/-- What the response to a request comes to. -/
inductive Verdict where
  /-- The request succeeded, and the value was decoded. -/
  | decoded
  /-- The server refused the request. -/
  | refused
  /-- The bytes could not be decoded. -/
  | undecodable
deriving DecidableEq, Repr

/-- What a verdict says of a request, of the bytes that were read, of the exchange before they were
read and after the value was taken, and of the value. A fault that is not recorded leaves the
exchange with what it had: none, if nothing was read before. -/
def Verdict.Holds (r : Request) (frame : Bytes) (before after : Exchange) (value : r.Value) :
    Verdict → Prop
  | .decoded =>
    after.status = .success ∧ after.fault = before.fault ∧
      ∃ h, Header.parse frame = .ok h ∧ r.operation.parse frame h = .ok value
  | .refused =>
    (∃ h, Header.parse frame = .ok h ∧ after.status = h.status ∧ h.status ≠ .success) ∧
      after.fault = before.fault ∧ value = r.operation.default
  | .undecodable =>
    after.status = .clientFailure ∧ value = r.operation.default ∧
      ∃ fault, after.fault = some fault ∧ r.Explains frame fault

namespace Request

variable {r : Request} {x : Exchange} {frame : Bytes}

/-- Reading takes the response over, or records why it cannot be decoded. -/
theorem read_cases (r : Request) (x : Exchange) (frame : Bytes) :
    (∃ fault, (r.operation.read x frame).status = .clientFailure ∧
        (r.operation.read x frame).fault = some fault ∧ r.Explains frame fault) ∨
      ∃ h, Header.parse frame = .ok h ∧ (r.operation.read x frame).status = h.status ∧
        (r.operation.read x frame).fault = x.fault ∧
        (r.operation.read x frame).response = some frame ∧
        (r.operation.read x frame).header = some h := by
  unfold Envelope.read
  cases hParse : Header.parse frame with
  | error fault =>
    have hFault := Header.parse_fault frame fault hParse
    refine Or.inl ⟨fault, rfl, rfl, ?_⟩
    rcases hFault with hShort | hMagic
    · exact Or.inr (Or.inl hShort)
    · exact Or.inl hMagic
  | ok h =>
    simp only
    cases hToken : r.operation.readToken x.vbucket frame h with
    | error fault =>
      have hShort := r.readToken_short x.vbucket frame h fault hToken
      exact Or.inl ⟨fault, rfl, rfl, Or.inr (Or.inl hShort)⟩
    | ok token => cases token <;> exact Or.inr ⟨h, rfl, rfl, rfl, rfl, rfl⟩

/-- Every response is settled in one of these ways. -/
theorem exists_verdict (r : Request) (x : Exchange) (frame : Bytes) :
    ∃ verdict : Verdict, verdict.Holds r frame x
      (r.operation.afterValue (r.operation.read x frame))
      (r.operation.value (r.operation.read x frame)) := by
  generalize hRead : r.operation.read x frame = y
  have hCases := r.read_cases x frame
  rw [hRead] at hCases
  unfold Operation.value Operation.afterValue
  rcases hCases with
    ⟨fault, hStatus, hFault, hExplains⟩ | ⟨h, hParse, hStatus, hFault, hResponse, hHeader⟩
  · have hFailed : y.status ≠ .success := by
      rw [hStatus]
      decide
    rw [r.operation.parsed?_of_not_success hFailed]
    exact ⟨.undecodable, hStatus, rfl, fault, hFault, hExplains⟩
  · by_cases hSuccess : h.status = .success
    · rw [r.operation.parsed?_of_success (hStatus.trans hSuccess) hResponse hHeader]
      cases hValue : r.operation.parse frame h with
      | error fault =>
        exact ⟨.undecodable, rfl, rfl, fault, rfl, r.parse_explains frame h fault hValue⟩
      | ok value =>
        exact ⟨.decoded, hStatus.trans hSuccess, hFault, h, hParse, hValue⟩
    · have hFailed : y.status ≠ .success := by
        rw [hStatus]
        exact hSuccess
      rw [r.operation.parsed?_of_not_success hFailed]
      exact ⟨.refused, ⟨h, hParse, hStatus, hSuccess⟩, hFault, rfl⟩

/-- The verdict that goes with a status. -/
def verdictOf : Status → Verdict
  | .success => .decoded
  | .clientFailure => .undecodable
  | _ => .refused

/-- The status tells in which way a response was settled. -/
theorem verdict_eq {before after : Exchange} {value : r.Value} {verdict : Verdict}
    (h : verdict.Holds r frame before after value) : verdict = verdictOf after.status := by
  cases verdict with
  | decoded =>
    obtain ⟨hStatus, -⟩ := h
    rw [hStatus]
    rfl
  | undecodable =>
    obtain ⟨hStatus, -⟩ := h
    rw [hStatus]
    rfl
  | refused =>
    obtain ⟨⟨header, -, hStatus, hRefused⟩, -⟩ := h
    have hServer : header.status ≠ .clientFailure := Status.ofCode_ne_clientFailure _
    rw [hStatus]
    unfold verdictOf
    split
    · rename_i hSuccess
      exact absurd hSuccess hRefused
    · rename_i hFailure
      exact absurd hFailure hServer
    · rfl

/-- A response that is all there, with parts that fit into its body, brings no new fault when it is
read. -/
theorem read_fault_of_whole {h : Header} (hParse : Header.parse frame = .ok h)
    (hLength : frame.length = h.frameLength)
    (hSegments : h.extrasLength.toNat + h.keyLength.toNat ≤ h.bodyLength.toNat) :
    (r.operation.read x frame).fault = x.fault := by
  have hExtras : Header.size + h.extrasLength.toNat ≤ frame.length := by
    rw [hLength, Header.frameLength]
    omega
  obtain ⟨token, hToken⟩ := r.exists_readToken x.vbucket hExtras
  unfold Envelope.read
  simp only [hParse, hToken]
  cases token <;> rfl

/-- Whatever bytes are read as the response to a request, no access leaves them, neither while they
are read nor while the value is taken; exactly one verdict holds then; taking the value again gives
the same and changes nothing; and bytes that are as long as their header declares, with extras and
key within the body, are taken over without a fault. -/
theorem response_settled (r : Request) (x : Exchange) (frame : Bytes) :
    (r.checkedRead x frame = some (r.operation.read x frame) ∧
        r.checkedValue (r.operation.read x frame) =
          some (r.operation.value (r.operation.read x frame),
            r.operation.afterValue (r.operation.read x frame))) ∧
      (∃! verdict : Verdict, verdict.Holds r frame x
        (r.operation.afterValue (r.operation.read x frame))
        (r.operation.value (r.operation.read x frame))) ∧
      (r.operation.value (r.operation.afterValue (r.operation.read x frame)) =
          r.operation.value (r.operation.read x frame) ∧
        r.operation.afterValue (r.operation.afterValue (r.operation.read x frame)) =
          r.operation.afterValue (r.operation.read x frame)) ∧
      ∀ h, Header.parse frame = .ok h → frame.length = h.frameLength →
        h.extrasLength.toNat + h.keyLength.toNat ≤ h.bodyLength.toNat →
        (r.operation.read x frame).fault = x.fault := by
  obtain ⟨verdict, hVerdict⟩ := r.exists_verdict x frame
  have hUnique : ∀ verdict' : Verdict, verdict'.Holds r frame x
      (r.operation.afterValue (r.operation.read x frame))
      (r.operation.value (r.operation.read x frame)) → verdict' = verdict :=
    fun verdict' hVerdict' => (verdict_eq hVerdict').trans (verdict_eq hVerdict).symm
  exact ⟨⟨r.checkedRead_eq x frame, r.checkedValue_eq _⟩, ⟨verdict, hVerdict, hUnique⟩,
    r.operation.value_afterValue _,
    fun h hParse hLength hSegments => read_fault_of_whole hParse hLength hSegments⟩

/-- A decremented counter: the extras hold a mutation token, and the value the number 99. -/
theorem counter_response_settled :
    let r : Request := .counter { direction := .decrement }
    let x : Exchange := { key := some "hits", vbucket := some 6 }
    let frame : Bytes :=
      [0x81, 6, 0, 0, 16, 0, 0, 0, 0, 0, 0, 24] ++ List.replicate 35 0 ++ [99]
    ∃ h, Header.parse frame = .ok h ∧ frame.length = h.frameLength ∧
      h.extrasLength.toNat + h.keyLength.toNat ≤ h.bodyLength.toNat ∧
      (r.operation.read x frame).fault = x.fault ∧
      ∃! verdict : Verdict, verdict.Holds r frame x
        (r.operation.afterValue (r.operation.read x frame))
        (r.operation.value (r.operation.read x frame)) :=
  ⟨_, rfl, by decide, by decide, (response_settled _ _ _).2.2.2 _ rfl (by decide) (by decide),
    (response_settled _ _ _).2.1⟩

end Request

end StoreClient
