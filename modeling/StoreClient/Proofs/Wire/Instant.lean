import StoreClient.Proofs.Time.Instant
import StoreClient.Proofs.Wire.Field

/-!
# Instants that are written and read back

An instant is written as its milliseconds, a signed word of eight bytes that has room for the whole
range of instants. What is read back is the instant at the start of its millisecond. A word that
stands for no instant is a fault that names it.
-/

namespace StoreClient

variable {order : ByteOrder} {t u : Instant} {span : Bytes}

/-- The word that carries the milliseconds of an instant. -/
def Instant.word (t : Instant) : Int64 := Int64.ofInt t.millis

theorem Instant.toInt_word (h : t.InRange) : t.word.toInt = t.millis := by
  unfold Instant.InRange Instant.minMillis Instant.maxMillis at h
  exact Int64.toInt_ofInt_of_le (by omega) (by omega)

theorem writeInstant_of_le (h : 8 ≤ span.length) :
    writeInstant order t span =
      (.ok 8, FieldType.encode .int64 order t.word ++ span.drop 8) :=
  FieldType.write_of_le (t := .int64) t.word h

/-- An instant is written as its milliseconds. -/
theorem read_writeInstant (h : 8 ≤ span.length) :
    FieldType.read .int64 order (writeInstant order t span).2 = .ok t.word := by
  rw [writeInstant_of_le h]
  exact FieldType.read_encode .int64 order t.word _

theorem readInstant_of_word {word : Int64} (h : FieldType.read .int64 order span = .ok word) :
    readInstant order span =
      match Instant.ofMillis? word.toInt with
      | some t => .ok t
      | none => .error (.invalidTimestamp word.toInt) := by
  unfold readInstant
  generalize FieldType.read .int64 order span = outcome at h
  subst h
  rfl

/-- An instant can be read exactly if its milliseconds are in range. -/
theorem exists_readInstant_iff {word : Int64}
    (h : FieldType.read .int64 order span = .ok word) :
    (∃ t, readInstant order span = .ok t) ↔
      Instant.minMillis ≤ word.toInt ∧ word.toInt ≤ Instant.maxMillis := by
  rw [readInstant_of_word h, ← Instant.isSome_ofMillis?]
  cases Instant.ofMillis? word.toInt with
  | none => simp
  | some t => simp

/-- An instant that was read is written as the bytes it was read from. -/
theorem word_of_readInstant {word : Int64} (hWord : FieldType.read .int64 order span = .ok word)
    (hRead : readInstant order span = .ok t) :
    t.millis = word.toInt ∧ FieldType.encode .int64 order t.word = span.take 8 := by
  rw [readInstant_of_word hWord] at hRead
  cases hMillis : Instant.ofMillis? word.toInt with
  | none =>
    rw [hMillis] at hRead
    cases hRead
  | some u =>
    rw [hMillis] at hRead
    cases hRead
    have hSame := (Instant.millis_of_ofMillis? hMillis).1
    have hBack : t.word = word := by
      unfold Instant.word
      rw [hSame, Int64.ofInt_toInt]
    refine ⟨hSame, ?_⟩
    rw [hBack]
    exact FieldType.encode_of_read (by decide) hWord

/-- An instant in the range is written into every span of at least eight bytes, the bytes behind the
word stay as they are, and the last whole millisecond that is not after it is read back. A later
instant is never written as a lesser word. Of eight bytes in either order, those are read whose word
is the milliseconds of an instant in the range, and what was read is written as these bytes; any
other word is a fault that names it. -/
theorem instants_written_and_read_back (order : ByteOrder) :
    (∀ (t : Instant) (span : Bytes), Instant.first ≤ t → t ≤ Instant.last → 8 ≤ span.length →
      let after := (writeInstant order t span).2
      (writeInstant order t span).1 = .ok 8 ∧ after.drop 8 = span.drop 8 ∧
        ∃ u, readInstant order after = .ok u ∧ IsGreatest {v | v.IsWhole ∧ v ≤ t} u) ∧
      (∀ (t u : Instant) (span span' : Bytes), Instant.first ≤ t → t ≤ u → u ≤ Instant.last →
        8 ≤ span.length → 8 ≤ span'.length →
        ∃ m n : Int64, FieldType.read .int64 order (writeInstant order t span).2 = .ok m ∧
          FieldType.read .int64 order (writeInstant order u span').2 = .ok n ∧ m ≤ n) ∧
      ∀ span : Bytes, span.length = 8 →
        ∃ word : Int64, FieldType.read .int64 order span = .ok word ∧
          ((∃ t, readInstant order span = .ok t) ↔
            -8334601228800000 ≤ word.toInt ∧ word.toInt ≤ 8210266876799999) ∧
          (∀ t, readInstant order span = .ok t → t.millis = word.toInt ∧
            ∀ target : Bytes, 8 ≤ target.length →
              writeInstant order t target = (.ok 8, span ++ target.drop 8)) ∧
          (¬ (-8334601228800000 ≤ word.toInt ∧ word.toInt ≤ 8210266876799999) →
            readInstant order span = .error (.invalidTimestamp word.toInt)) := by
  refine ⟨fun t span hFirst hLast hLong => ?_,
    fun t u span span' hFirst hBefore hLast hLong hLong' => ?_, fun span hLength => ?_⟩
  · intro after
    have hRange : t.InRange := Instant.inRange_iff.2 ⟨hFirst, hLast⟩
    have hAfter : after = FieldType.encode .int64 order t.word ++ span.drop 8 :=
      congrArg Prod.snd (writeInstant_of_le hLong)
    have hWord : FieldType.read .int64 order after = .ok t.word := read_writeInstant hLong
    have hRead := readInstant_of_word hWord
    rw [Instant.toInt_word hRange] at hRead
    obtain ⟨u, hU⟩ := Instant.isSome_ofMillis?.2 hRange
    rw [hU] at hRead
    refine ⟨congrArg Prod.fst (writeInstant_of_le hLong), ?_, u, hRead,
      Instant.isGreatest_of_ofMillis? hU⟩
    rw [hAfter]
    exact List.drop_left' (FieldType.length_encode .int64 order t.word)
  · have hRange : t.InRange := Instant.inRange_iff.2 ⟨hFirst, hBefore.trans hLast⟩
    have hRange' : u.InRange := Instant.inRange_iff.2 ⟨hFirst.trans hBefore, hLast⟩
    refine ⟨t.word, u.word, read_writeInstant hLong, read_writeInstant hLong', ?_⟩
    rw [Int64.le_iff_toInt_le, Instant.toInt_word hRange, Instant.toInt_word hRange']
    exact Instant.millis_mono hBefore
  · have hLong : FieldType.width .int64 ≤ span.length := Nat.le_of_eq hLength.symm
    obtain ⟨word, hWord⟩ : ∃ word, FieldType.read .int64 order span = .ok word :=
      ⟨_, FieldType.read_of_le hLong⟩
    have hRead := readInstant_of_word hWord
    refine ⟨word, hWord, exists_readInstant_iff hWord, fun t hT => ?_, fun hOut => ?_⟩
    · obtain ⟨hMillis, hBytes⟩ := word_of_readInstant hWord hT
      refine ⟨hMillis, fun target hTarget => ?_⟩
      rw [writeInstant_of_le hTarget, hBytes]
      have hWhole : span.take 8 = span := List.take_of_length_le (Nat.le_of_eq hLength)
      rw [hWhole]
    · have hNone : Instant.ofMillis? word.toInt = none := Instant.ofMillis?_eq_none_iff.2 hOut
      rw [hRead, hNone]

/-- One nanosecond before 1970 belongs to the last millisecond before it, and is not written as a
greater word than the last instant of the range. The word after the last one is a fault. -/
theorem nanosecond_before_1970 :
    let t : Instant := ⟨-1, 999999999⟩
    let u : Instant := ⟨-1, 999000000⟩
    let span : Bytes := List.replicate 9 0xee
    let after := (writeInstant .native t span).2
    let late : Bytes := FieldType.encode .int64 .native 8210266876800000
    Instant.first ≤ t ∧ t ≤ Instant.last ∧ 8 ≤ span.length ∧ after.drop 8 = [0xee] ∧
      readInstant .native after = .ok u ∧ IsGreatest {v | v.IsWhole ∧ v ≤ t} u ∧
      (∃ m n : Int64, FieldType.read .int64 .native after = .ok m ∧
        FieldType.read .int64 .native (writeInstant .native Instant.last span).2 = .ok n ∧
        m ≤ n) ∧
      readInstant .native late = .error (.invalidTimestamp 8210266876800000) := by
  intro t u span after late
  obtain ⟨hWritten, hOrder, hRead⟩ := instants_written_and_read_back .native
  have hFirst : Instant.first ≤ t := by decide
  have hLast : t ≤ Instant.last := by decide
  have hLong : 8 ≤ span.length := by decide
  obtain ⟨-, hDrop, v, hV, hGreatest⟩ := hWritten t span hFirst hLast hLong
  have hU : readInstant .native after = .ok u := by decide
  obtain rfl : v = u := Except.ok.inj (hV.symm.trans hU)
  have hMono := hOrder t Instant.last span span hFirst hLast (le_refl _) hLong hLong
  obtain ⟨word, hWord, -, -, hLate⟩ := hRead late (by decide)
  have hValue : word = 8210266876800000 := Except.ok.inj (hWord.symm.trans (by decide))
  subst hValue
  exact ⟨hFirst, hLast, hLong, hDrop, hU, hGreatest, hMono, hLate (by decide)⟩

end StoreClient
