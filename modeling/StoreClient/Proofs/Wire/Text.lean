import StoreClient.Proofs.Text.WellFormed
import StoreClient.Proofs.Wire.Field

/-!
# Texts that are written and read back

A text has no length of its own on the wire: it is written as its bytes, and it is read from all the
bytes of a span. So exactly the well-formed spans are read, and writing and reading undo each other.
-/

namespace StoreClient

variable {text : String} {span bytes : Bytes}

theorem readText_eq_ok_iff : readText bytes = .ok text ↔ Utf8.encode text = bytes := by
  rw [← Utf8.decode_eq_ok_iff]
  unfold readText
  cases Utf8.decode bytes with
  | error flaw => exact ⟨fun h => (nomatch h), fun h => (nomatch h)⟩
  | ok text' =>
    constructor
    · intro h
      cases h
      rfl
    · intro h
      cases h
      rfl

theorem exists_readText_iff : (∃ text, readText bytes = .ok text) ↔ Utf8.WellFormed bytes := by
  simp only [readText_eq_ok_iff, Utf8.wellFormed_iff]

theorem readText_of_not_wellFormed (h : ¬ Utf8.WellFormed bytes) :
    ∃ flaw, Utf8.decode bytes = .error flaw ∧
      readText bytes = .error (.stringEncoding flaw.message) := by
  rw [← exists_readText_iff] at h
  unfold readText at h ⊢
  cases hDecode : Utf8.decode bytes with
  | ok text =>
    rw [hDecode] at h
    exact absurd ⟨text, rfl⟩ h
  | error flaw => exact ⟨flaw, rfl, rfl⟩

/-- A text is written into every span that has room for its bytes: they come first, the other bytes
stay as they are, and reading the bytes gives the text back. A span that is too short stays as it
is. The spans that are read are the well-formed ones, any other is a fault, and a text that was read
is written as the bytes it was read from. -/
theorem texts_written_and_read_back :
    (∀ (text : String) (span : Bytes),
      let size := text.utf8ByteSize
      let after := (writeText text span).2
      ((∃ n, (writeText text span).1 = .ok n) ↔ size ≤ span.length) ∧
        (size ≤ span.length →
          (writeText text span).1 = .ok size ∧ after.length = span.length ∧
            (after.take size).toByteArray = text.toByteArray ∧
            after.drop size = span.drop size ∧ readText (after.take size) = .ok text) ∧
        (span.length < size →
          writeText text span = (.error (.bufferOverflow size span.length), span))) ∧
      ∀ bytes : Bytes,
        ((∃ text, readText bytes = .ok text) ↔ Utf8.WellFormed bytes) ∧
          (∀ text, readText bytes = .ok text → text.utf8ByteSize = bytes.length ∧
            ∀ span : Bytes, bytes.length ≤ span.length →
              writeText text span = (.ok bytes.length, bytes ++ span.drop bytes.length)) ∧
          (¬ Utf8.WellFormed bytes →
            ∃ flaw, Utf8.decode bytes = .error flaw ∧
              readText bytes = .error (.stringEncoding flaw.message)) := by
  refine ⟨fun text span => ?_, fun bytes => ?_⟩
  · intro size after
    have hSize : (Utf8.encode text).length = size := (Utf8.utf8ByteSize_eq text).symm
    refine ⟨hSize ▸ writeBytes_ok_iff, fun hLong => ?_, fun hShort => ?_⟩
    · have hWrite : writeText text span = (.ok size, Utf8.encode text ++ span.drop size) := by
        rw [← hSize] at hLong ⊢
        exact writeBytes_of_le hLong
      have hAfter : after = Utf8.encode text ++ span.drop size := congrArg Prod.snd hWrite
      have hTake : after.take size = Utf8.encode text := by
        rw [hAfter, List.take_left' hSize]
      refine ⟨congrArg Prod.fst hWrite, ?_, ?_, ?_, ?_⟩
      · rw [hAfter, List.length_append, hSize, List.length_drop]
        omega
      · rw [hTake]
        exact Utf8.toByteArray_encode text
      · rw [hAfter, List.drop_left' hSize]
      · rw [hTake]
        exact readText_eq_ok_iff.2 rfl
    · rw [← hSize] at hShort ⊢
      exact writeBytes_of_short hShort
  · refine ⟨exists_readText_iff, fun text hRead => ?_, readText_of_not_wellFormed⟩
    obtain rfl := readText_eq_ok_iff.1 hRead
    exact ⟨Utf8.utf8ByteSize_eq text, fun span hLong => writeBytes_of_le hLong⟩

/-- Characters of one to four bytes fill ten bytes of a span of twelve and do not fit nine. Half of
a surrogate pair, spelled as if it were a code point, is no text. -/
theorem four_widths_written_and_read_back :
    let text := "aé€𐍈"
    let span : Bytes := List.replicate 12 0xee
    let lone : Bytes := [0xed, 0xa0, 0x80]
    text.utf8ByteSize = 10 ∧ (writeText text span).1 = .ok 10 ∧
      (writeText text span).2.drop 10 = [0xee, 0xee] ∧
      readText ((writeText text span).2.take 10) = .ok text ∧
      writeText text (span.take 9) = (.error (.bufferOverflow 10 9), span.take 9) ∧
      ¬ Utf8.WellFormed lone ∧
      readText lone =
        .error (.stringEncoding "invalid utf-8 sequence of 1 bytes from index 0") := by
  intro text span lone
  obtain ⟨hWritten, hRead⟩ := texts_written_and_read_back
  have hSize : text.utf8ByteSize = 10 := by decide
  obtain ⟨-, hFits, -⟩ := hWritten text span
  obtain ⟨hOk, -, -, hDrop, hBack⟩ := hFits (by decide)
  have hShort := (hWritten text (span.take 9)).2.2 (by decide)
  have hLone : readText lone =
      .error (.stringEncoding "invalid utf-8 sequence of 1 bytes from index 0") := by rfl
  have hNot : ¬ Utf8.WellFormed lone := by
    rw [← (hRead lone).1, hLone]
    rintro ⟨text, hText⟩
    cases hText
  rw [hSize] at hOk hDrop hBack hShort
  exact ⟨hSize, hOk, hDrop, hBack, hShort, hNot, hLone⟩

end StoreClient
