import StoreClient.Proofs.Bytes.Word
import StoreClient.Proofs.Wire.Header
import StoreClient.Request.Layout

/-!
# Frames and their layouts

When a layout gives a frame, and what the frame then consists of. The correlation id and the
compare-and-swap value go into the header as they are; nothing else of the frame depends on them.
-/

namespace StoreClient

theorem bind_eq_ok_iff {ε α β : Type} {x : Except ε α} {next : α → Except ε β} {b : β} :
    (x >>= next) = .ok b ↔ ∃ a, x = .ok a ∧ next a = .ok b := by
  cases x with
  | error e =>
    constructor
    · intro h
      cases h
    · rintro ⟨a, h, -⟩
      cases h
  | ok a =>
    constructor
    · intro h
      exact ⟨a, rfl, h⟩
    · rintro ⟨a', h, hNext⟩
      cases h
      exact hNext

theorem checkLength_eq_ok_iff {segment : String} {length max : Nat} {u : Unit} :
    checkLength segment length max = .ok u ↔ length ≤ max := by
  unfold checkLength
  split
  · rename_i h
    exact ⟨fun hOk => (nomatch hOk), fun hLe => absurd h (Nat.not_lt_of_le hLe)⟩
  · rename_i h
    exact ⟨fun _ => Nat.le_of_not_lt h, fun _ => rfl⟩

namespace Layout

/-- Whether a layout with the given extras and body has a frame: a key is there if one is needed,
and the segments fit the fields that carry their lengths. -/
structure Fits (l : Layout) (extras body : Bytes) : Prop where
  hasKey : ¬ (l.requiresKey && l.key.isEmpty) = true
  hasExtras : l.extras = .ok extras
  hasBody : l.body = .ok body
  keyLength : l.key.length ≤ maxKeyLength
  extrasLength : extras.length ≤ maxExtrasLength
  bodyLength : extras.length + l.key.length + l.path.length + body.length ≤ maxBodyLength

theorem frame_eq_ok_iff {l : Layout} {correlationId : UInt32} {cas : UInt64} {frame : Bytes} :
    l.frame correlationId cas = .ok frame ↔
      ∃ extras body, l.Fits extras body ∧
        (l.header correlationId cas extras body).toBytes ++ extras ++ l.key ++ l.path ++ body
          = frame := by
  unfold Layout.frame
  by_cases hKey : (l.requiresKey && l.key.isEmpty) = true
  · rw [if_pos hKey]
    constructor
    · intro h
      cases h
    · rintro ⟨extras, body, hFits, -⟩
      exact absurd hKey hFits.hasKey
  · rw [if_neg hKey]
    simp only [bind_eq_ok_iff, checkLength_eq_ok_iff]
    constructor
    · rintro ⟨extras, hExtras, body, hBody, -, hKeyLength, -, hExtrasLength, -, hBodyLength, hFrame⟩
      cases hFrame
      exact ⟨extras, body, ⟨hKey, hExtras, hBody, hKeyLength, hExtrasLength, hBodyLength⟩, rfl⟩
    · rintro ⟨extras, body, hFits, rfl⟩
      exact ⟨extras, hFits.hasExtras, body, hFits.hasBody, (), hFits.keyLength, (),
        hFits.extrasLength, (), hFits.bodyLength, rfl⟩

/-- With another compare-and-swap value a layout that has a frame has one too, and only the eight
bytes of the value differ. -/
theorem frame_cas {l : Layout} {correlationId : UInt32} {cas : UInt64} {frame : Bytes}
    (h : l.frame correlationId cas = .ok frame) (cas' : UInt64) :
    l.frame correlationId cas' = .ok (frame.take 16 ++ Bytes.ofUInt64 cas' ++ frame.drop 24) := by
  obtain ⟨extras, body, hFits, rfl⟩ := frame_eq_ok_iff.1 h
  refine frame_eq_ok_iff.2 ⟨extras, body, hFits, ?_⟩
  have hSize : (l.header correlationId cas extras body).toBytes.length = 24 :=
    Header.length_toBytes _
  have hHeader : l.header correlationId cas' extras body =
      { l.header correlationId cas extras body with cas := cas' } := rfl
  rw [hHeader, Header.toBytes_cas]
  simp only [List.append_assoc]
  rw [List.take_append_of_le_length (by omega), List.drop_append_of_le_length (by omega),
    List.drop_of_length_le (by omega), List.nil_append]

theorem frame_eq_iff {l : Layout} {correlationId : UInt32} {cas cas' : UInt64} {frame : Bytes}
    (h : l.frame correlationId cas = .ok frame) :
    l.frame correlationId cas' = .ok frame ↔ cas' = cas := by
  constructor
  · intro h'
    have hCas := frame_cas h cas
    have hCas' := frame_cas h cas'
    rw [h] at hCas
    rw [h'] at hCas'
    have hBytes : frame.take 16 ++ Bytes.ofUInt64 cas' ++ frame.drop 24 =
        frame.take 16 ++ Bytes.ofUInt64 cas ++ frame.drop 24 :=
      (Except.ok.inj hCas').symm.trans (Except.ok.inj hCas)
    have hValue : frame.take 16 ++ Bytes.ofUInt64 cas' = frame.take 16 ++ Bytes.ofUInt64 cas :=
      List.append_cancel_right hBytes
    exact Bytes.ofUInt64_injective (List.append_cancel_left hValue)
  · rintro rfl
    exact h

end Layout

end StoreClient
