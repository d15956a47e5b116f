import Mathlib.Tactic.Convert
import Mathlib.Tactic.SplitIfs
import Mathlib.Tactic.ByContra
import StoreClient.Proofs.Text.Utf8

/-!
# Which bytes are a text

The bytes that spell a code point are given by a table (`Spells`). The decoding machine reads a row
of the table as one character, and what it accepts is made of such rows; each character is encoded
by the row of its code point. So exactly the encodings of texts are decoded, each to its text.
-/

namespace StoreClient.Utf8

open String (utf8EncodeChar)

/-- Whether a byte continues a character. -/
def Tail (b : UInt8) : Prop := 0x80 ≤ b.toNat ∧ b.toNat ≤ 0xbf

/-- The rows of the table, with the code point that each one spells. Overlong forms and surrogates
are kept out by the bounds on the second byte. -/
inductive Spells : Bytes → Nat → Prop
  | one {a : UInt8} (ha : a.toNat < 0x80) : Spells [a] a.toNat
  | two {a b : UInt8} (ha : 0xc2 ≤ a.toNat) (ha' : a.toNat < 0xe0) (hb : Tail b) :
      Spells [a, b] ((a.toNat - 0xc0) * 64 + (b.toNat - 0x80))
  | three {a b c : UInt8} (ha : 0xe0 ≤ a.toNat) (ha' : a.toNat < 0xf0) (hb : Tail b)
      (hLong : a.toNat = 0xe0 → 0xa0 ≤ b.toNat) (hSurrogate : a.toNat = 0xed → b.toNat ≤ 0x9f)
      (hc : Tail c) :
      Spells [a, b, c]
        (((a.toNat - 0xe0) * 64 + (b.toNat - 0x80)) * 64 + (c.toNat - 0x80))
  | four {a b c d : UInt8} (ha : 0xf0 ≤ a.toNat) (ha' : a.toNat < 0xf5) (hb : Tail b)
      (hLong : a.toNat = 0xf0 → 0x90 ≤ b.toNat) (hLast : a.toNat = 0xf4 → b.toNat ≤ 0x8f)
      (hc : Tail c) (hd : Tail d) :
      Spells [a, b, c, d]
        ((((a.toNat - 0xf0) * 64 + (b.toNat - 0x80)) * 64 + (c.toNat - 0x80)) * 64 +
          (d.toNat - 0x80))

/-! ## First bytes -/

theorem exists_ofNat (b : UInt8) : ∃ n < 256, b = UInt8.ofNat n :=
  ⟨b.toNat, b.toNat_lt, UInt8.ofNat_toNat.symm⟩

theorem lead_one {b : UInt8} (h : b.toNat < 0x80) : lead b = .whole (Char.ofNat b.toNat) := by
  have hLess : b < 0x80 := h
  unfold lead
  rw [if_pos hLess]

theorem lead_two {b : UInt8} (h : 0xc2 ≤ b.toNat) (h' : b.toNat < 0xe0) :
    lead b = .opens { seen := 1, missing := 0, bits := b.toNat - 0xc0 } := by
  obtain ⟨n, hn, rfl⟩ := exists_ofNat b
  revert n
  decide +kernel

theorem lead_three {b : UInt8} (h : 0xe0 ≤ b.toNat) (h' : b.toNat < 0xf0) :
    lead b =
      .opens
        { seen := 1
          missing := 1
          bits := b.toNat - 0xe0
          low := if b.toNat = 0xe0 then 0xa0 else 0x80
          high := if b.toNat = 0xed then 0x9f else 0xbf } := by
  obtain ⟨n, hn, rfl⟩ := exists_ofNat b
  revert n
  decide +kernel

theorem lead_four {b : UInt8} (h : 0xf0 ≤ b.toNat) (h' : b.toNat < 0xf5) :
    lead b =
      .opens
        { seen := 1
          missing := 2
          bits := b.toNat - 0xf0
          low := if b.toNat = 0xf0 then 0x90 else 0x80
          high := if b.toNat = 0xf4 then 0x8f else 0xbf } := by
  obtain ⟨n, hn, rfl⟩ := exists_ofNat b
  revert n
  decide +kernel

/-- No character begins with a continuation byte, nor with a byte that only overlong or too large
ones begin with. -/
theorem lead_invalid {b : UInt8} (h : 0x80 ≤ b.toNat)
    (h' : b.toNat < 0xc2 ∨ 0xf5 ≤ b.toNat) : lead b = .invalid := by
  obtain ⟨n, hn, rfl⟩ := exists_ofNat b
  revert n
  decide +kernel

/-! ## One step of the machine -/

section Machine

variable {read : List Char} {valid : Nat} {p : Pending} {b : UInt8} {rest : Bytes}
  {chars : List Char}

theorem run_whole {c : Char} (h : lead b = .whole c) :
    State.run { read, valid } (b :: rest) =
      State.run { read := c :: read, valid := valid + 1 } rest := by
  simp [State.run, State.next, h]

theorem run_opens (h : lead b = .opens p) :
    State.run { read, valid } (b :: rest) = State.run { read, valid, pending := some p } rest := by
  simp [State.run, State.next, h]

theorem run_more {missing : Nat} (h : p.admits b = true) (hMissing : p.missing = missing + 1) :
    State.run { read, valid, pending := some p } (b :: rest) =
      State.run
        { read, valid, pending := some { seen := p.seen + 1, missing, bits := p.extend b } }
        rest := by
  simp [State.run, State.next, h, hMissing]

theorem run_last (h : p.admits b = true) (hMissing : p.missing = 0) :
    State.run { read, valid, pending := some p } (b :: rest) =
      State.run { read := Char.ofNat (p.extend b) :: read, valid := valid + p.seen + 1 } rest := by
  simp [State.run, State.next, h, hMissing]

/-- A machine that is inside a character needs another byte. -/
theorem exists_of_run_pending {bytes : Bytes}
    (h : State.run { read, valid, pending := some p } bytes = .ok chars) :
    ∃ b rest, bytes = b :: rest ∧ p.admits b = true := by
  cases bytes with
  | nil => cases h
  | cons b rest =>
    refine ⟨b, rest, rfl, ?_⟩
    by_contra hNot
    simp [State.run, State.next, hNot] at h

end Machine

theorem admits_iff (p : Pending) (b : UInt8) :
    p.admits b = true ↔ p.low.toNat ≤ b.toNat ∧ b.toNat ≤ p.high.toNat := by
  simp [Pending.admits, UInt8.le_iff_toNat_le]

theorem tail_iff {seen missing bits : Nat} (b : UInt8) :
    ({ seen, missing, bits } : Pending).admits b = true ↔ Tail b := by
  rw [admits_iff]
  rfl

/-- The second byte of three is bounded where the first one is the least, or that of surrogates. -/
theorem second_of_three_iff (a b : UInt8) :
    ({ seen := 1
       missing := 1
       bits := a.toNat - 0xe0
       low := if a.toNat = 0xe0 then 0xa0 else 0x80
       high := if a.toNat = 0xed then 0x9f else 0xbf } : Pending).admits b = true ↔
      Tail b ∧ (a.toNat = 0xe0 → 0xa0 ≤ b.toNat) ∧ (a.toNat = 0xed → b.toNat ≤ 0x9f) := by
  rw [admits_iff]
  dsimp only
  unfold Tail
  split_ifs <;> simp <;> omega

/-- The second byte of four is bounded where the first one is the least or the greatest. -/
theorem second_of_four_iff (a b : UInt8) :
    ({ seen := 1
       missing := 2
       bits := a.toNat - 0xf0
       low := if a.toNat = 0xf0 then 0x90 else 0x80
       high := if a.toNat = 0xf4 then 0x8f else 0xbf } : Pending).admits b = true ↔
      Tail b ∧ (a.toNat = 0xf0 → 0x90 ≤ b.toNat) ∧ (a.toNat = 0xf4 → b.toNat ≤ 0x8f) := by
  rw [admits_iff]
  dsimp only
  unfold Tail
  split_ifs <;> simp <;> omega

/-! ## Rows of the table -/

section Rows

variable {read : List Char} {valid : Nat} {bytes : Bytes} {v : Nat}

/-- The machine reads a row as one character. -/
theorem Spells.run (h : Spells bytes v) (rest : Bytes) :
    State.run { read, valid } (bytes ++ rest) =
      State.run { read := Char.ofNat v :: read, valid := valid + bytes.length } rest := by
  cases h with
  | one ha => exact run_whole (lead_one ha)
  | two ha ha' hb =>
    exact (run_opens (lead_two ha ha')).trans (run_last ((tail_iff _).2 hb) rfl)
  | @three a b c ha ha' hb hLong hSurrogate hc =>
    have hSecond := (second_of_three_iff a b).2 ⟨hb, hLong, hSurrogate⟩
    refine (run_opens (lead_three ha ha')).trans ((run_more hSecond rfl).trans ?_)
    exact run_last ((tail_iff _).2 hc) rfl
  | @four a b c d ha ha' hb hLong hLast hc hd =>
    have hSecond := (second_of_four_iff a b).2 ⟨hb, hLong, hLast⟩
    refine (run_opens (lead_four ha ha')).trans ((run_more hSecond rfl).trans ?_)
    refine (run_more ((tail_iff _).2 hc) rfl).trans ?_
    exact run_last ((tail_iff _).2 hd) rfl

/-- What the machine accepts starts with a row. -/
theorem exists_spells {b : UInt8} {chars : List Char}
    (h : State.run { read, valid } (b :: bytes) = .ok chars) :
    ∃ row v rest, b :: bytes = row ++ rest ∧ Spells row v := by
  by_cases hOne : b.toNat < 0x80
  · exact ⟨[b], _, bytes, rfl, .one hOne⟩
  by_cases hNone : b.toNat < 0xc2 ∨ 0xf5 ≤ b.toNat
  · simp [State.run, State.next, lead_invalid (Nat.le_of_not_lt hOne) hNone] at h
  by_cases hTwo : b.toNat < 0xe0
  · rw [run_opens (lead_two (by omega) hTwo)] at h
    obtain ⟨c, rest, rfl, hc⟩ := exists_of_run_pending h
    exact ⟨[b, c], _, rest, rfl, .two (by omega) hTwo ((tail_iff c).1 hc)⟩
  by_cases hThree : b.toNat < 0xf0
  · rw [run_opens (lead_three (by omega) hThree)] at h
    obtain ⟨c, rest, rfl, hc⟩ := exists_of_run_pending h
    rw [run_more hc rfl] at h
    obtain ⟨d, rest, rfl, hd⟩ := exists_of_run_pending h
    obtain ⟨hTail, hLong, hSurrogate⟩ := (second_of_three_iff b c).1 hc
    exact ⟨[b, c, d], _, rest, rfl,
      .three (by omega) hThree hTail hLong hSurrogate ((tail_iff d).1 hd)⟩
  · rw [run_opens (lead_four (by omega) (by omega))] at h
    obtain ⟨c, rest, rfl, hc⟩ := exists_of_run_pending h
    rw [run_more hc rfl] at h
    obtain ⟨d, rest, rfl, hd⟩ := exists_of_run_pending h
    rw [run_more hd rfl] at h
    obtain ⟨e, rest, rfl, he⟩ := exists_of_run_pending h
    obtain ⟨hTail, hLong, hLast⟩ := (second_of_four_iff b c).1 hc
    exact ⟨[b, c, d, e], _, rest, rfl,
      .four (by omega) (by omega) hTail hLong hLast ((tail_iff d).1 hd) ((tail_iff e).1 he)⟩

theorem toNat_ofNat_of_valid {n : Nat} (h : n.isValidChar) : (Char.ofNat n).val.toNat = n := by
  unfold Char.ofNat
  rw [dif_pos h]
  rfl

/-- What bytes spell is a Unicode scalar value. -/
theorem Spells.isValidChar (h : Spells bytes v) : v.isValidChar := by
  unfold Nat.isValidChar
  cases h with
  | one ha => omega
  | two ha ha' hb =>
    unfold Tail at hb
    omega
  | three ha ha' hb hLong hSurrogate hc =>
    unfold Tail at hb hc
    omega
  | four ha ha' hb hLong hLast hc hd =>
    unfold Tail at hb hc hd
    omega

/-- The character of a row is encoded by the row. -/
theorem Spells.encode (h : Spells bytes v) : utf8EncodeChar (Char.ofNat v) = bytes := by
  have hValue := toNat_ofNat_of_valid h.isValidChar
  unfold utf8EncodeChar
  simp only [hValue]
  cases h with
  | one ha =>
    rw [if_pos (by omega), UInt8.ofNat_toNat]
  | two ha ha' hb =>
    unfold Tail at hb
    rw [if_neg (by omega), if_pos (by omega)]
    simp only [List.cons.injEq, ← UInt8.toNat_inj, UInt8.toNat_ofNat', and_true]
    omega
  | three ha ha' hb hLong hSurrogate hc =>
    unfold Tail at hb hc
    rw [if_neg (by omega), if_neg (by omega), if_pos (by omega)]
    simp only [List.cons.injEq, ← UInt8.toNat_inj, UInt8.toNat_ofNat', and_true]
    omega
  | four ha ha' hb hLong hLast hc hd =>
    unfold Tail at hb hc hd
    rw [if_neg (by omega), if_neg (by omega), if_neg (by omega)]
    simp only [List.cons.injEq, ← UInt8.toNat_inj, UInt8.toNat_ofNat', and_true]
    omega

end Rows

theorem toNat_ofNat_of_lt {n : Nat} (h : n < 256) : (UInt8.ofNat n).toNat = n := by
  rw [UInt8.toNat_ofNat', Nat.mod_eq_of_lt h]

theorem toNat_tail (n : Nat) : (UInt8.ofNat (n % 0x40 + 0x80)).toNat = n % 0x40 + 0x80 :=
  toNat_ofNat_of_lt (by omega)

/-- Six bits of a number make a byte that continues a character. -/
theorem tail_ofNat (n : Nat) : Tail (UInt8.ofNat (n % 0x40 + 0x80)) := by
  unfold Tail
  rw [toNat_tail]
  omega

/-- A character is encoded by the row of its code point. -/
theorem spells_utf8EncodeChar (c : Char) : Spells (utf8EncodeChar c) c.val.toNat := by
  have hValid : c.val.toNat < 0xd800 ∨ 0xdfff < c.val.toNat ∧ c.val.toNat < 0x110000 := c.valid
  generalize hValue : c.val.toNat = v at hValid
  unfold utf8EncodeChar
  simp only [hValue]
  by_cases hOne : v ≤ 0x7f
  · rw [if_pos hOne]
    have hRow := Spells.one (a := UInt8.ofNat v) (by rw [toNat_ofNat_of_lt] <;> omega)
    rwa [toNat_ofNat_of_lt (by omega)] at hRow
  by_cases hTwo : v ≤ 0x7ff
  · rw [if_neg hOne, if_pos hTwo]
    have hFirst := toNat_ofNat_of_lt (n := v / 64 % 0x20 + 0xc0) (by omega)
    have hRow := Spells.two (a := UInt8.ofNat (v / 64 % 0x20 + 0xc0)) (by omega) (by omega)
      (tail_ofNat v)
    rw [hFirst, toNat_tail] at hRow
    convert hRow using 1
    omega
  by_cases hThree : v ≤ 0xffff
  · rw [if_neg hOne, if_neg hTwo, if_pos hThree]
    have hFirst := toNat_ofNat_of_lt (n := v / 4096 % 0x10 + 0xe0) (by omega)
    have hSecond := toNat_tail (v / 64)
    have hRow := Spells.three (a := UInt8.ofNat (v / 4096 % 0x10 + 0xe0)) (by omega) (by omega)
      (tail_ofNat (v / 64)) (by omega) (by omega) (tail_ofNat v)
    simp only [hFirst, toNat_tail] at hRow
    convert hRow using 1
    omega
  · rw [if_neg hOne, if_neg hTwo, if_neg hThree]
    have hFirst := toNat_ofNat_of_lt (n := v / 262144 % 0x08 + 0xf0) (by omega)
    have hSecond := toNat_tail (v / 4096)
    have hRow := Spells.four (a := UInt8.ofNat (v / 262144 % 0x08 + 0xf0)) (by omega) (by omega)
      (tail_ofNat (v / 4096)) (by omega) (by omega) (tail_ofNat (v / 64)) (tail_ofNat v)
    simp only [hFirst, toNat_tail] at hRow
    convert hRow using 1
    omega

/-! ## Texts -/

/-- The bytes of characters are decoded to these characters. -/
theorem run_encode (chars read : List Char) (valid : Nat) :
    State.run { read, valid } (chars.flatMap utf8EncodeChar) = .ok (read.reverse ++ chars) := by
  induction chars generalizing read valid with
  | nil => simp [State.run]
  | cons c chars ih =>
    rw [List.flatMap_cons, (spells_utf8EncodeChar c).run, ih]
    simp

/-- What the machine accepts is the encoding of what it has read. -/
theorem encode_of_run {bytes : Bytes} {read chars : List Char} {valid : Nat}
    (h : State.run { read, valid } bytes = .ok chars) :
    ∃ new, chars = read.reverse ++ new ∧ new.flatMap utf8EncodeChar = bytes := by
  -- the rows have different lengths, so the induction is on the number of bytes that are left
  induction hLength : bytes.length using Nat.strongRecOn generalizing bytes read valid with
  | _ length ih =>
    cases bytes with
    | nil =>
      cases h
      exact ⟨[], by simp⟩
    | cons b bytes =>
      obtain ⟨row, v, rest, hSplit, hRow⟩ := exists_spells h
      rw [hSplit, hRow.run] at h
      have hPos : 0 < row.length := by
        cases hRow <;> simp
      have hShorter : rest.length < length := by
        rw [← hLength, hSplit, List.length_append]
        omega
      obtain ⟨new, hChars, hBytes⟩ := ih _ hShorter h rfl
      refine ⟨Char.ofNat v :: new, by simp [hChars], ?_⟩
      rw [List.flatMap_cons, hRow.encode, hBytes, hSplit]

/-- A byte string is decoded to a text exactly if it is the encoding of the text. -/
theorem decode_eq_ok_iff {bytes : Bytes} {text : String} :
    decode bytes = .ok text ↔ encode text = bytes := by
  unfold decode encode
  constructor
  · intro h
    cases hRun : State.run {} bytes with
    | error flaw =>
      rw [hRun] at h
      cases h
    | ok chars =>
      rw [hRun] at h
      cases h
      obtain ⟨new, hChars, hBytes⟩ := encode_of_run hRun
      rw [hChars]
      simpa using hBytes
  · rintro rfl
    rw [run_encode]
    simp [Except.map]

end StoreClient.Utf8
