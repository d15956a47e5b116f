import StoreClient.Proofs.Text.Decoding

/-!
# Well-formed bytes

The table of rows is one account of the bytes that are a text. This is the other one: a character is
a first byte that says how many bytes follow, with the bits of its code point spread over all of
them, and of the spellings that this rule allows, those are left out that are longer than they need
be, that spell half of a surrogate pair, or that spell a number above the last code point. The two
accounts agree, so a byte string is decoded exactly if it is well formed.
-/

namespace StoreClient.Utf8

open String (utf8EncodeChar)

/-! ## Patterns -/

/-- The bit patterns of one to four bytes, with the number that their free bits make. -/
inductive Pattern : Bytes → Nat → Prop
  | one {a : UInt8} (ha : a.toNat < 0x80) : Pattern [a] a.toNat
  | two {a b : UInt8} (ha : 0xc0 ≤ a.toNat) (ha' : a.toNat < 0xe0) (hb : Tail b) :
      Pattern [a, b] ((a.toNat - 0xc0) * 64 + (b.toNat - 0x80))
  | three {a b c : UInt8} (ha : 0xe0 ≤ a.toNat) (ha' : a.toNat < 0xf0) (hb : Tail b)
      (hc : Tail c) :
      Pattern [a, b, c]
        (((a.toNat - 0xe0) * 64 + (b.toNat - 0x80)) * 64 + (c.toNat - 0x80))
  | four {a b c d : UInt8} (ha : 0xf0 ≤ a.toNat) (ha' : a.toNat < 0xf8) (hb : Tail b)
      (hc : Tail c) (hd : Tail d) :
      Pattern [a, b, c, d]
        ((((a.toNat - 0xf0) * 64 + (b.toNat - 0x80)) * 64 + (c.toNat - 0x80)) * 64 +
          (d.toNat - 0x80))

/-- Whether fewer bytes would spell the same number. -/
def Overlong (bytes : Bytes) (v : Nat) : Prop :=
  ∃ shorter, shorter.length < bytes.length ∧ Pattern shorter v

/-- Whether a number is one half of a surrogate pair. -/
def Surrogate (v : Nat) : Prop := 0xd800 ≤ v ∧ v ≤ 0xdfff

/-- The strings of characters, each spelled by the shortest pattern of a code point. -/
inductive WellFormed : Bytes → Prop
  | nil : WellFormed []
  | append {bytes rest : Bytes} {v : Nat} (hPattern : Pattern bytes v)
      (hShortest : ¬ Overlong bytes v) (hScalar : ¬ Surrogate v) (hLast : v ≤ 0x10ffff)
      (hRest : WellFormed rest) : WellFormed (bytes ++ rest)

/-- The number of values that this many bytes can spell. -/
def capacity (n : Nat) : Nat :=
  if n = 0 then 0 else if n = 1 then 0x80 else if n = 2 then 0x800
  else if n = 3 then 0x10000 else 0x200000

theorem capacity_mono {m n : Nat} (h : m ≤ n) : capacity m ≤ capacity n := by
  unfold capacity
  split_ifs <;> omega

section Rows

variable {bytes : Bytes} {v : Nat}

/-- A pattern of bytes has room for its value. -/
theorem Pattern.lt_capacity (h : Pattern bytes v) : v < capacity bytes.length := by
  cases h with
  | one ha => exact ha
  | two ha ha' hb =>
    unfold Tail at hb
    change _ < 0x800
    omega
  | three ha ha' hb hc =>
    unfold Tail at hb hc
    change _ < 0x10000
    omega
  | four ha ha' hb hc hd =>
    unfold Tail at hb hc hd
    change _ < 0x200000
    omega

/-- A number that a few bytes can spell has a pattern of this length. -/
theorem exists_pattern {n : Nat} (hn : n ≤ 3) (h : v < capacity n) :
    ∃ bytes, bytes.length = n ∧ Pattern bytes v := by
  have hCases : n = 0 ∨ n = 1 ∨ n = 2 ∨ n = 3 := by omega
  rcases hCases with rfl | rfl | rfl | rfl
  · exact absurd h (Nat.not_lt_zero v)
  · have hLess : v < 0x80 := h
    have hFirst := toNat_ofNat_of_lt (n := v) (by omega)
    have hPattern := Pattern.one (a := UInt8.ofNat v) (by omega)
    rw [hFirst] at hPattern
    exact ⟨_, rfl, hPattern⟩
  · have hLess : v < 0x800 := h
    have hFirst := toNat_ofNat_of_lt (n := 0xc0 + v / 64) (by omega)
    have hPattern := Pattern.two (a := UInt8.ofNat (0xc0 + v / 64)) (by omega) (by omega)
      (tail_ofNat v)
    have hValue : (0xc0 + v / 64 - 0xc0) * 64 + (v % 64 + 0x80 - 0x80) = v := by omega
    rw [hFirst, toNat_tail, hValue] at hPattern
    exact ⟨_, rfl, hPattern⟩
  · have hLess : v < 0x10000 := h
    have hFirst := toNat_ofNat_of_lt (n := 0xe0 + v / 4096) (by omega)
    have hPattern := Pattern.three (a := UInt8.ofNat (0xe0 + v / 4096)) (by omega) (by omega)
      (tail_ofNat (v / 64)) (tail_ofNat v)
    have hValue : ((0xe0 + v / 4096 - 0xe0) * 64 + (v / 64 % 64 + 0x80 - 0x80)) * 64 +
        (v % 64 + 0x80 - 0x80) = v := by omega
    rw [hFirst, toNat_tail, toNat_tail, hValue] at hPattern
    exact ⟨_, rfl, hPattern⟩

theorem Pattern.length_le (h : Pattern bytes v) : bytes.length ≤ 4 := by
  cases h <;> simp

/-- A pattern is overlong if a shorter one had had room for its value. -/
theorem overlong_iff (h : Pattern bytes v) :
    Overlong bytes v ↔ v < capacity (bytes.length - 1) := by
  constructor
  · rintro ⟨shorter, hShorter, hPattern⟩
    exact Nat.lt_of_lt_of_le hPattern.lt_capacity (capacity_mono (by omega))
  · intro hLess
    have hLength := h.length_le
    obtain ⟨shorter, hShorter, hPattern⟩ := exists_pattern (by omega) hLess
    refine ⟨shorter, ?_, hPattern⟩
    have hPos : bytes.length ≠ 0 := by
      intro hZero
      rw [hZero] at hLess
      exact Nat.not_lt_zero v hLess
    omega

/-- Each row of the table is a pattern. -/
theorem Spells.pattern (h : Spells bytes v) : Pattern bytes v := by
  cases h with
  | one ha => exact .one ha
  | two ha ha' hb => exact .two (by omega) ha' hb
  | three ha ha' hb hLong hSurrogate hc => exact .three ha ha' hb hc
  | four ha ha' hb hLong hLast hc hd => exact .four ha (by omega) hb hc hd

/-- The ranges of the first two octets leave out what is too long by an octet. -/
theorem Spells.not_overlong (h : Spells bytes v) : ¬ Overlong bytes v := by
  rw [overlong_iff h.pattern]
  cases h with
  | one ha => exact Nat.not_lt_zero _
  | two ha ha' hb =>
    unfold Tail at hb
    change ¬ _ < 0x80
    omega
  | three ha ha' hb hLong hSurrogate hc =>
    unfold Tail at hb hc
    change ¬ _ < 0x800
    omega
  | four ha ha' hb hLong hLast hc hd =>
    unfold Tail at hb hc hd
    change ¬ _ < 0x10000
    omega

/-- A pattern that is the shortest one of a code point is a row of the table. -/
theorem Pattern.spells (h : Pattern bytes v) (hShortest : ¬ Overlong bytes v)
    (hScalar : ¬ Surrogate v) (hLast : v ≤ 0x10ffff) : Spells bytes v := by
  rw [overlong_iff h] at hShortest
  unfold Surrogate at hScalar
  cases h with
  | one ha => exact .one ha
  | two ha ha' hb =>
    have hShort : ¬ _ < 0x80 := hShortest
    unfold Tail at hb
    exact .two (by omega) ha' hb
  | three ha ha' hb hc =>
    have hShort : ¬ _ < 0x800 := hShortest
    unfold Tail at hb hc
    exact .three ha ha' hb (by omega) (by omega) hc
  | four ha ha' hb hc hd =>
    have hShort : ¬ _ < 0x10000 := hShortest
    unfold Tail at hb hc hd
    exact .four ha (by omega) hb (by omega) (by omega) hc hd

/-- The rows of the table are the shortest patterns of the code points. -/
theorem spells_iff :
    Spells bytes v ↔ Pattern bytes v ∧ ¬ Overlong bytes v ∧ ¬ Surrogate v ∧ v ≤ 0x10ffff := by
  constructor
  · intro h
    have hValid := h.isValidChar
    unfold Nat.isValidChar at hValid
    unfold Surrogate
    exact ⟨h.pattern, h.not_overlong, by omega, by omega⟩
  · rintro ⟨hPattern, hShortest, hScalar, hLast⟩
    exact hPattern.spells hShortest hScalar hLast

end Rows

/-! ## Texts -/

theorem wellFormed_flatMap (chars : List Char) : WellFormed (chars.flatMap utf8EncodeChar) := by
  induction chars with
  | nil => exact .nil
  | cons c chars ih =>
    obtain ⟨hPattern, hShortest, hScalar, hLast⟩ := spells_iff.1 (spells_utf8EncodeChar c)
    rw [List.flatMap_cons]
    exact .append hPattern hShortest hScalar hLast ih

/-- Well-formed bytes are those of some characters. -/
theorem WellFormed.exists_flatMap {bytes : Bytes} (h : WellFormed bytes) :
    ∃ chars : List Char, chars.flatMap utf8EncodeChar = bytes := by
  induction h with
  | nil => exact ⟨[], rfl⟩
  | @append row rest v hPattern hShortest hScalar hLast hRest ih =>
    obtain ⟨chars, rfl⟩ := ih
    have hRow : Spells row v := spells_iff.2 ⟨hPattern, hShortest, hScalar, hLast⟩
    refine ⟨Char.ofNat v :: chars, ?_⟩
    rw [List.flatMap_cons, hRow.encode]

/-- The well-formed byte strings are the encodings of texts. -/
theorem wellFormed_iff {bytes : Bytes} : WellFormed bytes ↔ ∃ text, encode text = bytes := by
  constructor
  · intro h
    obtain ⟨chars, rfl⟩ := h.exists_flatMap
    refine ⟨String.ofList chars, ?_⟩
    unfold encode
    rw [String.toList_ofList]
  · rintro ⟨text, rfl⟩
    exact wellFormed_flatMap text.toList

end StoreClient.Utf8
