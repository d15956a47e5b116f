import StoreClient.Text.Blank
import StoreClient.Text.Lowercase
import StoreClient.Text.Numeral
import StoreClient.Text.Split
import Mathlib.Data.List.TakeWhile

/-!
# Pieces of a text

A text is its parts with separators in between. Blanks at the ends of a piece do not survive
trimming, and the case of its ASCII letters does not survive lower-casing. A number is read back
from its decimal numeral.
-/

namespace StoreClient

namespace Text

variable {c : Char} {text blanks : List Char}

/-! ## Parts -/

/-- The parts of a text are those of the core library. -/
theorem splitOn_eq (separator : Char) (text : List Char) :
    splitOn separator text = text.splitOn separator := by
  induction text with
  | nil => rfl
  | cons c text ih =>
    rw [splitOn_cons, ih, List.splitOn_eq_splitOnP, List.splitOn_eq_splitOnP,
      List.splitOnP_cons_eq_if_modifyHead]
    unfold splitStep
    by_cases hSeparator : c = separator
    · rw [if_pos hSeparator, if_pos (beq_iff_eq.2 hSeparator)]
    · rw [if_neg hSeparator, if_neg (mt beq_iff_eq.1 hSeparator)]
      cases hParts : List.splitOnP (fun d => d == separator) text with
      | nil => exact absurd hParts (List.splitOnP_ne_nil _ text)
      | cons part parts => rfl

/-- The parts joined by separators are the text. -/
theorem intercalate_splitOn (separator : Char) (text : List Char) :
    [separator].intercalate (splitOn separator text) = text := by
  rw [splitOn_eq]
  exact List.intercalate_splitOn separator

/-- Parts without separators are found again once they are joined. -/
theorem splitOn_intercalate {separator : Char} {parts : List (List Char)}
    (hParts : ∀ part ∈ parts, separator ∉ part) (hSome : parts ≠ []) :
    splitOn separator ([separator].intercalate parts) = parts := by
  rw [splitOn_eq]
  exact List.splitOn_intercalate separator hParts hSome

/-- No part has a separator. -/
theorem not_mem_of_mem_splitOn {separator : Char} {part : List Char}
    (hPart : part ∈ splitOn separator text) : separator ∉ part := by
  induction text generalizing part with
  | nil =>
    rw [splitOn_nil, List.mem_singleton] at hPart
    rw [hPart]
    exact List.not_mem_nil
  | cons c text ih =>
    rw [splitOn_cons] at hPart
    unfold splitStep at hPart
    split at hPart
    · rcases List.mem_cons.1 hPart with rfl | hPart
      · exact List.not_mem_nil
      · exact ih hPart
    · rename_i hOther
      cases hParts : splitOn separator text with
      | nil =>
        rw [hParts] at hPart
        rw [List.mem_singleton.1 hPart, List.mem_singleton]
        exact Ne.symm hOther
      | cons first rest =>
        rw [hParts] at hPart ih
        rcases List.mem_cons.1 hPart with rfl | hPart
        · exact List.not_mem_cons_of_ne_of_not_mem (Ne.symm hOther) (ih List.mem_cons_self)
        · exact ih (List.mem_cons_of_mem _ hPart)

/-! ## Trimming -/

theorem trimEnd_append_of_blank (hBlanks : ∀ c ∈ blanks, isBlank c = true) :
    trimEnd (text ++ blanks) = trimEnd text := by
  rw [trimEnd, List.reverse_append, List.dropWhile_append_of_pos, trimEnd]
  exact fun c hc => hBlanks c (List.mem_reverse.1 hc)

theorem trimStart_eq_nil_iff : trimStart text = [] ↔ ∀ c ∈ text, isBlank c = true :=
  List.dropWhile_eq_nil_iff

/-- Blanks in front do not count. -/
theorem trim_blank_append (hBlanks : ∀ c ∈ blanks, isBlank c = true) :
    trim (blanks ++ text) = trim text := by
  rw [trim, trimStart, List.dropWhile_append_of_pos hBlanks, trim, trimStart]

/-- Blanks behind do not count. -/
theorem trim_append_blank (hBlanks : ∀ c ∈ blanks, isBlank c = true) :
    trim (text ++ blanks) = trim text := by
  rw [trim, trimStart, List.dropWhile_append]
  split
  · rename_i hNone
    have hText : trimStart text = [] := List.isEmpty_iff.1 hNone
    have hRest : trimStart blanks = [] := trimStart_eq_nil_iff.2 hBlanks
    rw [trim, hText]
    exact congrArg trimEnd hRest
  · exact trimEnd_append_of_blank hBlanks

theorem exists_trimStart (text : List Char) :
    ∃ blanks, (∀ c ∈ blanks, isBlank c = true) ∧ text = blanks ++ trimStart text := by
  refine ⟨text.takeWhile isBlank, fun _ hc => List.mem_takeWhile_imp hc, ?_⟩
  exact List.takeWhile_append_dropWhile.symm

theorem exists_trimEnd (text : List Char) :
    ∃ blanks, (∀ c ∈ blanks, isBlank c = true) ∧ text = trimEnd text ++ blanks := by
  obtain ⟨blanks, hBlanks, hText⟩ := exists_trimStart text.reverse
  refine ⟨blanks.reverse, fun c hc => hBlanks c (List.mem_reverse.1 hc), ?_⟩
  have hReversed := congrArg List.reverse hText
  rw [List.reverse_reverse, List.reverse_append] at hReversed
  exact hReversed

/-- A text is what is left of it by trimming, with blanks around it. -/
theorem exists_trim (text : List Char) :
    ∃ before after, (∀ c ∈ before ++ after, isBlank c = true) ∧
      text = before ++ (trim text ++ after) := by
  obtain ⟨before, hBefore, hText⟩ := exists_trimStart text
  obtain ⟨after, hAfter, hStart⟩ := exists_trimEnd (trimStart text)
  exact ⟨before, after, List.forall_mem_append.2 ⟨hBefore, hAfter⟩,
    hText.trans (congrArg (before ++ ·) hStart)⟩

theorem trim_trimStart (text : List Char) : trim (trimStart text) = trim text := by
  obtain ⟨blanks, hBlanks, hText⟩ := exists_trimStart text
  have hTrim : trim (blanks ++ trimStart text) = trim (trimStart text) :=
    trim_blank_append hBlanks
  rw [← hText] at hTrim
  exact hTrim.symm

theorem trim_trimEnd (text : List Char) : trim (trimEnd text) = trim text := by
  obtain ⟨blanks, hBlanks, hText⟩ := exists_trimEnd text
  have hTrim : trim (trimEnd text ++ blanks) = trim (trimEnd text) := trim_append_blank hBlanks
  rw [← hText] at hTrim
  exact hTrim.symm

/-- What stands around a character that is no blank is trimmed on its own side only. -/
theorem trim_append_cons {before after : List Char} (hc : isBlank c = false) :
    trim (before ++ c :: after) = trimStart before ++ c :: trimEnd after := by
  have hFirst (text : List Char) (rest : List Char) :
      (text ++ c :: rest).dropWhile isBlank = text.dropWhile isBlank ++ c :: rest := by
    have hStops : ¬ isBlank c = true := by
      rw [hc]
      exact Bool.false_ne_true
    rw [List.dropWhile_append]
    split
    · rename_i hNone
      rw [List.isEmpty_iff.1 hNone, List.dropWhile_cons_of_neg hStops]
      rfl
    · rfl
  have hStart : trimStart (before ++ c :: after) = trimStart before ++ c :: after := hFirst _ _
  rw [trim, hStart, trimEnd, List.reverse_append, List.reverse_cons, List.append_assoc,
    List.singleton_append, hFirst, List.reverse_append, List.reverse_cons, List.reverse_reverse,
    List.append_assoc]
  rfl

/-- A text of blanks is trimmed to nothing, and no other one is. -/
theorem trim_eq_nil_iff : trim text = [] ↔ ∀ c ∈ text, isBlank c = true := by
  obtain ⟨before, after, hBlanks, hText⟩ := exists_trim text
  constructor
  · intro hNone
    rw [hNone, List.nil_append] at hText
    rw [hText]
    exact hBlanks
  · intro hAll
    rw [trim, trimStart_eq_nil_iff.2 hAll]
    rfl

/-- Trimming drops blanks only. -/
theorem mem_trim (hc : isBlank c = false) : c ∈ trim text ↔ c ∈ text := by
  obtain ⟨before, after, hBlanks, hText⟩ := exists_trim text
  have hNot : c ∉ before ++ after := fun hMem =>
    Bool.false_ne_true (hc.symm.trans (hBlanks c hMem))
  rw [List.mem_append, not_or] at hNot
  constructor
  · intro hMem
    rw [hText]
    exact List.mem_append_right _ (List.mem_append_left _ hMem)
  · intro hMem
    rw [hText] at hMem
    have hRest := (List.mem_append.1 hMem).resolve_left hNot.1
    exact (List.mem_append.1 hRest).resolve_right hNot.2

/-- A text without blanks is not trimmed. -/
theorem trim_eq_self (hNone : ∀ c ∈ text, isBlank c = false) : trim text = text := by
  obtain ⟨before, after, hBlanks, hText⟩ := exists_trim text
  have hEmpty : before ++ after = [] := by
    refine List.eq_nil_iff_forall_not_mem.2 fun c hc => ?_
    have hMem : c ∈ text := by
      rw [hText]
      rcases List.mem_append.1 hc with hc | hc
      · exact List.mem_append_left _ hc
      · exact List.mem_append_right _ (List.mem_append_right _ hc)
    exact Bool.false_ne_true ((hNone c hMem).symm.trans (hBlanks c hc))
  obtain ⟨hBefore, hAfter⟩ := List.append_eq_nil_iff.1 hEmpty
  rw [hBefore, hAfter, List.nil_append, List.append_nil] at hText
  exact hText.symm

theorem isBlank_of_isDigit (hc : c.isDigit = true) : isBlank c = false := by
  have hAll : ∀ n < 0x3a, 0x30 ≤ n → isBlank (Char.ofNat n) = false := by decide
  rw [Char.isDigit, Bool.and_eq_true, decide_eq_true_eq, decide_eq_true_eq] at hc
  have hNot := hAll c.toNat (Nat.lt_succ_of_le hc.2) hc.1
  rw [Char.ofNat_toNat] at hNot
  exact hNot

/-! ## Lower-casing -/

/-- The capital letters of ASCII. -/
def capitals : List Char := "ABCDEFGHIJKLMNOPQRSTUVWXYZ".toList

/-- Only the capital letters of ASCII have another form. -/
theorem toLower_eq_self (hc : c ∉ capitals) : c.toLower = c := by
  have hAll : ∀ n < 0x5b, 0x41 ≤ n → Char.ofNat n ∈ capitals := by decide
  refine dif_neg fun hRange => hc ?_
  obtain ⟨hLow, hHigh⟩ := hRange
  have hMem := hAll c.toNat (Nat.lt_succ_of_le hHigh) hLow
  rw [Char.ofNat_toNat] at hMem
  exact hMem

/-- What has one value for both forms of each capital letter depends on one form only. -/
theorem apply_toLower {α : Type} (f : Char → α)
    (hCapitals : capitals.map (fun c => f c.toLower) = capitals.map f) (c : Char) :
    f c.toLower = f c := by
  by_cases hc : c ∈ capitals
  · exact List.map_inj_left.1 hCapitals c hc
  · rw [toLower_eq_self hc]

@[simp] theorem isBlank_toLower (c : Char) : isBlank c.toLower = isBlank c :=
  apply_toLower isBlank (by decide) c

theorem lowerChar_toLower (c : Char) : lowerChar c.toLower = lowerChar c :=
  apply_toLower lowerChar (by decide) c

/-- A character that is no letter of ASCII is the lower-case form of itself only. -/
theorem toLower_eq_iff {d : Char} (hd : d ∉ capitals ++ capitals.map Char.toLower) :
    c.toLower = d ↔ c = d := by
  rw [List.mem_append, not_or] at hd
  by_cases hc : c ∈ capitals
  · refine iff_of_false ?_ (ne_of_mem_of_not_mem hc hd.1)
    exact ne_of_mem_of_not_mem (List.mem_map_of_mem hc) hd.2
  · rw [toLower_eq_self hc]

theorem dropWhile_map_toLower {p : Char → Bool} (hp : ∀ c, p c.toLower = p c) (text : List Char) :
    (text.map Char.toLower).dropWhile p = (text.dropWhile p).map Char.toLower := by
  rw [List.dropWhile_map]
  exact congrArg (fun q => (text.dropWhile q).map Char.toLower) (funext hp)

/-- Trimming and lowering the case of a text may change places. -/
theorem trim_map_toLower (text : List Char) :
    trim (text.map Char.toLower) = (trim text).map Char.toLower := by
  rw [trim, trimStart, dropWhile_map_toLower isBlank_toLower, trimEnd, ← List.map_reverse,
    dropWhile_map_toLower isBlank_toLower, ← List.map_reverse]
  rfl

theorem startsCased_map_toLower (text : List Char) :
    startsCased (text.map Char.toLower) = startsCased text := by
  have hIgnorable := apply_toLower (inRanges caseIgnorableRanges) (by decide +kernel)
  have hCased := apply_toLower (inRanges casedRanges) (by decide +kernel)
  unfold startsCased
  rw [dropWhile_map_toLower hIgnorable]
  cases text.dropWhile (inRanges caseIgnorableRanges) with
  | nil => rfl
  | cons c rest => exact hCased c

theorem lowerAt_map_toLower (before : List Char) (c : Char) (after : List Char) :
    lowerAt (before.map Char.toLower) c.toLower (after.map Char.toLower) =
      lowerAt before c after := by
  have hDotted : c.toLower = 'İ' ↔ c = 'İ' := toLower_eq_iff (by decide)
  have hSigma : c.toLower = 'Σ' ↔ c = 'Σ' := toLower_eq_iff (by decide)
  unfold lowerAt
  simp only [hDotted, hSigma, startsCased_map_toLower, lowerChar_toLower]

/-- The case of ASCII letters does not count, not even around a capital sigma. -/
theorem lowercase_map_toLower (text : List Char) :
    lowercase (text.map Char.toLower) = lowercase text := by
  have hFrom (before done : List Char) : lowercaseFrom (before.map Char.toLower) done
      (text.map Char.toLower) = lowercaseFrom before done text := by
    induction text generalizing before done with
    | nil => rfl
    | cons c after ih =>
      rw [List.map_cons, lowercaseFrom, lowercaseFrom, lowerAt_map_toLower]
      exact ih (c :: before) _
  exact hFrom [] []

end Text

/-! ## Numerals -/

namespace Numeral

/-- The decimal numeral of a number. -/
def decimal (n : Nat) : List Char := Nat.toDigits 10 n

theorem toList_toString (n : Nat) : (toString n).toList = decimal n := by
  show (Nat.repr n).toList = _
  rw [Nat.repr_eq_ofList_toDigits, String.toList_ofList]
  rfl

theorem isDigit_of_mem_decimal {n : Nat} {c : Char} (hc : c ∈ decimal n) : c.isDigit = true :=
  Nat.isDigit_of_mem_toDigits (by decide) (by decide) hc

theorem digitValue?_of_isDigit {c : Char} (hc : c.isDigit = true) :
    digitValue? c = some (c.toNat - '0'.toNat) := by
  have hRange : '0' ≤ c ∧ c ≤ '9' := by
    rw [Char.isDigit, Bool.and_eq_true, decide_eq_true_eq, decide_eq_true_eq] at hc
    exact hc
  exact if_pos hRange

/-- Digits are read as the number that they denote. -/
theorem digitsValue?_of_isDigit {digits : List Char} (hDigits : ∀ c ∈ digits, c.isDigit = true)
    (v : Nat) : digitsValue? v digits = some (Nat.ofDigitChars 10 digits v) := by
  induction digits generalizing v with
  | nil => rfl
  | cons c digits ih =>
    obtain ⟨hFirst, hRest⟩ := List.forall_mem_cons.1 hDigits
    rw [digitsValue?, digitValue?_of_isDigit hFirst, Nat.ofDigitChars_cons, Nat.mul_comm 10 v]
    exact ih hRest _

/-- A number is read back from its numeral if it lies below the bound. -/
theorem read?_decimal (bound n : Nat) :
    read? bound (decimal n) = if n < bound then some n else none := by
  have hDigits : ∀ c ∈ decimal n, c.isDigit = true := fun c => isDigit_of_mem_decimal
  have hUnsigned : unsigned (decimal n) = decimal n := by
    unfold unsigned
    split
    · rename_i rest hPlus
      have hSign := hDigits '+' (hPlus ▸ List.mem_cons_self)
      cases hSign
    · rfl
  have hSome : decimal n ≠ [] := Nat.toDigits_ne_nil
  have hValue : digitsValue? 0 (decimal n) = some n := by
    rw [digitsValue?_of_isDigit hDigits]
    exact congrArg some (Nat.ofDigitChars_toDigits (by decide) (by decide))
  rw [read?, hUnsigned]
  cases hDecimal : decimal n with
  | nil => exact absurd hDecimal hSome
  | cons c rest =>
    rw [hDecimal] at hValue
    dsimp only
    rw [hValue, Option.filter_some]
    simp only [decide_eq_true_eq]

end Numeral

end StoreClient
