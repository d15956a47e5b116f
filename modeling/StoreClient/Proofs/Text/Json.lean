import StoreClient.Text.Quoted
import Mathlib.Algebra.Group.Nat.Defs
import Mathlib.Tactic.SplitIfs

/-!
# Objects of JSON

The grammar of strings and of objects whose members are strings (RFC 8259), as relations between a
text, what is read from its beginning, and the rest of the text. A character may be written in many
ways, and blanks may stand around every part of an object; yet a text is read in one way only. What
`Quoted` writes is read back.
-/

namespace StoreClient

namespace Json

/-! ## Hexadecimal digits -/

/-- The value of a hexadecimal digit in either case. -/
def digit? (c : Char) : Option Nat :=
  if '0' ≤ c ∧ c ≤ '9' then some (c.toNat - '0'.toNat)
  else if 'a' ≤ c ∧ c ≤ 'f' then some (c.toNat - 'a'.toNat + 10)
  else if 'A' ≤ c ∧ c ≤ 'F' then some (c.toNat - 'A'.toNat + 10)
  else none

/-- Reads a number of digits behind those that have been read, and says what follows them. -/
def numeral? : (places : Nat) → (before : Nat) → List Char → Option (Nat × List Char)
  | 0, v, s => some (v, s)
  | _ + 1, _, [] => none
  | places + 1, v, c :: s => (digit? c).bind fun d => numeral? places (v * 16 + d) s

theorem digit?_digit {d : Nat} (hd : d < 16) : digit? (Hex.digit d) = some d := by
  have hAll : ∀ d < 16, digit? (Nat.digitChar d) = some d := by decide
  exact hAll d hd

/-- Hexadecimal digits may be read in two pieces. -/
theorem numeral?_add (m n v : Nat) (s : List Char) :
    numeral? (m + n) v s = (numeral? m v s).bind fun r => numeral? n r.1 r.2 := by
  induction m generalizing v s with
  | zero => rw [Nat.zero_add, numeral?, Option.bind_some]
  | succ m ih =>
    rw [Nat.succ_add_eq_add_succ, Nat.add_succ]
    cases s with
    | nil => rfl
    | cons c s =>
      rw [numeral?, numeral?]
      cases digit? c with
      | none => rfl
      | some d => exact ih (v * 16 + d) s

/-- The digits of a number that fits are read back. -/
theorem numeral?_fixed {places n : Nat} (hn : n < 16 ^ places) (v : Nat) (s : List Char) :
    numeral? places v (Hex.fixed places n ++ s) = some (v * 16 ^ places + n, s) := by
  induction places generalizing n s with
  | zero =>
    have hZero : n = 0 := Nat.lt_one_iff.1 hn
    rw [hZero, Nat.pow_zero, Nat.mul_one]
    rfl
  | succ places ih =>
    have hHigh : n / 16 < 16 ^ places := by
      rw [Nat.div_lt_iff_lt_mul (by decide), ← Nat.pow_succ]
      exact hn
    have hDigit := digit?_digit (Nat.mod_lt n (by decide : 0 < 16))
    have hValue : (v * 16 ^ places + n / 16) * 16 + n % 16 = v * 16 ^ (places + 1) + n := by
      rw [Nat.add_mul, Nat.add_assoc, Nat.div_add_mod', Nat.pow_succ, Nat.mul_assoc]
    rw [Hex.fixed, List.append_assoc, numeral?_add, ih hHigh, Option.bind_some,
      List.singleton_append, numeral?, hDigit, Option.bind_some, numeral?, hValue]

/-! ## Strings -/

/-- The character that is escaped by one letter. -/
def shortForm? : Char → Option Char
  | '"' => some '"'
  | '\\' => some '\\'
  | '/' => some '/'
  | 'b' => some '\x08'
  | 'f' => some '\x0c'
  | 'n' => some '\n'
  | 'r' => some '\r'
  | 't' => some '\t'
  | _ => none

/-- What may follow a backslash, the character that it stands for, and the rest. -/
inductive Escape : List Char → Char → List Char → Prop where
  /-- One letter. -/
  | short {letter c : Char} {rest : List Char} (hForm : shortForm? letter = some c) :
    Escape (letter :: rest) c rest
  /-- The code point in four digits. -/
  | unit {s rest : List Char} {c : Char} (hUnit : numeral? 4 0 s = some (c.toNat, rest)) :
    Escape ('u' :: s) c rest
  /-- Two surrogates. -/
  | pair {s t rest : List Char} {high low : Nat} {c : Char}
    (hHigh : numeral? 4 0 s = some (0xd800 + high, '\\' :: 'u' :: t))
    (hLow : numeral? 4 0 t = some (0xdc00 + low, rest)) (hHighLt : high < 0x400)
    (hLowLt : low < 0x400) (hChar : c.toNat = 0x10000 + high * 0x400 + low) :
    Escape ('u' :: s) c rest

/-- A character between quotation marks, and the rest. -/
inductive Character : List Char → Char → List Char → Prop where
  /-- The character stands for itself. -/
  | plain {c : Char} {rest : List Char} (hControl : 0x20 ≤ c.toNat) (hQuote : c ≠ '"')
    (hBackslash : c ≠ '\\') : Character (c :: rest) c rest
  /-- The character is escaped. -/
  | escaped {s rest : List Char} {c : Char} (hEscape : Escape s c rest) :
    Character ('\\' :: s) c rest

/-- Characters up to the closing quotation mark, and the rest behind it. -/
inductive Characters : List Char → List Char → List Char → Prop where
  | done {rest : List Char} : Characters ('"' :: rest) [] rest
  | more {s t rest text : List Char} {c : Char} (hFirst : Character s c t)
    (hOthers : Characters t text rest) : Characters s (c :: text) rest

/-- A string, and the rest. -/
inductive Quotation : List Char → List Char → List Char → Prop where
  | mk {s text rest : List Char} (hCharacters : Characters s text rest) :
    Quotation ('"' :: s) text rest

/-! ## Objects -/

/-- Whether a character is a blank between parts. -/
def isBlank (c : Char) : Bool := c == ' ' || c == '\t' || c == '\n' || c == '\r'

/-- Some blanks, and the rest. -/
inductive Blanks : List Char → List Char → Prop where
  | done {rest : List Char} : Blanks rest rest
  | more {c : Char} {s rest : List Char} (hBlank : isBlank c = true) (hOthers : Blanks s rest) :
    Blanks (c :: s) rest

/-- A name and a value, and the rest. -/
inductive Member : List Char → List Char × List Char → List Char → Prop where
  | mk {s s₁ s₂ s₃ s₄ rest name value : List Char} (hBefore : Blanks s s₁)
    (hName : Quotation s₁ name s₂) (hColon : Blanks s₂ (':' :: s₃)) (hBetween : Blanks s₃ s₄)
    (hValue : Quotation s₄ value rest) : Member s (name, value) rest

/-- Members up to the closing brace, and the rest behind it. -/
inductive Members : List Char → List (List Char × List Char) → List Char → Prop where
  | last {s t rest : List Char} {member : List Char × List Char} (hMember : Member s member t)
    (hClose : Blanks t ('\x7d' :: rest)) : Members s [member] rest
  | more {s t u rest : List Char} {member : List Char × List Char}
    {members : List (List Char × List Char)} (hMember : Member s member t)
    (hComma : Blanks t (',' :: u)) (hOthers : Members u members rest) :
    Members s (member :: members) rest

/-- A text that is an object, and its members. -/
inductive Object : List Char → List (List Char × List Char) → Prop where
  | empty {s t rest : List Char} (hOpen : Blanks s ('\x7b' :: t))
    (hClose : Blanks t ('\x7d' :: rest)) (hEnd : Blanks rest []) : Object s []
  | filled {s t rest : List Char} {members : List (List Char × List Char)}
    (hOpen : Blanks s ('\x7b' :: t)) (hMembers : Members t members rest) (hEnd : Blanks rest []) :
    Object s members

/-! ## One reading -/

variable {s t t' : List Char} {c c' : Char} {text text' : List Char}

/-- No code point is a surrogate. -/
theorem not_surrogate (c : Char) {n : Nat} (hn : n < 0x800) : c.toNat ≠ 0xd800 + n := by
  have hValid : c.toNat < 0xd800 ∨ 0xdfff < c.toNat ∧ c.toNat < 0x110000 := c.valid
  omega

theorem Escape.unique (h : Escape s c t) (h' : Escape s c' t') : c = c' ∧ t = t' := by
  have hNone : shortForm? 'u' = none := rfl
  cases h with
  | short hForm =>
    cases h' with
    | short hForm' => exact ⟨Option.some.inj (hForm.symm.trans hForm'), rfl⟩
    | unit => cases hNone.symm.trans hForm
    | pair => cases hNone.symm.trans hForm
  | unit hUnit =>
    cases h' with
    | short hForm => cases hNone.symm.trans hForm
    | unit hUnit' =>
      obtain ⟨hChar, hRest⟩ := Prod.mk.inj (Option.some.inj (hUnit.symm.trans hUnit'))
      exact ⟨Char.toNat_inj.1 hChar, hRest⟩
    | pair hHigh _ hHighLt =>
      obtain ⟨hChar, -⟩ := Prod.mk.inj (Option.some.inj (hUnit.symm.trans hHigh))
      exact absurd hChar (not_surrogate c (by omega))
  | pair hHigh hLow hHighLt _ hChar =>
    cases h' with
    | short hForm => cases hNone.symm.trans hForm
    | unit hUnit =>
      obtain ⟨hChar', -⟩ := Prod.mk.inj (Option.some.inj (hUnit.symm.trans hHigh))
      exact absurd hChar' (not_surrogate c' (by omega))
    | pair hHigh' hLow' _ _ hChar' =>
      obtain ⟨hSame, hRest⟩ := Prod.mk.inj (Option.some.inj (hHigh.symm.trans hHigh'))
      cases hRest
      obtain ⟨hSameLow, hRest⟩ := Prod.mk.inj (Option.some.inj (hLow.symm.trans hLow'))
      refine ⟨Char.toNat_inj.1 ?_, hRest⟩
      omega

/-- A text begins with one character at most. -/
theorem Character.unique (h : Character s c t) (h' : Character s c' t') : c = c' ∧ t = t' := by
  cases h with
  | plain _ _ hBackslash =>
    cases h' with
    | plain => exact ⟨rfl, rfl⟩
    | escaped => exact absurd rfl hBackslash
  | escaped hEscape =>
    cases h' with
    | plain _ _ hBackslash => exact absurd rfl hBackslash
    | escaped hEscape' => exact hEscape.unique hEscape'

theorem not_character_quote : ¬ Character ('"' :: s) c t := by
  intro h
  cases h with
  | plain _ hQuote _ => exact hQuote rfl

/-- The characters up to the closing quote are told by the text. -/
theorem Characters.unique (h : Characters s text t) (h' : Characters s text' t') :
    text = text' ∧ t = t' := by
  induction h generalizing text' with
  | done =>
    cases h' with
    | done => exact ⟨rfl, rfl⟩
    | more hFirst => exact absurd hFirst not_character_quote
  | more hFirst _ ih =>
    cases h' with
    | done => exact absurd hFirst not_character_quote
    | more hFirst' hOthers' =>
      obtain ⟨rfl, rfl⟩ := hFirst.unique hFirst'
      obtain ⟨rfl, hRest⟩ := ih hOthers'
      exact ⟨rfl, hRest⟩

/-- Blanks are read up to the first character that is none. -/
theorem Blanks.unique (h : Blanks s (c :: t)) (h' : Blanks s (c' :: t'))
    (hc : isBlank c = false) (hc' : isBlank c' = false) : c = c' ∧ t = t' := by
  generalize hRest : c :: t = rest at h
  induction h with
  | done =>
    subst hRest
    cases h' with
    | done => exact ⟨rfl, rfl⟩
    | more hBlank => cases hc.symm.trans hBlank
  | more hBlank _ ih =>
    cases h' with
    | done => cases hc'.symm.trans hBlank
    | more _ hOthers => exact ih hOthers hRest

/-- Blanks before a string are read up to its quotation mark. -/
theorem Blanks.unique_quotation {s₁ s₁' : List Char} (h : Blanks s s₁) (h' : Blanks s s₁')
    (hText : Quotation s₁ text t) (hText' : Quotation s₁' text' t') : text = text' ∧ t = t' := by
  obtain ⟨hCharacters⟩ := hText
  obtain ⟨hCharacters'⟩ := hText'
  obtain ⟨-, rfl⟩ := h.unique h' rfl rfl
  exact hCharacters.unique hCharacters'

theorem Member.unique {member member' : List Char × List Char} (h : Member s member t)
    (h' : Member s member' t') : member = member' ∧ t = t' := by
  obtain ⟨hBefore, hName, hColon, hBetween, hValue⟩ := h
  obtain ⟨hBefore', hName', hColon', hBetween', hValue'⟩ := h'
  obtain ⟨rfl, rfl⟩ := hBefore.unique_quotation hBefore' hName hName'
  obtain ⟨-, rfl⟩ := hColon.unique hColon' rfl rfl
  obtain ⟨rfl, rfl⟩ := hBetween.unique_quotation hBetween' hValue hValue'
  exact ⟨rfl, rfl⟩

/-- An object has one list of members. -/
theorem Members.unique {members members' : List (List Char × List Char)}
    (h : Members s members t) (h' : Members s members' t') : members = members' ∧ t = t' := by
  induction h generalizing members' with
  | last hMember hClose =>
    cases h' with
    | last hMember' hClose' =>
      obtain ⟨rfl, rfl⟩ := hMember.unique hMember'
      exact ⟨rfl, (hClose.unique hClose' rfl rfl).2⟩
    | more hMember' hComma =>
      obtain ⟨rfl, rfl⟩ := hMember.unique hMember'
      cases (hClose.unique hComma rfl rfl).1
  | more hMember hComma _ ih =>
    cases h' with
    | last hMember' hClose =>
      obtain ⟨rfl, rfl⟩ := hMember.unique hMember'
      cases (hComma.unique hClose rfl rfl).1
    | more hMember' hComma' hOthers' =>
      obtain ⟨rfl, rfl⟩ := hMember.unique hMember'
      obtain ⟨-, rfl⟩ := hComma.unique hComma' rfl rfl
      obtain ⟨rfl, hRest⟩ := ih hOthers'
      exact ⟨rfl, hRest⟩

/-- Members begin with a quotation mark, not with a brace. -/
theorem Members.not_closed {members : List (List Char × List Char)} {rest : List Char}
    (h : Members s members t) (hClose : Blanks s ('\x7d' :: rest)) : False := by
  have hFirst {member : List Char × List Char} {u : List Char} (hMember : Member s member u) :
      False := by
    obtain ⟨hBefore, ⟨-⟩, -⟩ := hMember
    cases (hBefore.unique hClose rfl rfl).1
  cases h with
  | last hMember => exact hFirst hMember
  | more hMember => exact hFirst hMember

/-- A text is the object of one list of members at most. -/
theorem Object.unique {members members' : List (List Char × List Char)} (h : Object s members)
    (h' : Object s members') : members = members' := by
  cases h with
  | empty hOpen hClose =>
    cases h' with
    | empty => rfl
    | filled hOpen' hMembers =>
      obtain ⟨-, rfl⟩ := hOpen.unique hOpen' rfl rfl
      exact absurd hClose hMembers.not_closed
  | filled hOpen hMembers =>
    cases h' with
    | empty hOpen' hClose =>
      obtain ⟨-, rfl⟩ := hOpen.unique hOpen' rfl rfl
      exact absurd hClose hMembers.not_closed
    | filled hOpen' hMembers' =>
      obtain ⟨-, rfl⟩ := hOpen.unique hOpen' rfl rfl
      exact (hMembers.unique hMembers').1

/-! ## What is written -/

/-- A character is read back in the form in which it is written. -/
theorem character_escape (c : Char) (s : List Char) : Character (Quoted.escape c ++ s) c s := by
  unfold Quoted.escape
  split_ifs with hQuote hBackslash hBackspace hTab hLine hPage hReturn hControl
  · subst hQuote
    exact .escaped (.short rfl)
  · subst hBackslash
    exact .escaped (.short rfl)
  · subst hBackspace
    exact .escaped (.short rfl)
  · subst hTab
    exact .escaped (.short rfl)
  · subst hLine
    exact .escaped (.short rfl)
  · subst hPage
    exact .escaped (.short rfl)
  · subst hReturn
    exact .escaped (.short rfl)
  · have hFits : c.toNat < 16 ^ 4 := Nat.lt_trans hControl (by decide)
    have hUnit := numeral?_fixed hFits 0 s
    rw [Nat.zero_mul, Nat.zero_add] at hUnit
    exact .escaped (.unit hUnit)
  · exact .plain (Nat.le_of_not_lt hControl) hQuote hBackslash

/-- Escaped characters are read back as they were. -/
theorem characters_escape (text s : List Char) :
    Characters (text.flatMap Quoted.escape ++ '"' :: s) text s := by
  induction text with
  | nil => exact .done
  | cons c text ih =>
    rw [List.flatMap_cons, List.append_assoc]
    exact .more (character_escape c _) ih

/-- A text is read back from its quoted form. -/
theorem quotation_encode (text s : List Char) : Quotation (Quoted.encode text ++ s) text s := by
  rw [Quoted.encode, List.cons_append, List.append_assoc]
  exact .mk (characters_escape text s)

/-- A member is read back from its name and its value in their quoted forms. -/
theorem member_encode (name value s : List Char) :
    Member (Quoted.encode name ++ ':' :: (Quoted.encode value ++ s)) (name, value) s :=
  .mk .done (quotation_encode name _) .done .done (quotation_encode value s)

end Json

end StoreClient
