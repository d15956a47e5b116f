import StoreClient.Text.CaseTable

/-!
# Lower-casing

Each character is replaced by its lower-case form. Two characters are special: the capital I with a
dot above becomes a small i and a combining dot, and a capital sigma at the end of a word becomes a
final sigma. A sigma ends a word if a cased letter precedes it and none follows it, where
case-ignorable characters in between do not count.
-/

namespace StoreClient.Text

/-- Whether a character lies in one of the ranges. -/
def inRanges (ranges : List (Nat × Nat)) (c : Char) : Bool :=
  ranges.any fun (low, high) => low ≤ c.toNat && c.toNat ≤ high

/-- The lower-case form of a code point within a run. -/
def CaseRun.lower? (run : CaseRun) (n : Nat) : Option Nat :=
  if run.first ≤ n ∧ n ≤ run.last ∧ (n - run.first) % run.step = 0 then
    some (n + run.up - run.down)
  else none

/-- The lower-case form of a single character. -/
def lowerChar (c : Char) : Char :=
  if c.toNat < 0x80 then c.toLower
  else
    match lowercaseRuns.findSome? (·.lower? c.toNat) with
    | some n => Char.ofNat n
    | none => c

/-- Whether the first character that is not case-ignorable is cased. -/
def startsCased (text : List Char) : Bool :=
  match text.dropWhile (inRanges caseIgnorableRanges) with
  | [] => false
  | c :: _ => inRanges casedRanges c

/-- The lower-case form of a character between the characters `before` it, nearest first, and the
characters `after` it. -/
def lowerAt (before : List Char) (c : Char) (after : List Char) : List Char :=
  if c = 'İ' then ['i', '\u0307']
  else if c = 'Σ' then
    if startsCased before && !startsCased after then ['ς'] else ['σ']
  else [lowerChar c]

/-- Lower-cases a text of which the characters `before`, nearest first, have been turned into
`done`, last first. -/
def lowercaseFrom (before done : List Char) : List Char → List Char
  | [] => done.reverse
  | c :: after =>
    lowercaseFrom (c :: before) ((lowerAt before c after).reverse ++ done) after

/-- The text in lower case. -/
def lowercase (text : List Char) : List Char := lowercaseFrom [] [] text

end StoreClient.Text
