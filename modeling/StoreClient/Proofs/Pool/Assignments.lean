import Mathlib.Logic.Relation
import StoreClient.Pool.Options
import StoreClient.Proofs.Text.Pieces

/-!
# Options as a list of assignments

The options of a pool are the parts of a text between semicolons. A part is blank, or it is cut at
its first equals sign into a key and a value. The configuration that is read has the last value that
a part gives to each setting, or the default; the error is that of the first part that cannot be
read. So neither the way in which a part is written nor the order of parts about different settings
matters, and a configuration is read back from its settings, in whatever order they are written.
-/

namespace StoreClient

namespace Setting

/-- Every setting once. -/
def all : List Setting :=
  [.minSize, .maxSize, .waitTimeout, .maxAcquireRetryCount, .closeAttemptInterval,
    .maxCloseAttempts, .sendTimeout, .connectTimeout, .shutdownTimeout, .bufferSize]

theorem mem_all (s : Setting) : s ∈ all := by
  cases s <;> decide

theorem nodup_all : all.Nodup := by decide

/-- A configuration is known by its settings. -/
theorem eq_of_get {c c' : PoolConfig} (hSame : ∀ s : Setting, s.get c = s.get c') : c = c' := by
  have hParts (c : PoolConfig) : c =
      { minSize := minSize.get c
        maxSize := maxSize.get c
        waitTimeout := waitTimeout.get c
        maxAcquireRetryCount := maxAcquireRetryCount.get c
        closeAttemptInterval := closeAttemptInterval.get c
        maxCloseAttempts := maxCloseAttempts.get c
        sendTimeout := sendTimeout.get c
        connectTimeout := connectTimeout.get c
        shutdownTimeout := shutdownTimeout.get c
        bufferSize := bufferSize.get c } := rfl
  rw [hParts c, hParts c']
  simp only [hSame]

/-- Whether a key is one of a setting, in any case. -/
def Spells (key : List Char) (s : Setting) : Prop :=
  ∃ name, (name, s) ∈ keys ∧ key.map Char.toLower = name.toList

end Setting

namespace Options

open Text (trim lowercase isBlank)

variable {part part' key value : List Char} {parts parts' : List (List Char)} {s : Setting}
  {c c' : PoolConfig} {e : PoolError} {n : Nat} {p q : Part}

/-! ## What a part says -/

/-- A part is cut at its first equals sign. -/
structure Cuts (part key value : List Char) : Prop where
  eq : part = key ++ '=' :: value
  first : '=' ∉ key

/-- The setting of a key, with blanks around it and in any case. -/
def settingOf? (key : List Char) : Option Setting :=
  Setting.ofKey? (String.ofList (lowercase (trim key)))

/-- A part is about a setting and has this text for its value. -/
def Names (part : List Char) (s : Setting) (text : List Char) : Prop :=
  ∃ key value, Cuts part key value ∧ settingOf? key = some s ∧ trim value = text

/-- A part gives a setting a value. -/
def Gives (part : List Char) (s : Setting) (n : Nat) : Prop :=
  ∃ text, Names part s text ∧ Numeral.read? s.bound text = some n

/-- A part that can be read: it is blank or has an equals sign, and what it says of a setting is a
number that fits. -/
structure Sound (part : List Char) : Prop where
  cut : (∀ c ∈ part, isBlank c = true) ∨ '=' ∈ part
  number : ∀ s text, Names part s text → ∃ n, Numeral.read? s.bound text = some n

/-- What is wrong with a part that cannot be read. -/
inductive Offends (part : List Char) : PoolError → Prop where
  | uncut (hSome : ¬ ∀ c ∈ part, isBlank c = true) (hNone : '=' ∉ part) :
    Offends part (.config ("invalid key-value: " ++ String.ofList (trim part)))
  | number {key value : List Char} {s : Setting} (hCut : Cuts part key value)
    (hKey : settingOf? key = some s) (hNone : Numeral.read? s.bound (trim value) = none) :
    Offends part (.config ("invalid value for " ++ String.ofList (lowercase (trim key)) ++ ": " ++
      String.ofList (trim value)))

/-- The last value that some parts give to a setting, or the one that it has without them. -/
def Last (c : PoolConfig) (parts : List (List Char)) (s : Setting) (n : Nat) : Prop :=
  (∃ before part after, parts = before ++ part :: after ∧ Gives part s n ∧
      ∀ later ∈ after, ∀ text, ¬ Names later s text) ∨
    (∀ part ∈ parts, ∀ text, ¬ Names part s text) ∧ n = s.get c

/-! ## Reading a part -/

theorem isBlank_equals : isBlank '=' = false := by decide

theorem Cuts.takeWhile (h : Cuts part key value) : part.takeWhile (· ≠ '=') = key := by
  have hKey : ∀ c ∈ key, decide (c ≠ '=') = true := fun c hc =>
    decide_eq_true (ne_of_mem_of_not_mem hc h.first)
  rw [h.eq, List.takeWhile_append_of_pos hKey, List.takeWhile_cons_of_neg (by decide),
    List.append_nil]

theorem Cuts.dropWhile (h : Cuts part key value) : part.dropWhile (· ≠ '=') = '=' :: value := by
  have hKey : ∀ c ∈ key, decide (c ≠ '=') = true := fun c hc =>
    decide_eq_true (ne_of_mem_of_not_mem hc h.first)
  rw [h.eq, List.dropWhile_append_of_pos hKey, List.dropWhile_cons_of_neg (by decide)]

/-- A part is cut in one way only. -/
theorem Cuts.unique {key' value' : List Char} (h : Cuts part key value)
    (h' : Cuts part key' value') : key' = key ∧ value' = value := by
  refine ⟨h'.takeWhile.symm.trans h.takeWhile, ?_⟩
  exact (List.cons.inj (h'.dropWhile.symm.trans h.dropWhile)).2

theorem Cuts.mem (h : Cuts part key value) : '=' ∈ part := by
  rw [h.eq]
  exact List.mem_append_right _ List.mem_cons_self

/-- Trimming does not move the equals sign. -/
theorem Cuts.trim (h : Cuts part key value) :
    Cuts (trim part) (Text.trimStart key) (Text.trimEnd value) := by
  refine ⟨?_, fun hMem => h.first ?_⟩
  · rw [h.eq]
    exact Text.trim_append_cons isBlank_equals
  · exact (List.dropWhile_sublist _).subset hMem

/-- A part is read from its trimmed key in lower case and its trimmed value. -/
theorem read_of_cuts (h : Cuts part key value) :
    Part.read part = Part.ofKeyValue (lowercase (trim key)) (trim value) := by
  have hSome : ¬ (trim part).isEmpty = true := by
    rw [List.isEmpty_iff]
    exact List.ne_nil_of_mem h.trim.mem
  unfold Part.read
  dsimp only
  rw [if_neg hSome, h.trim.dropWhile]
  dsimp only
  rw [h.trim.takeWhile, Text.trim_trimStart, Text.trim_trimEnd]

/-- How a part may be read. -/
inductive Reading (part : List Char) : Except PoolError Part → Prop where
  | blank (hBlank : ∀ c ∈ part, isBlank c = true) : Reading part (.ok .blank)
  | unknown {key value : List Char} (hCut : Cuts part key value) (hKey : settingOf? key = none) :
    Reading part
      (.ok (.unknown (String.ofList (lowercase (trim key))) (String.ofList (trim value))))
  | assignment {key value : List Char} {s : Setting} {n : Nat} (hCut : Cuts part key value)
    (hKey : settingOf? key = some s) (hNumber : Numeral.read? s.bound (trim value) = some n) :
    Reading part (.ok (.assignment s n))
  | offence {e : PoolError} (hOffends : Offends part e) : Reading part (.error e)

/-- Every part is read as what it says. -/
theorem reading (part : List Char) : Reading part (Part.read part) := by
  by_cases hCut : '=' ∈ part
  · obtain ⟨key, value, hEq, hFirst⟩ := List.eq_append_cons_of_mem hCut
    have hCuts : Cuts part key value := ⟨hEq, hFirst⟩
    rw [read_of_cuts hCuts, Part.ofKeyValue]
    cases hKey : settingOf? key with
    | none =>
      rw [settingOf?] at hKey
      rw [hKey]
      exact .unknown hCuts hKey
    | some s =>
      have hSetting := hKey
      rw [settingOf?] at hSetting
      rw [hSetting]
      dsimp only
      cases hNumber : Numeral.read? s.bound (trim value) with
      | none => exact .offence (.number hCuts hKey hNumber)
      | some n => exact .assignment hCuts hKey hNumber
  · -- without a separator the part is blank or cannot be read
    have hRest : (trim part).dropWhile (· ≠ '=') = [] := by
      refine List.dropWhile_eq_nil_iff.2 fun c hc => decide_eq_true ?_
      rintro rfl
      exact hCut ((Text.mem_trim isBlank_equals).1 hc)
    unfold Part.read
    dsimp only
    split
    · rename_i hEmpty
      exact .blank (Text.trim_eq_nil_iff.1 (List.isEmpty_iff.1 hEmpty))
    · rename_i hSome
      rw [hRest]
      refine .offence (.uncut (fun hBlank => hSome ?_) hCut)
      rw [Text.trim_eq_nil_iff.2 hBlank]
      rfl

theorem Cuts.not_blank (h : Cuts part key value) : ¬ ∀ c ∈ part, isBlank c = true :=
  fun hBlank => Bool.false_ne_true (isBlank_equals.symm.trans (hBlank _ h.mem))

theorem Cuts.not_names (h : Cuts part key value) (hKey : settingOf? key ≠ some s)
    (text : List Char) : ¬ Names part s text := by
  rintro ⟨key', value', hCut, hKey', -⟩
  obtain ⟨rfl, rfl⟩ := h.unique hCut
  exact hKey hKey'

theorem not_names_of_blank (hBlank : ∀ c ∈ part, isBlank c = true) (s : Setting)
    (text : List Char) : ¬ Names part s text := by
  rintro ⟨key, value, hCut, -⟩
  exact hCut.not_blank hBlank

/-- A part that is in the way of a reading is not sound. -/
theorem Offends.unsound (h : Offends part e) : ¬ Sound part := by
  intro hSound
  cases h with
  | uncut hSome hNone => exact hSound.cut.elim hSome hNone
  | number hCut hKey hNone =>
    obtain ⟨n, hNumber⟩ := hSound.number _ _ ⟨_, _, hCut, hKey, rfl⟩
    cases hNone.symm.trans hNumber

/-- What is read is sound. -/
theorem sound_of_read (hRead : Part.read part = .ok p) : Sound part := by
  have hReading := reading part
  rw [hRead] at hReading
  cases hReading with
  | blank hBlank =>
    exact ⟨Or.inl hBlank, fun s text hNames => absurd hNames (not_names_of_blank hBlank s text)⟩
  | unknown hCut hKey =>
    refine ⟨Or.inr hCut.mem, fun s text hNames => absurd hNames (hCut.not_names ?_ text)⟩
    rw [hKey]
    nofun
  | assignment hCut hKey hNumber =>
    refine ⟨Or.inr hCut.mem, ?_⟩
    rintro s text ⟨key, value, hCut', hKey', rfl⟩
    obtain ⟨rfl, rfl⟩ := hCut.unique hCut'
    cases hKey.symm.trans hKey'
    exact ⟨_, hNumber⟩

/-- A part is rejected for what is wrong with it. -/
theorem offends_of_read (hRead : Part.read part = .error e) : Offends part e := by
  have hReading := reading part
  rw [hRead] at hReading
  cases hReading with
  | offence hOffends => exact hOffends

/-- A part is rejected for one reason. -/
theorem Offends.unique {e' : PoolError} (h : Offends part e) (h' : Offends part e') : e = e' := by
  cases h with
  | uncut hSome hNone =>
    cases h' with
    | uncut => rfl
    | number hCut => exact absurd hCut.mem hNone
  | number hCut hKey =>
    cases h' with
    | uncut hSome hNone => exact absurd hCut.mem hNone
    | number hCut' hKey' =>
      obtain ⟨rfl, rfl⟩ := hCut.unique hCut'
      rfl

/-- The sound parts are those that can be read. -/
theorem sound_iff : Sound part ↔ ∃ p, Part.read part = .ok p := by
  refine ⟨fun hSound => ?_, fun ⟨p, hRead⟩ => sound_of_read hRead⟩
  cases hRead : Part.read part with
  | ok p => exact ⟨p, rfl⟩
  | error e => exact absurd hSound (offends_of_read hRead).unsound

/-- A part changes the setting that it names, if any, and no other. -/
theorem get_apply (hRead : Part.read part = .ok p) (s : Setting) :
    (∃ n, Gives part s n ∧ ∀ c, s.get (p.apply c) = n) ∨
      (∀ text, ¬ Names part s text) ∧ ∀ c, s.get (p.apply c) = s.get c := by
  have hReading := reading part
  rw [hRead] at hReading
  cases hReading with
  | blank hBlank => exact Or.inr ⟨not_names_of_blank hBlank s, fun _ => rfl⟩
  | unknown hCut hKey =>
    refine Or.inr ⟨hCut.not_names ?_, fun _ => rfl⟩
    rw [hKey]
    nofun
  | @assignment key value t n hCut hKey hNumber =>
    by_cases hSame : t = s
    · subst hSame
      exact Or.inl ⟨n, ⟨_, ⟨_, _, hCut, hKey, rfl⟩, hNumber⟩, fun c => Setting.get_assign c n t⟩
    · refine Or.inr ⟨hCut.not_names ?_, fun c => Setting.get_assign_of_ne hSame⟩
      rw [hKey]
      exact fun hEq => hSame (Option.some.inj hEq)

/-! ## Reading all parts -/

/-- Without parts a setting keeps its value. -/
theorem last_nil : Last c [] s n ↔ n = s.get c := by
  constructor
  · rintro (⟨before, part, after, hEq, -⟩ | ⟨-, hValue⟩)
    · exact absurd hEq.symm (List.append_ne_nil_of_right_ne_nil _ (List.cons_ne_nil _ _))
    · exact hValue
  · exact fun hValue => Or.inr ⟨nofun, hValue⟩

/-- The last part that names a setting is among the later ones or is the first one. -/
theorem last_cons_iff : Last c (part :: parts) s n ↔
    (∃ before part' after, parts = before ++ part' :: after ∧ Gives part' s n ∧
        ∀ later ∈ after, ∀ text, ¬ Names later s text) ∨
      (∀ later ∈ parts, ∀ text, ¬ Names later s text) ∧
        (Gives part s n ∨ (∀ text, ¬ Names part s text) ∧ n = s.get c) := by
  constructor
  · rintro (⟨before, part', after, hEq, hGives, hAfter⟩ | ⟨hNone, hValue⟩)
    · rcases List.cons_eq_append_iff.1 hEq with ⟨rfl, hRest⟩ | ⟨before', rfl, hRest⟩
      · obtain ⟨rfl, rfl⟩ := List.cons.inj hRest
        exact Or.inr ⟨hAfter, Or.inl hGives⟩
      · exact Or.inl ⟨before', part', after, hRest, hGives, hAfter⟩
    · obtain ⟨hFirst, hOthers⟩ := List.forall_mem_cons.1 hNone
      exact Or.inr ⟨hOthers, Or.inr ⟨hFirst, hValue⟩⟩
  · rintro (⟨before, part', after, rfl, hGives, hAfter⟩ | ⟨hOthers, hGives | ⟨hFirst, hValue⟩⟩)
    · exact Or.inl ⟨part :: before, part', after, rfl, hGives, hAfter⟩
    · exact Or.inl ⟨[], part, parts, rfl, hGives, hOthers⟩
    · exact Or.inr ⟨List.forall_mem_cons.2 ⟨hFirst, hOthers⟩, hValue⟩

/-- A part gives one value to a setting. -/
theorem Gives.unique {m : Nat} (h : Gives part s n) (h' : Gives part s m) : n = m := by
  obtain ⟨text, ⟨key, value, hCut, -, rfl⟩, hNumber⟩ := h
  obtain ⟨text', ⟨key', value', hCut', -, rfl⟩, hNumber'⟩ := h'
  obtain ⟨-, rfl⟩ := hCut.unique hCut'
  exact Option.some.inj (hNumber.symm.trans hNumber')

/-- The parts behind the first one go on from what it leaves. -/
theorem last_cons (hRead : Part.read part = .ok p) :
    Last c (part :: parts) s n ↔ Last (p.apply c) parts s n := by
  have hFirst : Gives part s n ∨ (∀ text, ¬ Names part s text) ∧ n = s.get c ↔
      n = s.get (p.apply c) := by
    rcases get_apply hRead s with ⟨m, hGives, hApply⟩ | ⟨hNot, hApply⟩
    · rw [hApply]
      constructor
      · rintro (hGives' | ⟨hNot, -⟩)
        · exact hGives'.unique hGives
        · obtain ⟨text, hNames, -⟩ := hGives
          exact absurd hNames (hNot text)
      · rintro rfl
        exact Or.inl hGives
    · rw [hApply]
      constructor
      · rintro (⟨text, hNames, -⟩ | ⟨-, hValue⟩)
        · exact absurd hNames (hNot text)
        · exact hValue
      · exact fun hValue => Or.inr ⟨hNot, hValue⟩
  rw [last_cons_iff, hFirst]
  rfl

/-- The parts can be read exactly if each of them can, and then each setting has its last value. -/
theorem applyAll_eq_ok_iff : applyAll c (parts.map Part.read) = .ok c' ↔
    (∀ part ∈ parts, Sound part) ∧ ∀ s : Setting, Last c parts s (s.get c') := by
  induction parts generalizing c with
  | nil =>
    constructor
    · intro hEq
      cases hEq
      exact ⟨nofun, fun s => last_nil.2 rfl⟩
    · rintro ⟨-, hLast⟩
      exact congrArg _ (Setting.eq_of_get fun s => (last_nil.1 (hLast s)).symm)
  | cons part parts ih =>
    rw [List.map_cons, List.forall_mem_cons]
    cases hRead : Part.read part with
    | ok p =>
      rw [applyAll, ih]
      simp only [last_cons hRead, sound_of_read hRead, true_and]
    | error e =>
      constructor
      · intro hEq
        cases hEq
      · rintro ⟨⟨hSound, -⟩, -⟩
        exact absurd hSound (offends_of_read hRead).unsound

/-- Otherwise the error is that of the first one that cannot be read. -/
theorem applyAll_eq_error_iff : applyAll c (parts.map Part.read) = .error e ↔
    ∃ before part after, parts = before ++ part :: after ∧ (∀ p ∈ before, Sound p) ∧
      Offends part e := by
  induction parts generalizing c with
  | nil =>
    constructor
    · intro hEq
      cases hEq
    · rintro ⟨before, part, after, hEq, -⟩
      exact absurd hEq.symm (List.append_ne_nil_of_right_ne_nil _ (List.cons_ne_nil _ _))
  | cons part parts ih =>
    rw [List.map_cons]
    cases hRead : Part.read part with
    | ok p =>
      -- the first part can be read, and the error is a later one
      have hSound := sound_of_read hRead
      rw [applyAll, ih]
      constructor
      · rintro ⟨before, part', after, rfl, hBefore, hOffends⟩
        have hAll := List.forall_mem_cons.2 ⟨hSound, hBefore⟩
        exact ⟨part :: before, part', after, rfl, hAll, hOffends⟩
      · rintro ⟨before, part', after, hEq, hBefore, hOffends⟩
        rcases List.cons_eq_append_iff.1 hEq with ⟨rfl, hRest⟩ | ⟨before', rfl, hRest⟩
        · obtain ⟨rfl, rfl⟩ := List.cons.inj hRest
          exact absurd hSound hOffends.unsound
        · exact ⟨before', part', after, hRest, (List.forall_mem_cons.1 hBefore).2, hOffends⟩
    | error e' =>
      -- the first part cannot be read
      have hOffends := offends_of_read hRead
      constructor
      · intro hEq
        cases hEq
        exact ⟨[], part, parts, rfl, nofun, hOffends⟩
      · rintro ⟨before, part', after, hEq, hBefore, hOffends'⟩
        rcases List.cons_eq_append_iff.1 hEq with ⟨rfl, hRest⟩ | ⟨before', rfl, -⟩
        · obtain ⟨rfl, rfl⟩ := List.cons.inj hRest
          exact congrArg _ (hOffends.unique hOffends')
        · exact absurd (hBefore part List.mem_cons_self) hOffends.unsound

theorem read_of_error {text : String} (hAll : applyAll {} (Options.parts text) = .error e) :
    read text = .error e := by
  unfold read
  rw [hAll]
  rfl

/-- The configuration is checked once all parts are read. -/
theorem read_of_ok {text : String} (hAll : applyAll {} (Options.parts text) = .ok c) :
    read text = c.validate.map fun _ => c := by
  unfold read
  rw [hAll]
  show (c.validate >>= fun _ => pure c) = _
  cases c.validate <;> rfl

/-- A text is read if its parts can be applied to the defaults and the result is valid. -/
theorem read_eq_ok_iff {text : String} :
    read text = .ok c ↔ applyAll {} (Options.parts text) = .ok c ∧ c.validate = .ok () := by
  cases hAll : applyAll {} (Options.parts text) with
  | error e =>
    rw [read_of_error hAll]
    exact iff_of_false nofun fun h => nomatch h.1
  | ok d =>
    rw [read_of_ok hAll, Except.ok.injEq]
    cases hValid : d.validate with
    | error e =>
      refine iff_of_false nofun ?_
      rintro ⟨rfl, hOk⟩
      cases hValid.symm.trans hOk
    | ok u =>
      constructor
      · intro hEq
        cases hEq
        exact ⟨rfl, hValid⟩
      · rintro ⟨rfl, -⟩
        rfl

/-- A text is rejected for its first part that cannot be read, or by the check at the end. -/
theorem read_eq_error_iff {text : String} :
    read text = .error e ↔ applyAll {} (Options.parts text) = .error e ∨
      ∃ c, applyAll {} (Options.parts text) = .ok c ∧ c.validate = .error e := by
  cases hAll : applyAll {} (Options.parts text) with
  | error e' =>
    rw [read_of_error hAll]
    exact ⟨Or.inl, fun h => h.resolve_right fun ⟨c, hEq, _⟩ => nomatch hEq⟩
  | ok d =>
    rw [read_of_ok hAll]
    cases hValid : d.validate with
    | error e' =>
      constructor
      · intro hEq
        cases hEq
        exact Or.inr ⟨d, rfl, hValid⟩
      · rintro (hEq | ⟨c, hEq, hError⟩)
        · cases hEq
        · cases hEq
          cases hValid.symm.trans hError
          rfl
    | ok u =>
      refine iff_of_false nofun ?_
      rintro (hEq | ⟨c, hEq, hError⟩)
      · cases hEq
      · cases hEq
        cases hValid.symm.trans hError

/-! ## Other ways to write the same -/

/-- Other ways to write a part: with blanks around it, its key or its value, or with its key in
another case. -/
inductive Respelt : List Char → List Char → Prop where
  | pad {before after : List Char} (part : List Char) (hBefore : ∀ c ∈ before, isBlank c = true)
    (hAfter : ∀ c ∈ after, isBlank c = true) : Respelt part (before ++ part ++ after)
  | padInside {before after key value : List Char} (hKey : '=' ∉ key)
    (hBefore : ∀ c ∈ before, isBlank c = true) (hAfter : ∀ c ∈ after, isBlank c = true) :
    Respelt (key ++ '=' :: value) (key ++ before ++ '=' :: (after ++ value))
  | recase {key key' value : List Char} (hKey : '=' ∉ key)
    (hCase : key'.map Char.toLower = key.map Char.toLower) :
    Respelt (key ++ '=' :: value) (key' ++ '=' :: value)

/-- One change to a list of parts: two neighbours that are not about the same setting change places,
a part is written in another way, or one is added that is blank or about no setting. -/
inductive Edit : List (List Char) → List (List Char) → Prop where
  | swap (before after : List (List Char)) {part part' : List Char}
    (hApart : ∀ s text text', ¬ (Names part s text ∧ Names part' s text')) :
    Edit (before ++ part :: part' :: after) (before ++ part' :: part :: after)
  | respell (before after : List (List Char)) {part part' : List Char}
    (hRespelt : Respelt part part') : Edit (before ++ part :: after) (before ++ part' :: after)
  | add (before after : List (List Char)) {part : List Char} (hSound : Sound part)
    (hNot : ∀ s text, ¬ Names part s text) : Edit (before ++ after) (before ++ part :: after)

theorem not_mem_of_recased {key' : List Char} (hKey : '=' ∉ key)
    (hCase : key'.map Char.toLower = key.map Char.toLower) : '=' ∉ key' := by
  intro hMem
  have hMapped : '=' ∈ key.map Char.toLower := by
    rw [← hCase]
    exact List.mem_map.2 ⟨'=', hMem, rfl⟩
  obtain ⟨c, hc, hEq⟩ := List.mem_map.1 hMapped
  rw [(Text.toLower_eq_iff (by decide)).1 hEq] at hc
  exact hKey hc

/-- Neither blanks around a key nor its case matter. -/
theorem lowercase_trim_recased {key' : List Char}
    (hCase : key'.map Char.toLower = key.map Char.toLower) :
    lowercase (trim key') = lowercase (trim key) := by
  rw [← Text.lowercase_map_toLower (trim key'), ← Text.trim_map_toLower, hCase,
    Text.trim_map_toLower, Text.lowercase_map_toLower]

/-- Blanks and the case of a key do not matter to what a part is read as. -/
theorem Respelt.read_eq (h : Respelt part part') : Part.read part' = Part.read part := by
  cases h with
  | pad _ hBefore hAfter =>
    unfold Part.read
    rw [Text.trim_append_blank hAfter, Text.trim_blank_append hBefore]
  | @padInside before after key value hKey hBefore hAfter =>
    have hCut : Cuts (key ++ '=' :: value) key value := ⟨rfl, hKey⟩
    have hNot : '=' ∉ before := fun hMem =>
      Bool.false_ne_true (isBlank_equals.symm.trans (hBefore _ hMem))
    have hPadded :
        Cuts (key ++ before ++ '=' :: (after ++ value)) (key ++ before) (after ++ value) :=
      ⟨rfl, fun hMem => (List.mem_append.1 hMem).elim hKey hNot⟩
    rw [read_of_cuts hCut, read_of_cuts hPadded, Text.trim_append_blank hBefore,
      Text.trim_blank_append hAfter]
  | recase hKey hCase =>
    rw [read_of_cuts ⟨rfl, not_mem_of_recased hKey hCase⟩, read_of_cuts ⟨rfl, hKey⟩,
      lowercase_trim_recased hCase]

/-- Parts are applied one after the other. -/
theorem applyAll_append_eq_ok_iff {results results' : List (Except PoolError Part)} :
    applyAll c (results ++ results') = .ok c' ↔
      ∃ d, applyAll c results = .ok d ∧ applyAll d results' = .ok c' := by
  induction results generalizing c with
  | nil =>
    constructor
    · exact fun hEq => ⟨c, rfl, hEq⟩
    · rintro ⟨d, hEq, hRest⟩
      cases hEq
      exact hRest
  | cons result results ih =>
    cases result with
    | ok p => exact ih
    | error e =>
      refine iff_of_false nofun ?_
      rintro ⟨d, hEq, -⟩
      cases hEq

/-- Parts that name different settings may be applied in either order. -/
theorem apply_comm (hRead : Part.read part = .ok p) (hRead' : Part.read part' = .ok q)
    (hApart : ∀ s text text', ¬ (Names part s text ∧ Names part' s text')) (c : PoolConfig) :
    q.apply (p.apply c) = p.apply (q.apply c) := by
  refine Setting.eq_of_get fun s => ?_
  rcases get_apply hRead s with ⟨n, ⟨text, hNames, -⟩, hFirst⟩ | ⟨-, hFirst⟩ <;>
    rcases get_apply hRead' s with ⟨m, ⟨text', hNames', -⟩, hSecond⟩ | ⟨-, hSecond⟩
  · exact absurd ⟨hNames, hNames'⟩ (hApart s text text')
  · rw [hSecond, hFirst, hFirst]
  · rw [hSecond, hFirst, hSecond]
  · rw [hSecond, hFirst, hFirst, hSecond]

/-- What is read does not change with the list of parts. -/
theorem Edit.applyAll_iff (h : Edit parts parts') (c c' : PoolConfig) :
    applyAll c (parts.map Part.read) = .ok c' ↔ applyAll c (parts'.map Part.read) = .ok c' := by
  -- the parts in front are the same on both sides
  have hBehind {before rest rest' : List (List Char)}
      (hRest : ∀ d, applyAll d (rest.map Part.read) = .ok c' ↔
        applyAll d (rest'.map Part.read) = .ok c') :
      applyAll c ((before ++ rest).map Part.read) = .ok c' ↔
        applyAll c ((before ++ rest').map Part.read) = .ok c' := by
    simp only [List.map_append, applyAll_append_eq_ok_iff, hRest]
  cases h with
  | @swap before after part part' hApart =>
    refine hBehind fun d => ?_
    simp only [List.map_cons]
    cases hRead : Part.read part with
    | error e => cases hRead' : Part.read part' <;> exact iff_of_false nofun nofun
    | ok p =>
      cases hRead' : Part.read part' with
      | error e => exact iff_of_false nofun nofun
      | ok q =>
        simp only [applyAll, apply_comm hRead hRead' hApart]
  | respell before after hRespelt =>
    refine hBehind fun d => ?_
    rw [List.map_cons, List.map_cons, hRespelt.read_eq]
  | add before after hSound hNot =>
    refine hBehind fun d => ?_
    obtain ⟨p, hRead⟩ := sound_iff.1 hSound
    have hSame : p.apply d = d := by
      refine Setting.eq_of_get fun s => ?_
      rcases get_apply hRead s with ⟨n, ⟨text, hNames, -⟩, -⟩ | ⟨-, hApply⟩
      · exact absurd hNames (hNot s text)
      · exact hApply d
    rw [List.map_cons, hRead, applyAll, hSame]

/-- Edits do not change what parts come to. -/
theorem applyAll_iff_of_edits (h : Relation.EqvGen Edit parts parts') (c c' : PoolConfig) :
    applyAll c (parts.map Part.read) = .ok c' ↔ applyAll c (parts'.map Part.read) = .ok c' := by
  induction h with
  | rel _ _ hEdit => exact hEdit.applyAll_iff c c'
  | refl _ => exact Iff.rfl
  | symm _ _ _ ih => exact ih.symm
  | trans _ _ _ _ _ ih ih' => exact ih.trans ih'

/-! ## Writing a configuration -/

/-- The assignment of its value to a setting. -/
def written (c : PoolConfig) (spelling : Setting → List Char) (s : Setting) : List Char :=
  spelling s ++ '=' :: Numeral.decimal (s.get c)

/-- A key in any case is that of its setting. -/
theorem settingOf?_of_spells (h : Setting.Spells key s) : settingOf? key = some s := by
  have hKeys : ∀ k ∈ Setting.keys, k.1.toList.map Char.toLower = k.1.toList ∧
      Setting.ofKey? (String.ofList (lowercase (trim k.1.toList))) = some k.2 := by
    decide +kernel
  obtain ⟨name, hName, hCase⟩ := h
  obtain ⟨hLower, hFound⟩ := hKeys (name, s) hName
  have hSame : lowercase (trim key) = lowercase (trim name.toList) :=
    lowercase_trim_recased (hCase.trans hLower.symm)
  unfold settingOf?
  rw [hSame]
  exact hFound

theorem not_mem_of_spells {c : Char} (h : Setting.Spells key s) (hc : c = '=' ∨ c = ';') :
    c ∉ key := by
  have hKeys : ∀ k ∈ Setting.keys, '=' ∉ k.1.toList ∧ ';' ∉ k.1.toList := by decide +kernel
  obtain ⟨name, hName, hCase⟩ := h
  obtain ⟨hEquals, hSemicolon⟩ := hKeys _ hName
  intro hMem
  have hMapped : c.toLower ∈ name.toList := hCase ▸ List.mem_map_of_mem hMem
  rcases hc with rfl | rfl
  · exact hEquals hMapped
  · exact hSemicolon hMapped

theorem cuts_written {spelling : Setting → List Char} (c : PoolConfig)
    (h : Setting.Spells (spelling s) s) :
    Cuts (written c spelling s) (spelling s) (Numeral.decimal (s.get c)) :=
  ⟨rfl, not_mem_of_spells h (Or.inl rfl)⟩

theorem trim_decimal (n : Nat) : trim (Numeral.decimal n) = Numeral.decimal n :=
  Text.trim_eq_self fun _ hc => Text.isBlank_of_isDigit (Numeral.isDigit_of_mem_decimal hc)

/-- A written part names its setting, and nothing else. -/
theorem names_written_iff {spelling : Setting → List Char} {t : Setting} {text : List Char}
    (h : Setting.Spells (spelling s) s) : Names (written c spelling s) t text ↔
      t = s ∧ text = Numeral.decimal (s.get c) := by
  have hCut := cuts_written c h
  constructor
  · rintro ⟨key, value, hCut', hKey, rfl⟩
    obtain ⟨rfl, rfl⟩ := hCut.unique hCut'
    cases (settingOf?_of_spells h).symm.trans hKey
    exact ⟨rfl, trim_decimal _⟩
  · rintro ⟨rfl, rfl⟩
    exact ⟨_, _, hCut, settingOf?_of_spells h, trim_decimal _⟩

/-- A written setting is read back exactly if its value is below the bound of its field. -/
theorem gives_written_iff {spelling : Setting → List Char}
    (h : Setting.Spells (spelling s) s) : Gives (written c spelling s) s n ↔
      s.get c < s.bound ∧ n = s.get c := by
  constructor
  · rintro ⟨text, hNames, hNumber⟩
    obtain ⟨-, rfl⟩ := (names_written_iff h).1 hNames
    rw [Numeral.read?_decimal] at hNumber
    split at hNumber
    · exact ⟨‹_›, (Option.some.inj hNumber).symm⟩
    · cases hNumber
  · rintro ⟨hLt, rfl⟩
    exact ⟨_, (names_written_iff h).2 ⟨rfl, rfl⟩, by rw [Numeral.read?_decimal, if_pos hLt]⟩

/-- A written setting can be read exactly if its value is below the bound of its field. -/
theorem sound_written_iff {spelling : Setting → List Char}
    (h : Setting.Spells (spelling s) s) : Sound (written c spelling s) ↔ s.get c < s.bound := by
  constructor
  · intro hSound
    obtain ⟨n, hNumber⟩ := hSound.number s _ ((names_written_iff h).2 ⟨rfl, rfl⟩)
    exact ((gives_written_iff h).1 ⟨_, (names_written_iff h).2 ⟨rfl, rfl⟩, hNumber⟩).1
  · intro hLt
    refine ⟨Or.inr (cuts_written c h).mem, fun t text hNames => ⟨s.get c, ?_⟩⟩
    obtain ⟨rfl, rfl⟩ := (names_written_iff h).1 hNames
    rw [Numeral.read?_decimal, if_pos hLt]

/-- A configuration is read back from its settings exactly if their values fit. -/
theorem applyAll_written {order : List Setting} {spelling : Setting → List Char}
    (hOrder : order.Perm Setting.all) (hSpells : ∀ s, Setting.Spells (spelling s) s)
    (c c' : PoolConfig) :
    applyAll c' ((order.map (written c spelling)).map Part.read) = .ok c ↔
      ∀ s : Setting, s.get c < s.bound := by
  have hMem (s : Setting) : s ∈ order := hOrder.mem_iff.2 (Setting.mem_all s)
  have hNodup : order.Nodup := hOrder.nodup_iff.2 Setting.nodup_all
  rw [applyAll_eq_ok_iff]
  constructor
  · rintro ⟨hSound, -⟩ s
    exact (sound_written_iff (hSpells s)).1 (hSound _ (List.mem_map_of_mem (hMem s)))
  · intro hFits
    refine ⟨fun part hPart => ?_, fun s => Or.inl ?_⟩
    · obtain ⟨s, -, rfl⟩ := List.mem_map.1 hPart
      exact (sound_written_iff (hSpells s)).2 (hFits s)
    · obtain ⟨before, after, hOrderEq⟩ := List.append_of_mem (hMem s)
      rw [hOrderEq] at hNodup
      have hLater : s ∉ after := (List.nodup_cons.1 (List.nodup_append.1 hNodup).2.1).1
      refine ⟨before.map (written c spelling), written c spelling s, after.map (written c spelling),
        ?_, (gives_written_iff (hSpells s)).2 ⟨hFits s, rfl⟩, ?_⟩
      · rw [hOrderEq, List.map_append, List.map_cons]
      · rintro later hMapped text hNames
        obtain ⟨t, ht, rfl⟩ := List.mem_map.1 hMapped
        obtain ⟨rfl, -⟩ := (names_written_iff (hSpells t)).1 hNames
        exact hLater ht

/-- The parts of a written configuration are those that were written, in their order. -/
theorem parts_written {order : List Setting} {spelling : Setting → List Char} {text : String}
    (hSome : order ≠ []) (hSpells : ∀ s, Setting.Spells (spelling s) s) (c : PoolConfig)
    (hText : text.toList = [';'].intercalate (order.map (written c spelling))) :
    Options.parts text = (order.map (written c spelling)).map Part.read := by
  have hNot : ∀ part ∈ order.map (written c spelling), ';' ∉ part := by
    intro part hPart hMem
    obtain ⟨s, -, rfl⟩ := List.mem_map.1 hPart
    rcases List.mem_append.1 hMem with hKey | hValue
    · exact not_mem_of_spells (hSpells s) (Or.inr rfl) hKey
    · rcases List.mem_cons.1 hValue with hEq | hDigit
      · cases hEq
      · cases Numeral.isDigit_of_mem_decimal hDigit
  rw [Options.parts, hText, Text.splitOn_intercalate hNot (mt List.map_eq_nil_iff.1 hSome)]

/-- The options are read as a list of assignments. They are accepted if every part can be read and
the last values, or the defaults, make a valid configuration; otherwise the error is that of the
first part that cannot be read, or else that of the check. Parts about different settings may change
places, may be written in other ways, and parts about no setting may be added. A valid configuration
whose values fit their types is read back from its settings. -/
theorem read_as_assignments (text : String) :
    let parts := Text.splitOn ';' text.toList
    ([';'].intercalate parts = text.toList ∧ ∀ part ∈ parts, ';' ∉ part) ∧
      (∀ c, read text = .ok c ↔ (∀ part ∈ parts, Sound part) ∧ c.validate = .ok () ∧
        ∀ s : Setting, Last {} parts s (s.get c)) ∧
      (∀ e, read text = .error e ↔
        (∃ before part after, parts = before ++ part :: after ∧ (∀ p ∈ before, Sound p) ∧
            Offends part e) ∨
          (∀ part ∈ parts, Sound part) ∧
            ∃ c, (∀ s : Setting, Last {} parts s (s.get c)) ∧ c.validate = .error e) ∧
      (∀ text' : String, Relation.EqvGen Edit parts (Text.splitOn ';' text'.toList) →
        ∀ c, read text' = .ok c ↔ read text = .ok c) ∧
      ∀ (c : PoolConfig) (order : List Setting) (spelling : Setting → List Char),
        order.Perm Setting.all → (∀ s, Setting.Spells (spelling s) s) →
          text.toList = [';'].intercalate
            (order.map fun s => spelling s ++ '=' :: (toString (s.get c)).toList) →
          (read text = .ok c ↔ c.validate = .ok () ∧ ∀ s : Setting, s.get c < s.bound) := by
  intro parts
  refine ⟨⟨Text.intercalate_splitOn _ _, fun part => Text.not_mem_of_mem_splitOn⟩, fun c => ?_,
    fun e => ?_, fun text' hEdits c => ?_, fun c order spelling hOrder hSpells hText => ?_⟩
  · rw [read_eq_ok_iff, Options.parts, applyAll_eq_ok_iff, and_assoc]
    exact and_congr_right fun _ => And.comm
  · rw [read_eq_error_iff, Options.parts, applyAll_eq_error_iff]
    simp only [applyAll_eq_ok_iff, and_assoc, exists_and_left]
    rfl
  · rw [read_eq_ok_iff, read_eq_ok_iff, Options.parts, Options.parts,
      applyAll_iff_of_edits hEdits]
  · have hSome : order ≠ [] := fun hNone => by
      rw [hNone] at hOrder
      exact absurd (hOrder.mem_iff.2 (Setting.mem_all .minSize)) List.not_mem_nil
    have hWritten : text.toList = [';'].intercalate (order.map (written c spelling)) := by
      rw [hText]
      simp only [Numeral.toList_toString]
      rfl
    rw [read_eq_ok_iff, parts_written hSome hSpells c hWritten, applyAll_written hOrder hSpells]
    exact And.comm

/-- The last of two sizes counts, whichever way they are spelt. -/
example : read " MAX SIZE = 3 ;color=red;; MinSize=2;maxsize=+7" =
    .ok { minSize := 2, maxSize := 7 } := by decide +kernel

/-- A wait of 2 ^ 64 milliseconds is valid, but it is not read back. -/
theorem too_long_a_wait_to_be_read_back :
    let c : PoolConfig := { waitTimeout := 0x10000000000000000 }
    c.validate = .ok () ∧
      read ("MinSize=1;MaxSize=2;WaitTimeout=18446744073709551616;MaxAcquireRetryCount=5;" ++
          "CloseAttemptInterval=100;MaxCloseAttempts=5;SendTimeout=15000;ConnectTimeout=10000;" ++
          "ShutdownTimeout=10000;BufferSize=16384") =
        .error (.config "invalid value for waittimeout: 18446744073709551616") := by
  decide +kernel

end Options

end StoreClient
