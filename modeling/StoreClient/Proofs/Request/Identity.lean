import StoreClient.Proofs.Request.Layout
import StoreClient.Proofs.Text.Json
import StoreClient.Request.Hello

/-!
# The key of a negotiation

A client presents itself by a JSON object that is the key of its wish for features. The object has
two members, which are read back as they were written whatever the agent is called. Escaping one
character takes six bytes at most, so the key always fits its field.
-/

namespace StoreClient

/-! ## Sizes -/

namespace Utf8

/-- The number of bytes of some characters. -/
def size (text : List Char) : Nat := (text.flatMap String.utf8EncodeChar).length

theorem length_encode (text : String) : (encode text).length = size text.toList := rfl

@[simp] theorem size_nil : size [] = 0 := rfl

@[simp] theorem size_cons (c : Char) (text : List Char) :
    size (c :: text) = c.utf8Size + size text := by
  rw [size, List.flatMap_cons, List.length_append, String.length_utf8EncodeChar, size]

@[simp] theorem size_append (text text' : List Char) :
    size (text ++ text') = size text + size text' := by
  rw [size, List.flatMap_append, List.length_append, size, size]

end Utf8

namespace Hex

/-- The digits in the order of their values. -/
def lowerDigits : List Char := "0123456789abcdef".toList

theorem mem_lowerDigits_of_mem_fixed {places n : Nat} {c : Char} (hc : c ∈ fixed places n) :
    c ∈ lowerDigits := by
  have hDigit : ∀ d < 16, digit d ∈ lowerDigits := by decide
  induction places generalizing n with
  | zero => cases hc
  | succ places ih =>
    rw [fixed, List.mem_append, List.mem_singleton] at hc
    rcases hc with hc | rfl
    · exact ih hc
    · exact hDigit _ (Nat.mod_lt n (by decide))

/-- Each digit is one byte. -/
theorem size_fixed (places n : Nat) : Utf8.size (fixed places n) = places := by
  have hDigit : ∀ d < 16, (digit d).utf8Size = 1 := by decide
  induction places generalizing n with
  | zero => rfl
  | succ places ih =>
    rw [fixed, Utf8.size_append, ih, Utf8.size_cons, hDigit _ (Nat.mod_lt n (by decide)),
      Utf8.size_nil]

end Hex

namespace Quoted

/-- An escaped character has at most six bytes. -/
theorem size_escape (c : Char) : Utf8.size (escape c) ≤ 6 := by
  unfold escape
  split_ifs
  all_goals try decide
  · rw [Utf8.size_cons, Utf8.size_cons, Hex.size_fixed]
    decide
  · rw [Utf8.size_cons, Utf8.size_nil]
    exact Nat.le_trans c.utf8Size_le_four (by decide)

/-- A quoted text has at most six bytes for each character, and its quotes. -/
theorem size_encode (text : List Char) : Utf8.size (encode text) ≤ 6 * text.length + 2 := by
  have hEscaped : Utf8.size (text.flatMap escape) ≤ 6 * text.length := by
    induction text with
    | nil => exact Nat.le_refl _
    | cons c text ih =>
      have hFirst := size_escape c
      rw [List.flatMap_cons, Utf8.size_append, List.length_cons]
      omega
  have hQuote : Char.utf8Size '"' = 1 := rfl
  rw [encode, Utf8.size_cons, Utf8.size_append, Utf8.size_cons, Utf8.size_nil, hQuote]
  omega

end Quoted

namespace Hello

/-- The agent as far as it is told. -/
def shownAgent (agent : String) : List Char := agent.toList.take maxAgentLength

/-- The key is an object with two members, the agent first. -/
theorem key_toList (connectionId : UInt64) (agent : String) :
    (key connectionId agent).toList =
      '\x7b' :: (Quoted.encode ['a'] ++ ':' :: (Quoted.encode (shownAgent agent) ++
        ',' :: (Quoted.encode ['i'] ++ ':' ::
          (Quoted.encode (Hex.fixed 16 connectionId.toNat) ++ ['\x7d'])))) := by
  have hAgent : "\x7b\"a\":".toList = '\x7b' :: (Quoted.encode ['a'] ++ [':']) := rfl
  have hId : ",\"i\":".toList = ',' :: (Quoted.encode ['i'] ++ [':']) := rfl
  have hKey : (key connectionId agent).toList = _ := String.toList_ofList
  simp only [hKey, hAgent, hId, shownAgent, List.append_assoc, List.cons_append, List.nil_append]

/-- The key is an object of the agent and the digits of the id. -/
theorem object_key (connectionId : UInt64) (agent : String) :
    Json.Object (key connectionId agent).toList
      [(['a'], shownAgent agent), (['i'], Hex.fixed 16 connectionId.toNat)] := by
  rw [key_toList]
  have hId := Json.member_encode ['i'] (Hex.fixed 16 connectionId.toNat) ['\x7d']
  exact .filled .done (.more (Json.member_encode _ _ _) .done (.last hId .done)) .done

theorem size_key (connectionId : UInt64) (agent : String) :
    0 < (Utf8.encode (key connectionId agent)).length ∧
      (Utf8.encode (key connectionId agent)).length ≤ 1335 := by
  have hNames := And.intro (Quoted.size_encode ['a']) (Quoted.size_encode ['i'])
  have hAgent := Quoted.size_encode (shownAgent agent)
  have hId := Quoted.size_encode (Hex.fixed 16 connectionId.toNat)
  have hShown : (shownAgent agent).length ≤ 200 := List.length_take_le _ _
  have hMarks : ['\x7b', ':', ',', '\x7d'].map Char.utf8Size = [1, 1, 1, 1] := rfl
  simp only [List.map_cons, List.cons.injEq] at hMarks
  rw [Hex.length_fixed] at hId
  simp only [List.length_singleton] at hNames
  rw [Utf8.length_encode, key_toList]
  simp only [Utf8.size_append, Utf8.size_cons, Utf8.size_nil]
  omega

/-- A wish is written with a key exactly if key and codes fit the field of the body's length. -/
theorem write_iff (w : Hello) {x : Exchange} (hSome : 0 < x.keyBytes.length)
    (hFits : x.keyBytes.length ≤ maxKeyLength) :
    (∃ frame, w.operation.write x = .ok frame) ↔
      x.keyBytes.length + 2 * w.features.length ≤ maxBodyLength := by
  have hBody : w.body.length = 2 * w.features.length := by
    rw [body, List.length_flatMap]
    induction w.features with
    | nil => rfl
    | cons code codes ih =>
      rw [List.map_cons, List.sum_cons, ih, Bytes.length_ofUInt16, List.length_cons]
      omega
  constructor
  · rintro ⟨frame, hFrame⟩
    obtain ⟨extras, written, hLayout, -⟩ := Layout.frame_eq_ok_iff.1 hFrame
    cases hLayout.hasBody
    have hTotal : extras.length + x.keyBytes.length + 0 + w.body.length ≤ maxBodyLength :=
      hLayout.bodyLength
    omega
  · intro hTotal
    have hKey : ¬ (true && x.keyBytes.isEmpty) = true := by
      rw [Bool.true_and, List.isEmpty_iff_length_eq_zero]
      exact Nat.ne_of_gt hSome
    have hBodyLength : 0 + x.keyBytes.length + 0 + w.body.length ≤ maxBodyLength := by
      rw [hBody]
      omega
    exact ⟨_, Layout.frame_eq_ok_iff.2 ⟨[], w.body,
      ⟨hKey, rfl, rfl, hFits, Nat.zero_le _, hBodyLength⟩, rfl⟩⟩

/-- The key is the object of the id in 16 digits and of the first characters of the agent, and of
nothing else, so that it tells both. It fits its field, and a wish is written under it whenever its
codes fit the body. -/
theorem key_tells_id_and_agent (connectionId : UInt64) (agent : String) :
    let text := key connectionId agent
    let length := (Utf8.encode text).length
    (∃ digits, digits.length = 16 ∧ (∀ d ∈ digits, d ∈ "0123456789abcdef".toList) ∧
        Json.numeral? 16 0 digits = some (connectionId.toNat, []) ∧
        ∀ members, Json.Object text.toList members ↔
          members = [(['a'], agent.toList.take 200), (['i'], digits)]) ∧
      (∀ connectionId' agent', key connectionId' agent' = text ↔
        connectionId' = connectionId ∧ agent'.toList.take 200 = agent.toList.take 200) ∧
      0 < length ∧ length ≤ 65535 ∧
      ∀ (features : List UInt16) (x : Exchange),
        (∃ frame, (Hello.mk features).operation.write { x with key := some text } = .ok frame) ↔
          length + 2 * features.length ≤ 2 ^ 32 - 1 := by
  have hDigits (id : UInt64) :
      Json.numeral? 16 0 (Hex.fixed 16 id.toNat) = some (id.toNat, []) := by
    have hFits : id.toNat < 16 ^ 16 := id.toNat_lt
    have hRead := Json.numeral?_fixed hFits 0 []
    rwa [List.append_nil, Nat.zero_mul, Nat.zero_add] at hRead
  have hObject := object_key connectionId agent
  obtain ⟨hSome, hFits⟩ := size_key connectionId agent
  intro text length
  refine ⟨⟨Hex.fixed 16 connectionId.toNat, Hex.length_fixed _ _,
    fun d => Hex.mem_lowerDigits_of_mem_fixed, hDigits connectionId, fun members => ?_⟩,
    fun connectionId' agent' => ?_, hSome, ?_, fun features x => ?_⟩
  · constructor
    · exact fun hMembers => hMembers.unique hObject
    · rintro rfl
      exact hObject
  · constructor
    · intro hSame
      have hObject' := object_key connectionId' agent'
      rw [hSame] at hObject'
      obtain ⟨hAgent, hId⟩ := List.cons.inj (hObject'.unique hObject)
      have hNumeral := hDigits connectionId'
      rw [(Prod.mk.inj (List.cons.inj hId).1).2, hDigits connectionId] at hNumeral
      have hValue := (Prod.mk.inj (Option.some.inj hNumeral)).1
      exact ⟨UInt64.toNat_inj.1 hValue.symm, (Prod.mk.inj hAgent).2⟩
    · rintro ⟨rfl, hAgent⟩
      have hShown : shownAgent agent' = shownAgent agent := hAgent
      refine String.toList_inj.1 ?_
      rw [key_toList, key_toList, hShown]
  · exact Nat.le_trans hFits (by decide)
  · exact write_iff ⟨features⟩ (x := { x with key := some text }) hSome
      (Nat.le_trans hFits (by decide))

end Hello

end StoreClient
