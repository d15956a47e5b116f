import StoreClient.Proofs.Request.ReadBack
import StoreClient.Proofs.Text.Utf8

/-!
# What a frame tells of its request

The frame of a request names the lengths of the extras, of the key and of everything together, but
not those of path and body, and the extras of requests about paths have optional parts. Still a
frame is the frame of one request only: the command says which kind it is, the length of the extras
says which parts they have, and their first two bytes say where the path ends.
-/

namespace StoreClient

/-! ## Layouts with the same frame -/

namespace Layout

variable {l l' : Layout} {id id' : UInt32} {cas cas' : UInt64} {frame : Bytes}

/-- Everything that was laid out is found in the frame by its header. -/
theorem exists_foundBy (h : l.frame id cas = .ok frame) :
    ∃ extras body header, l.Fits extras body ∧ Header.parse frame = .ok header ∧
      l.FoundBy id cas extras body frame header := by
  obtain ⟨extras, body, hFits, rfl⟩ := frame_eq_ok_iff.1 h
  refine ⟨extras, body, _, hFits, ?_, hFits.foundBy⟩
  simp only [List.append_assoc]
  exact Header.parse_toBytes _ _

/-- All of two layouts that goes into the header is the same if their frames are, and so are the
extras and the keys; of path and body only the whole is seen to be the same. -/
theorem frame_determines (h : l.frame id cas = .ok frame) (h' : l'.frame id' cas' = .ok frame) :
    l.opcode = l'.opcode ∧ id = id' ∧ cas = cas' ∧ l.vbucket.getD 0 = l'.vbucket.getD 0 ∧
      l.key = l'.key ∧ ∃ extras body body', l.Fits extras body ∧ l'.Fits extras body' ∧
        l.path ++ body = l'.path ++ body' := by
  obtain ⟨extras, body, header, hFits, hParse, hFound⟩ := exists_foundBy h
  obtain ⟨extras', body', header', hFits', hParse', hFound'⟩ := exists_foundBy h'
  have hHeader : header' = header := Except.ok.inj (hParse'.symm.trans hParse)
  subst hHeader
  have hCode : l.opcode.code = l'.opcode.code := hFound.opcode.symm.trans hFound'.opcode
  have hOpcode : l.opcode = l'.opcode := by
    have hSome := congrArg Opcode.ofCode? hCode
    rw [Opcode.ofCode?_code, Opcode.ofCode?_code] at hSome
    exact Option.some.inj hSome
  have hExtras : extras' = extras := hFound'.extrasAt.symm.trans hFound.extrasAt
  subst hExtras
  exact ⟨hOpcode, hFound.correlationId.symm.trans hFound'.correlationId,
    hFound.cas.symm.trans hFound'.cas,
    hFound.statusOrVBucket.symm.trans hFound'.statusOrVBucket,
    hFound.keyAt.symm.trans hFound'.keyAt, extras', body, body', hFits, hFits',
    hFound.valueAt.symm.trans hFound'.valueAt⟩

end Layout

/-! ## Keys -/

namespace Exchange

variable {x y : Exchange}

/-- A key that is not empty is known by its bytes. -/
theorem key_eq_of_keyBytes (hNonempty : x.keyBytes ≠ []) (h : x.keyBytes = y.keyBytes) :
    x.key = y.key := by
  have hNonempty' : y.keyBytes ≠ [] := h ▸ hNonempty
  unfold keyBytes at h hNonempty hNonempty'
  cases hx : x.key with
  | none => exact absurd (by simp [hx]) hNonempty
  | some key =>
    cases hy : y.key with
    | none => exact absurd (by simp [hy]) hNonempty'
    | some key' =>
      simp only [hx, hy] at h
      rw [Utf8.encode_injective h]

end Exchange

theorem Layout.Fits.key_ne_nil {l : Layout} {extras body : Bytes} (h : l.Fits extras body)
    (hRequires : l.requiresKey = true) : l.key ≠ [] := by
  intro hEmpty
  apply h.hasKey
  simp [hRequires, hEmpty]

/-! ## Paths and their flags -/

/-- Flags of a document are told by their byte, or by its absence. -/
theorem DocFlags.toBytes_injective {f f' : DocFlags} (h : f.toBytes = f'.toBytes) : f = f' := by
  obtain ⟨bits⟩ := f
  obtain ⟨bits'⟩ := f'
  unfold toBytes at h
  by_cases hZero : bits = 0
  · by_cases hZero' : bits' = 0
    · rw [hZero, hZero']
    · simp [hZero, hZero'] at h
  · by_cases hZero' : bits' = 0
    · simp [hZero, hZero'] at h
    · simp only [hZero, hZero', if_false, List.cons.injEq, and_true] at h
      rw [h]

theorem DocFlags.length_toBytes_le (f : DocFlags) : f.toBytes.length ≤ 1 := by
  unfold toBytes
  split <;> simp

theorem pathExtras_eq_ok_iff {path : Bytes} {flags : PathFlags} {bytes : Bytes} :
    pathExtras path flags = .ok bytes ↔
      path.length ≤ maxPathLength ∧
        Bytes.ofUInt16 (UInt16.ofNat path.length) ++ [flags.bits] = bytes := by
  unfold pathExtras
  rw [bind_eq_ok_iff]
  constructor
  · rintro ⟨u, hLength, hBytes⟩
    exact ⟨checkLength_eq_ok_iff.1 hLength, Except.ok.inj hBytes⟩
  · rintro ⟨hLength, rfl⟩
    exact ⟨(), checkLength_eq_ok_iff.2 hLength, rfl⟩

/-- Extras that start with the part about a path tell the length of the path, its flags and what
follows them. -/
theorem pathExtras_append_injective {path path' start start' : Bytes} {flags flags' : PathFlags}
    {rest rest' : Bytes} (hStart : pathExtras path flags = .ok start)
    (hStart' : pathExtras path' flags' = .ok start') (h : start ++ rest = start' ++ rest') :
    path.length = path'.length ∧ flags = flags' ∧ rest = rest' := by
  obtain ⟨hLength, rfl⟩ := pathExtras_eq_ok_iff.1 hStart
  obtain ⟨hLength', rfl⟩ := pathExtras_eq_ok_iff.1 hStart'
  have hSameLength :
      (Bytes.ofUInt16 (UInt16.ofNat path.length) ++ [flags.bits]).length =
        (Bytes.ofUInt16 (UInt16.ofNat path'.length) ++ [flags'.bits]).length := by
    simp
  obtain ⟨hHead, hRest⟩ := List.append_inj h hSameLength
  obtain ⟨hWord, hBits⟩ := List.append_inj hHead (by simp)
  have hNat : path.length = path'.length := by
    have hWords := congrArg UInt16.toNat (Bytes.ofUInt16_injective hWord)
    rwa [UInt16.toNat_ofNat_of_lt' (Nat.lt_succ_of_le hLength),
      UInt16.toNat_ofNat_of_lt' (Nat.lt_succ_of_le hLength')] at hWords
  obtain ⟨bits⟩ := flags
  obtain ⟨bits'⟩ := flags'
  cases hBits
  exact ⟨hNat, rfl, hRest⟩

/-- Paths of the same length that are followed by something are told apart from it. -/
theorem path_append_injective {path path' : String} {body body' : Bytes}
    (hLength : (Utf8.encode path).length = (Utf8.encode path').length)
    (h : Utf8.encode path ++ body = Utf8.encode path' ++ body') : path = path' ∧ body = body' := by
  obtain ⟨hPath, hBody⟩ := List.append_inj h hLength
  exact ⟨Utf8.encode_injective hPath, hBody⟩

namespace Lookup

theorem extras_eq_ok_iff {l : Lookup} {bytes : Bytes} :
    l.extras = .ok bytes ↔
      ∃ start, pathExtras (Utf8.encode l.path) l.pathFlags = .ok start ∧
        start ++ l.docFlags.toBytes = bytes := by
  unfold extras
  rw [bind_eq_ok_iff]
  simp only [pure, Except.pure, Except.ok.injEq]

end Lookup

namespace Mutation

theorem extras_eq_ok_iff {m : Mutation} {bytes : Bytes} :
    m.extras = .ok bytes ↔
      ∃ start, pathExtras (Utf8.encode m.path) m.pathFlags = .ok start ∧
        start ++ (m.expiryBytes ++ m.docFlags.toBytes) = bytes := by
  unfold extras
  rw [bind_eq_ok_iff]
  simp only [pure, Except.pure, Except.ok.injEq, List.append_assoc]

/-- An expiry is told by its four bytes, or by their absence. -/
theorem expiryBytes_injective {m m' : Mutation} (h : m.expiryBytes = m'.expiryBytes) :
    m.expiry = m'.expiry := by
  unfold expiryBytes at h
  have hNonempty : ∀ n : UInt32, Bytes.ofUInt32 n ≠ [] := by
    intro n hEmpty
    have hLength := congrArg List.length hEmpty
    simp at hLength
  by_cases hZero : m.expiry = 0
  · by_cases hZero' : m'.expiry = 0
    · rw [hZero, hZero']
    · simp only [hZero, hZero', if_true, if_false] at h
      exact absurd h.symm (hNonempty _)
  · by_cases hZero' : m'.expiry = 0
    · simp only [hZero, hZero', if_true, if_false] at h
      exact absurd h (hNonempty _)
    · simp only [hZero, hZero', if_false] at h
      exact Bytes.ofUInt32_injective h

theorem length_expiryBytes (m : Mutation) :
    m.expiryBytes.length = 0 ∨ m.expiryBytes.length = 4 := by
  unfold expiryBytes
  split
  · exact Or.inl rfl
  · exact Or.inr (Bytes.length_ofUInt32 _)

/-- The optional parts of the extras have four lengths together, each of which says what is there.
-/
theorem options_injective {m m' : Mutation}
    (h : m.expiryBytes ++ m.docFlags.toBytes = m'.expiryBytes ++ m'.docFlags.toBytes) :
    m.expiry = m'.expiry ∧ m.docFlags = m'.docFlags := by
  have hLength := congrArg List.length h
  rw [List.length_append, List.length_append] at hLength
  have hFlags := m.docFlags.length_toBytes_le
  have hFlags' := m'.docFlags.length_toBytes_le
  have hExpiryLength : m.expiryBytes.length = m'.expiryBytes.length := by
    rcases m.length_expiryBytes with h0 | h4 <;> rcases m'.length_expiryBytes with h0' | h4' <;>
      omega
  obtain ⟨hExpiry, hDoc⟩ := List.append_inj h hExpiryLength
  exact ⟨expiryBytes_injective hExpiry, DocFlags.toBytes_injective hDoc⟩

end Mutation

/-! ## The other kinds -/

/-- A change of a counter is told by its extras. -/
theorem Counter.extras_injective {c c' : Counter} (h : c.extras = c'.extras) :
    c.delta = c'.delta ∧ c.initial = c'.initial ∧ c.expiry = c'.expiry := by
  unfold extras at h
  obtain ⟨hNumbers, hExpiry⟩ := List.append_inj h (by simp)
  obtain ⟨hDelta, hInitial⟩ := List.append_inj hNumbers (by simp)
  exact ⟨Bytes.ofUInt64_injective hDelta, Bytes.ofUInt64_injective hInitial,
    Bytes.ofUInt32_injective hExpiry⟩

/-- The codes of a wish are read back from its body. -/
theorem Hello.codes_body (h : Hello) : codes h.body = h.features := by
  obtain ⟨features⟩ := h
  unfold body
  induction features with
  | nil => rfl
  | cons code features ih =>
    have hBytes : ∃ first second, Bytes.ofUInt16 code = [first, second] := ⟨_, _, rfl⟩
    obtain ⟨first, second, hPair⟩ := hBytes
    have hCode : Bytes.uint16At [first, second] 0 = code := Bytes.uint16At_of_slice hPair.symm
    simp only [List.flatMap_cons, hPair, List.cons_append, List.nil_append, codes, hCode]
    exact congrArg _ ih

/-- The body of an observation has the partition, the length of the key, and the key. -/
theorem Observe.parts_of_body {x : Exchange} {bytes : Bytes} (h : body x = .ok bytes) :
    x.keyBytes ≠ [] ∧ ∃ vbucket, x.vbucket = some vbucket ∧
      Bytes.ofUInt16 vbucket ++ Bytes.ofUInt16 (UInt16.ofNat x.keyBytes.length) ++ x.keyBytes =
        bytes := by
  unfold body at h
  by_cases hEmpty : x.keyBytes.isEmpty = true
  · rw [if_pos hEmpty] at h
    cases h
  · rw [if_neg hEmpty] at h
    have hNonempty : x.keyBytes ≠ [] := fun hNil => hEmpty (List.isEmpty_iff.2 hNil)
    cases hVBucket : x.vbucket with
    | none =>
      rw [hVBucket] at h
      cases h
    | some vbucket =>
      simp only [hVBucket, bind_eq_ok_iff] at h
      obtain ⟨-, -, hBytes⟩ := h
      exact ⟨hNonempty, vbucket, rfl, Except.ok.inj hBytes⟩

/-- The body of an observation tells key and partition. -/
theorem Observe.body_injective {x y : Exchange} {bytes : Bytes} (hx : body x = .ok bytes)
    (hy : body y = .ok bytes) : x.key = y.key ∧ x.vbucket = y.vbucket := by
  obtain ⟨hKey, vbucket, hVBucket, rfl⟩ := parts_of_body hx
  obtain ⟨-, vbucket', hVBucket', hBytes⟩ := parts_of_body hy
  obtain ⟨hWords, hKeyBytes⟩ := List.append_inj hBytes (by simp)
  obtain ⟨hSame, -⟩ := List.append_inj hWords (by simp)
  rw [hVBucket, hVBucket', Bytes.ofUInt16_injective hSame]
  exact ⟨Exchange.key_eq_of_keyBytes hKey hKeyBytes.symm, rfl⟩

/-! ## Requests -/

namespace Request

/-- The kinds of requests. -/
inductive Kind where
  | counter
  | hello
  | observe
  | observeSeqno
  | lookup
  | mutation
deriving DecidableEq, Repr

/-- The kind of a request. -/
def kind : Request → Kind
  | .counter _ => .counter
  | .hello _ => .hello
  | .observe => .observe
  | .observeSeqno _ => .observeSeqno
  | .lookup _ => .lookup
  | .mutation _ => .mutation

/-- The kind of the requests that a command belongs to. -/
def Kind.ofOpcode? (c : Opcode) : Option Kind :=
  if c.isPathLookup then some .lookup
  else if c.isPathMutation then some .mutation
  else
    match c with
    | .increment | .decrement => some .counter
    | .hello => some .hello
    | .observe => some .observe
    | .observeSeqno => some .observeSeqno
    | _ => none

/-- The opcode tells the kind of a request. -/
theorem ofOpcode?_opcode (r : Request) (x : Exchange) :
    Kind.ofOpcode? (r.operation.layout x).opcode = some r.kind := by
  cases r with
  | counter c =>
    obtain ⟨direction, delta, initial, expiry⟩ := c
    cases direction <;> rfl
  | hello | observe | observeSeqno => rfl
  | lookup l =>
    obtain ⟨verb, path, pathFlags, docFlags⟩ := l
    cases verb <;> rfl
  | mutation m =>
    obtain ⟨verb, path, value, pathFlags, docFlags, expiry, removeBrackets⟩ := m
    cases verb <;> rfl

/-- What a request asks for. -/
inductive Content where
  | counter (key : Option String) (delta initial : UInt64) (expiry : UInt32)
  | hello (key : Option String) (features : List UInt16)
  | observe (key : Option String) (vbucket : Option UInt16)
  | observeSeqno (vbucket : UInt16) (uuid : UInt64)
  | lookup (key : Option String) (path : String) (pathFlags : PathFlags) (docFlags : DocFlags)
  | mutation (key : Option String) (path : String) (pathFlags : PathFlags) (docFlags : DocFlags)
    (expiry : UInt32) (body : Bytes)
deriving DecidableEq, Repr

/-- What a request asks for in an exchange. -/
def content (r : Request) (x : Exchange) : Content :=
  match r with
  | .counter c => .counter x.key c.delta c.initial c.expiry
  | .hello h => .hello x.key h.features
  | .observe => .observe x.key x.vbucket
  | .observeSeqno o => .observeSeqno o.token.vbucket o.token.uuid
  | .lookup l => .lookup x.key l.path l.pathFlags l.docFlags
  | .mutation m => .mutation x.key m.path m.pathFlags m.docFlags m.expiry m.body

/-- Requests of one kind ask for the same if their layouts agree in the key, in the partition, in
the extras, and in path and body taken together. -/
theorem content_eq_of_fits {r s : Request} {x y : Exchange} {extras body body' : Bytes}
    (hKind : r.kind = s.kind)
    (hKey : (r.operation.layout x).key = (s.operation.layout y).key)
    (hVBucket :
      (r.operation.layout x).vbucket.getD 0 = (s.operation.layout y).vbucket.getD 0)
    (hr : (r.operation.layout x).Fits extras body) (hs : (s.operation.layout y).Fits extras body')
    (hValue :
      (r.operation.layout x).path ++ body = (s.operation.layout y).path ++ body') :
    r.content x = s.content y := by
  cases r with
  | counter c =>
    cases s with
    | counter c' =>
      have hSameKey := Exchange.key_eq_of_keyBytes (hr.key_ne_nil rfl) hKey
      have hExtras : c.extras = c'.extras :=
        (Except.ok.inj hr.hasExtras).trans (Except.ok.inj hs.hasExtras).symm
      obtain ⟨hDelta, hInitial, hExpiry⟩ := Counter.extras_injective hExtras
      simp only [content, hSameKey, hDelta, hInitial, hExpiry]
    | _ => cases hKind
  | hello h =>
    cases s with
    | hello h' =>
      have hSameKey := Exchange.key_eq_of_keyBytes (hr.key_ne_nil rfl) hKey
      have hBody : h.body = h'.body :=
        (Except.ok.inj hr.hasBody).trans (hValue.trans (Except.ok.inj hs.hasBody).symm)
      have hFeatures : h.features = h'.features := by
        rw [← h.codes_body, ← h'.codes_body, hBody]
      simp only [content, hSameKey, hFeatures]
    | _ => cases hKind
  | observe =>
    cases s with
    | observe =>
      have hBody : body = body' := hValue
      subst hBody
      obtain ⟨hSameKey, hSameVBucket⟩ := Observe.body_injective hr.hasBody hs.hasBody
      simp only [content, hSameKey, hSameVBucket]
    | _ => cases hKind
  | observeSeqno o =>
    cases s with
    | observeSeqno o' =>
      have hBody : Bytes.ofUInt64 o.token.uuid = Bytes.ofUInt64 o'.token.uuid :=
        (Except.ok.inj hr.hasBody).trans (hValue.trans (Except.ok.inj hs.hasBody).symm)
      have hPartition : o.token.vbucket = o'.token.vbucket := hVBucket
      simp only [content, hPartition, Bytes.ofUInt64_injective hBody]
    | _ => cases hKind
  | lookup l =>
    cases s with
    | lookup l' =>
      have hSameKey := Exchange.key_eq_of_keyBytes (hr.key_ne_nil rfl) hKey
      obtain ⟨start, hStart, hExtras⟩ := Lookup.extras_eq_ok_iff.1 hr.hasExtras
      obtain ⟨start', hStart', hExtras'⟩ := Lookup.extras_eq_ok_iff.1 hs.hasExtras
      obtain ⟨hLength, hPathFlags, hDoc⟩ :=
        pathExtras_append_injective hStart hStart' (hExtras.trans hExtras'.symm)
      obtain ⟨hPath, -⟩ := path_append_injective hLength hValue
      simp only [content, hSameKey, hPath, hPathFlags, DocFlags.toBytes_injective hDoc]
    | _ => cases hKind
  | mutation m =>
    cases s with
    | mutation m' =>
      have hSameKey := Exchange.key_eq_of_keyBytes (hr.key_ne_nil rfl) hKey
      obtain ⟨start, hStart, hExtras⟩ := Mutation.extras_eq_ok_iff.1 hr.hasExtras
      obtain ⟨start', hStart', hExtras'⟩ := Mutation.extras_eq_ok_iff.1 hs.hasExtras
      obtain ⟨hLength, hPathFlags, hOptions⟩ :=
        pathExtras_append_injective hStart hStart' (hExtras.trans hExtras'.symm)
      obtain ⟨hExpiry, hDoc⟩ := Mutation.options_injective hOptions
      obtain ⟨hPath, hSameBody⟩ := path_append_injective hLength hValue
      have hBody : m.body = m'.body :=
        (Except.ok.inj hr.hasBody).trans (hSameBody.trans (Except.ok.inj hs.hasBody).symm)
      simp only [content, hSameKey, hPath, hPathFlags, hExpiry, hDoc, hBody]
    | _ => cases hKind

/-- Two requests with the same frame are of the same kind, with the same command, correlation id,
compare-and-swap value and partition in the header, and they ask for the same. -/
theorem same_frame_same_request (r s : Request) (x y : Exchange) (frame : Bytes)
    (hr : r.operation.write x = .ok frame) (hs : s.operation.write y = .ok frame) :
    r.kind = s.kind ∧
      (r.operation.layout x).opcode = (s.operation.layout y).opcode ∧
      x.correlationId = y.correlationId ∧ x.cas = y.cas ∧
      (r.operation.layout x).vbucket.getD 0 = (s.operation.layout y).vbucket.getD 0 ∧
      r.content x = s.content y := by
  obtain ⟨hOpcode, hId, hCas, hVBucket, hKey, extras, body, body', hFits, hFits', hValue⟩ :=
    Layout.frame_determines hr hs
  have hKind : r.kind = s.kind := by
    have hSome := congrArg Kind.ofOpcode? hOpcode
    rw [ofOpcode?_opcode, ofOpcode?_opcode] at hSome
    exact Option.some.inj hSome
  exact ⟨hKind, hOpcode, hId, hCas, hVBucket,
    content_eq_of_fits hKind hKey hVBucket hFits hFits' hValue⟩

/-- A list of one element without its brackets and the element itself, with no partition and with
partition 0: two requests, one frame. -/
theorem same_frame_of_element :
    let r : Request := .mutation
      { verb := .arrayAppend, path := "p", value := [0x5b, 0x31, 0x5d], expiry := 9
        removeBrackets := true }
    let s : Request := .mutation { verb := .arrayAppend, path := "p", value := [0x31], expiry := 9 }
    let x : Exchange := { key := some "k", correlationId := 7, cas := 5 }
    let y : Exchange := { key := some "k", vbucket := some 0, correlationId := 7, cas := 5 }
    let frame : Bytes :=
      [128, 203, 0, 1, 7, 0, 0, 0, 0, 0, 0, 10, 0, 0, 0, 7, 0, 0, 0, 0, 0, 0, 0, 5, 0, 1, 0, 0, 0,
        0, 9, 107, 112, 49]
    r ≠ s ∧ r.operation.write x = .ok frame ∧ s.operation.write y = .ok frame ∧
      r.kind = s.kind ∧
      (r.operation.layout x).opcode = (s.operation.layout y).opcode ∧
      x.correlationId = y.correlationId ∧ x.cas = y.cas ∧
      (r.operation.layout x).vbucket.getD 0 = (s.operation.layout y).vbucket.getD 0 ∧
      r.content x = s.content y :=
  ⟨by decide, by rfl, by rfl, same_frame_same_request _ _ _ _ _ (by rfl) (by rfl)⟩

end Request

end StoreClient
