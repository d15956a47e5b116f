import StoreClient.Pool.Buffer

/-!
# Buffers that are handed out

Who holds a buffer may do anything with it, and may give back buffers that were never handed out. So
what an allocator hands out depends on what it lets in: a release keeps a buffer only if it is large
enough and there is room, and empties it. That every free buffer is empty and large enough, and that
there are not too many of them, is kept by every call, and the number of free buffers is what the
calls have kept and not taken again.
-/

namespace StoreClient.BufferAllocator

/-- A call of an allocator. -/
inductive Call where
  /-- Takes a buffer. -/
  | acquire
  /-- Gives a buffer back: any, wherever it comes from and whatever was done with it. -/
  | release (b : Buffer)
deriving DecidableEq, Repr

/-- The allocator after a call. -/
def Call.apply : Call → BufferAllocator → BufferAllocator
  | .acquire, a => a.acquire.2
  | .release b, a => a.release b

/-- The allocator after calls. -/
def run (a : BufferAllocator) (calls : List Call) : BufferAllocator :=
  calls.foldl (fun a call => call.apply a) a

/-- Whether a call takes a free buffer. -/
def reuses (a : BufferAllocator) : Call → Bool
  | .acquire => !a.free.isEmpty
  | .release _ => false

/-- Whether a call gives a buffer back that is kept: it is large enough, and there is room. -/
def keeps (a : BufferAllocator) : Call → Bool
  | .acquire => false
  | .release b => a.bufferSize ≤ b.capacity && a.free.length < a.maxFree

/-- How many calls are of a kind, which may depend on the allocator that the call finds. -/
def count (kind : BufferAllocator → Call → Bool) (a : BufferAllocator) : List Call → Nat
  | [] => 0
  | call :: calls => (kind a call).toNat + count kind (call.apply a) calls

/-- What holds of an allocator between two calls. -/
structure Sound (a : BufferAllocator) : Prop where
  /-- No more buffers are free than are to be kept. -/
  bounded : a.free.length ≤ a.maxFree
  /-- Every free buffer is empty. -/
  empty : ∀ b ∈ a.free, b.length = 0
  /-- Every free buffer is large enough. -/
  large : ∀ b ∈ a.free, a.bufferSize ≤ b.capacity

variable {a : BufferAllocator}

/-! ## One call -/

theorem acquire_of_cons {b : Buffer} {free : List Buffer} (h : a.free = b :: free) :
    a.acquire = (b, { a with free }) := by
  unfold acquire
  rw [h]

theorem acquire_of_nil (h : a.free = []) : a.acquire = (.ofCapacity a.bufferSize, a) := by
  unfold acquire
  rw [h]

theorem release_of_keeps {b : Buffer} (hLarge : a.bufferSize ≤ b.capacity)
    (hRoom : a.free.length < a.maxFree) : a.release b = { a with free := b.clear :: a.free } := by
  unfold release
  rw [if_neg (Nat.not_lt_of_le hLarge), if_pos hRoom]

theorem release_of_not_keeps {b : Buffer}
    (h : ¬ (a.bufferSize ≤ b.capacity ∧ a.free.length < a.maxFree)) : a.release b = a := by
  unfold release
  by_cases hSmall : b.capacity < a.bufferSize
  · exact if_pos hSmall
  · have hFull : ¬ a.free.length < a.maxFree := fun hRoom => h ⟨Nat.le_of_not_lt hSmall, hRoom⟩
    rw [if_neg hSmall, if_neg hFull]

/-- A call leaves the allocator as it is, takes the first free buffer, or puts an empty and large
one in front of the others. -/
theorem apply_cases (call : Call) (a : BufferAllocator) :
    (call.apply a = a ∧ a.reuses call = false ∧ a.keeps call = false) ∨
      (∃ b free, a.free = b :: free ∧ call.apply a = { a with free } ∧ a.reuses call = true ∧
        a.keeps call = false) ∨
      ∃ b : Buffer, a.bufferSize ≤ b.capacity ∧ a.free.length < a.maxFree ∧
        call.apply a = { a with free := b.clear :: a.free } ∧ a.reuses call = false ∧
        a.keeps call = true := by
  cases call with
  | acquire =>
    cases hFree : a.free with
    | nil =>
      refine Or.inl ⟨congrArg Prod.snd (acquire_of_nil hFree), ?_, rfl⟩
      simp [reuses, hFree]
    | cons b free =>
      refine Or.inr (Or.inl ⟨b, free, rfl, congrArg Prod.snd (acquire_of_cons hFree), ?_, rfl⟩)
      simp [reuses, hFree]
  | release b =>
    by_cases hKeeps : a.bufferSize ≤ b.capacity ∧ a.free.length < a.maxFree
    · obtain ⟨hLarge, hRoom⟩ := hKeeps
      refine Or.inr (Or.inr ⟨b, hLarge, hRoom, release_of_keeps hLarge hRoom, rfl, ?_⟩)
      simp [keeps, hLarge, hRoom]
    · refine Or.inl ⟨release_of_not_keeps hKeeps, rfl, ?_⟩
      simpa [keeps] using hKeeps

theorem apply_settings (call : Call) (a : BufferAllocator) :
    (call.apply a).bufferSize = a.bufferSize ∧ (call.apply a).maxFree = a.maxFree := by
  rcases apply_cases call a with ⟨hSame, -, -⟩ | ⟨b, free, -, hTaken, -, -⟩ | ⟨b, -, -, hKept, -, -⟩
  · rw [hSame]
    exact ⟨rfl, rfl⟩
  · rw [hTaken]
    exact ⟨rfl, rfl⟩
  · rw [hKept]
    exact ⟨rfl, rfl⟩

/-- A call that keeps a buffer adds it to the free ones, and one that reuses a buffer takes it from
them. -/
theorem available_apply (call : Call) (a : BufferAllocator) :
    (call.apply a).available + (a.reuses call).toNat = a.available + (a.keeps call).toNat := by
  unfold available
  rcases apply_cases call a with
    ⟨hSame, hReuses, hKeeps⟩ | ⟨b, free, hFree, hTaken, hReuses, hKeeps⟩ |
      ⟨b, -, -, hKept, hReuses, hKeeps⟩
  · rw [hSame, hReuses, hKeeps]
  · rw [hTaken, hReuses, hKeeps, hFree]
    rfl
  · rw [hKept, hReuses, hKeeps]
    rfl

/-- Every call keeps the free buffers empty, large enough and not too many. -/
theorem Sound.apply (call : Call) (h : a.Sound) : (call.apply a).Sound := by
  rcases apply_cases call a with
    ⟨hSame, -, -⟩ | ⟨b, free, hFree, hTaken, -, -⟩ | ⟨b, hLarge, hRoom, hKept, -, -⟩
  · rw [hSame]
    exact h
  · have hSub : ∀ c ∈ free, c ∈ a.free := fun c hc => hFree ▸ List.mem_cons_of_mem b hc
    have hBounded := h.bounded
    rw [hFree, List.length_cons] at hBounded
    rw [hTaken]
    exact
      { bounded := Nat.le_of_succ_le hBounded
        empty := fun c hc => h.empty c (hSub c hc)
        large := fun c hc => h.large c (hSub c hc) }
  · rw [hKept]
    exact
      { bounded := hRoom
        empty := List.forall_mem_cons.2 ⟨rfl, h.empty⟩
        large := List.forall_mem_cons.2 ⟨hLarge, h.large⟩ }

/-- A buffer that is handed out is empty and large enough. -/
theorem Sound.acquired (h : a.Sound) :
    a.acquire.1.length = 0 ∧ a.bufferSize ≤ a.acquire.1.capacity := by
  cases hFree : a.free with
  | nil =>
    rw [acquire_of_nil hFree]
    exact ⟨rfl, Nat.le_refl _⟩
  | cons b free =>
    have hMem : b ∈ a.free := hFree ▸ List.mem_cons_self
    rw [acquire_of_cons hFree]
    exact ⟨h.empty b hMem, h.large b hMem⟩

/-! ## Runs -/

theorem run_settings (a : BufferAllocator) (calls : List Call) :
    (a.run calls).bufferSize = a.bufferSize ∧ (a.run calls).maxFree = a.maxFree := by
  induction calls generalizing a with
  | nil => exact ⟨rfl, rfl⟩
  | cons call calls ih =>
    obtain ⟨hSize, hFree⟩ := apply_settings call a
    obtain ⟨hSize', hFree'⟩ := ih (call.apply a)
    exact ⟨hSize'.trans hSize, hFree'.trans hFree⟩

theorem Sound.run (calls : List Call) (h : a.Sound) : (a.run calls).Sound := by
  induction calls generalizing a with
  | nil => exact h
  | cons call calls ih => exact ih (h.apply call)

/-- The free buffers are those that were kept and not reused since. -/
theorem available_run (a : BufferAllocator) (calls : List Call) :
    (a.run calls).available + a.count reuses calls = a.available + a.count keeps calls := by
  induction calls generalizing a with
  | nil => rfl
  | cons call calls ih =>
    have hCall := available_apply call a
    have hRest := ih (call.apply a)
    unfold count
    change ((call.apply a).run calls).available + _ = _
    omega

theorem sound_new (bufferSize maxFree : Nat) :
    Sound { bufferSize, maxFree } where
  bounded := Nat.zero_le maxFree
  empty := fun _ h => nomatch h
  large := fun _ h => nomatch h

/-- Whatever calls a new allocator has had, it keeps no more free buffers than it should, each of
them is empty and large enough, and so is the buffer that it hands out next. As many buffers are
free as releases have been kept, less those that were handed out again. -/
theorem hands_out_clean_buffers (bufferSize maxFree : Nat) (calls : List Call) :
    let start : BufferAllocator := { bufferSize, maxFree }
    let a := start.run calls
    a.available ≤ maxFree ∧
      (∀ b ∈ a.free, b.length = 0 ∧ bufferSize ≤ b.capacity) ∧
      (a.acquire.1.length = 0 ∧ bufferSize ≤ a.acquire.1.capacity) ∧
      a.available + start.count reuses calls = start.count keeps calls := by
  intro start a
  have hSound : a.Sound := (sound_new bufferSize maxFree).run calls
  obtain ⟨hSize, hFree⟩ : a.bufferSize = bufferSize ∧ a.maxFree = maxFree :=
    run_settings start calls
  have hBounded : a.available ≤ a.maxFree := hSound.bounded
  have hLarge := hSound.large
  have hAcquired := hSound.acquired
  rw [hFree] at hBounded
  rw [hSize] at hLarge hAcquired
  have hCount := available_run start calls
  exact ⟨hBounded, fun b hb => ⟨hSound.empty b hb, hLarge b hb⟩, hAcquired,
    hCount.trans (Nat.zero_add _)⟩

/-- A buffer that shrank is not kept; one that was filled is, and comes back empty; the next one
finds no room. -/
theorem filled_buffer_comes_back :
    let full : Buffer := { length := 9, capacity := 16 }
    let start : BufferAllocator := { bufferSize := 8, maxFree := 1 }
    let calls : List Call :=
      [.acquire, .release { capacity := 7 }, .release full, .acquire, .release full, .release full]
    let a := start.run calls
    a.available = 1 ∧ start.count keeps calls = 2 ∧ start.count reuses calls = 1 ∧
      full.clear ∈ a.free ∧ full.clear.length = 0 ∧ 8 ≤ full.clear.capacity ∧
      a.acquire.1 = { length := 0, capacity := 16 } := by
  intro full start calls a
  obtain ⟨-, hFree, -, hCount⟩ := hands_out_clean_buffers 8 1 calls
  have hKept : start.count keeps calls = 2 := by decide
  have hReused : start.count reuses calls = 1 := by decide
  have hMem : full.clear ∈ a.free := by decide
  obtain ⟨hEmpty, hLarge⟩ := hFree full.clear hMem
  have hAvailable : a.available + 1 = 2 := hCount
  exact ⟨Nat.succ.inj hAvailable, hKept, hReused, hMem, hEmpty, hLarge, by decide⟩

end StoreClient.BufferAllocator
