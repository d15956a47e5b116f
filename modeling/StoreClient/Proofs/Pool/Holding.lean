import StoreClient.Proofs.Pool.Disposal

/-!
# Who holds what, operation by operation

An attempt may give its caller a connection, and a release takes one from a caller; no other
operation changes what callers hold. Honest callers release only what they hold, and what they hold
after the operations of a step is what their slots say.
-/

namespace StoreClient

namespace Pool

variable {p : Pool} {held : List Handle}

/-- The connections that callers hold after an operation. -/
def heldAfter (p : Pool) (held : List Handle) : Op → List Handle
  | .attempt => p.attempt.2.handles ++ held
  | .release h => held.erase h
  | _ => held

/-- The connections that callers hold after some operations. -/
def heldAfterAll (p : Pool) (held : List Handle) : List Op → List Handle
  | [] => held
  | op :: ops => (p.apply op).heldAfterAll (p.heldAfter held op) ops

/-- The connection that an operation gives back. -/
def Op.given : Op → List Handle
  | .release h => [h]
  | _ => []

/-- Only what is held is given back. -/
def Faithful (p : Pool) (held : List Handle) : List Op → Prop
  | [] => True
  | op :: ops => op.given ⊆ held ∧ (p.apply op).Faithful (p.heldAfter held op) ops

theorem heldAfterAll_append (p : Pool) (held : List Handle) (ops ops' : List Op) :
    p.heldAfterAll held (ops ++ ops') =
      (p.applyAll ops).heldAfterAll (p.heldAfterAll held ops) ops' := by
  induction ops generalizing p held with
  | nil => rfl
  | cons op ops ih => exact ih (p.apply op) (p.heldAfter held op)

/-- Faithful operations may follow one another. -/
theorem Faithful.append {ops ops' : List Op} (hOps : p.Faithful held ops)
    (hOps' : (p.applyAll ops).Faithful (p.heldAfterAll held ops) ops') :
    p.Faithful held (ops ++ ops') := by
  induction ops generalizing p held with
  | nil => exact hOps'
  | cons op ops ih => exact ⟨hOps.1, ih hOps.2 hOps'⟩

theorem faithful_one {op : Op} (hOp : op.given ⊆ held) : p.Faithful held [op] := ⟨hOp, trivial⟩

/-! ## Calls -/

/-- A blocking call gives nothing back. -/
theorem faithful_acquireOps (p : Pool) (held : List Handle) (waits : Nat) :
    p.Faithful held (p.acquireOps waits) := by
  induction waits generalizing p held with
  | zero => exact faithful_one (List.nil_subset _)
  | succ waits ih =>
    unfold acquireOps
    refine ⟨List.nil_subset _, ?_⟩
    change p.attempt.1.Faithful _ _
    rcases p.attempt with ⟨q, h | w | e⟩
    · exact trivial
    · exact ⟨List.nil_subset _, ih _ _⟩
    · exact trivial

/-- A blocking call gives its caller the connection that it ends with. -/
theorem heldAfterAll_acquireOps (p : Pool) (held : List Handle) (waits : Nat) :
    p.heldAfterAll held (p.acquireOps waits) = (p.acquireWithin waits).2.handles ++ held := by
  induction waits generalizing p held with
  | zero =>
    unfold acquireWithin
    change p.attempt.2.handles ++ held = _
    rcases p.attempt with ⟨q, h | w | e⟩ <;> rfl
  | succ waits ih =>
    unfold acquireOps acquireWithin
    change p.attempt.1.heldAfterAll (p.attempt.2.handles ++ held) _ = _
    rcases p.attempt with ⟨q, h | w | e⟩
    · rfl
    · exact ih (q.timeOut w) held
    · rfl

theorem faithful_callStepOps (p : Pool) (held : List Handle) : p.Faithful held p.callStepOps := by
  unfold callStepOps
  split
  · exact faithful_acquireOps p held _
  · exact faithful_one (List.nil_subset _)

/-- The connection that a call has come to. -/
def Progress.handles : Progress → List Handle
  | .done outcome => outcome.handles
  | .waiting _ => []

/-- After a call that goes on its caller holds what it came to. -/
theorem heldAfterAll_callStepOps (p : Pool) (held : List Handle) :
    p.heldAfterAll held p.callStepOps = p.acquireStep.2.handles ++ held := by
  unfold callStepOps acquireStep
  split
  · exact heldAfterAll_acquireOps p held _
  · change p.attempt.2.handles ++ held = _
    rcases p.attempt with ⟨q, h | w | e⟩ <;> rfl

end Pool

namespace Session

open Pool

theorem acquire_slots (s : Session) (guarded : Bool) :
    (s.acquire guarded).1.slots = s.slots ++ slotsOf guarded s.pool.acquire.2.handles := by
  rw [acquire, deliver_eq]

theorem advanceTask_slots (s : Session) (n : Nat) (guarded : Bool) :
    (s.advanceTask n guarded).1.slots =
      s.slots ++ slotsOf guarded s.pool.acquireStep.2.handles := by
  unfold advanceTask
  rcases s.pool.acquireStep with ⟨r, outcome | w⟩
  · dsimp only
    rw [deliver_eq]
    rfl
  · dsimp only
    rw [putTask_slots]
    exact (List.append_nil _).symm

end Session

namespace Custody

open Pool Session

variable {c : Custody} {st : Step}

/-- The connections that callers hold. -/
def handles (c : Custody) : List Handle := c.held.map (·.2)

/-- What becomes of the slots and of the connections that callers hold, by some operations of a
step. The connections that are held in the end are the kept ones and those in the new slots. -/
def Holds (c : Custody) (st : Step) (ops : List Op) (after : Session) : Prop :=
  c.session.pool.Faithful c.handles ops ∧
    ∃ slots' guarded handles, Emptied c.session.slots slots' ∧
      after.slots = slots' ++ slotsOf guarded handles ∧
      (c.session.pool.heldAfterAll c.handles ops).Perm (handles ++ (c.kept st).map (·.2))

theorem kept_handles (hGives : c.session.givesBack? st = none) :
    c.handles.Perm ((c.kept st).map (·.2)) := by
  rw [kept_of_none hGives]
  exact List.Perm.refl _

/-- A step that fills no slot has nothing to add to what is held. -/
theorem holds_of_emptied {ops : List Op} {after : Session}
    (hFaithful : c.session.pool.Faithful c.handles ops)
    (hKept : (c.session.pool.heldAfterAll c.handles ops).Perm ((c.kept st).map (·.2)))
    (hEmptied : Emptied c.session.slots after.slots) : c.Holds st ops after :=
  ⟨hFaithful, after.slots, false, [], hEmptied, (List.append_nil _).symm, hKept⟩

theorem holds_of_call (before : List Op) {call : List Op} {after : Session} {guarded : Bool}
    {handles : List Handle} (hBefore : c.session.pool.Faithful c.handles before)
    (hKept : (c.session.pool.heldAfterAll c.handles before).Perm ((c.kept st).map (·.2)))
    (hFaithful : ∀ held, (c.session.pool.applyAll before).Faithful held call)
    (hCall : ∀ held, (c.session.pool.applyAll before).heldAfterAll held call = handles ++ held)
    (hSlots : after.slots = c.session.slots ++ slotsOf guarded handles) :
    c.Holds st (before ++ call) after := by
  refine ⟨hBefore.append (hFaithful _), c.session.slots, guarded, handles, Emptied.refl _, hSlots,
    ?_⟩
  rw [heldAfterAll_append, hCall]
  exact hKept.append_left handles

/-- What an honest caller gives back is held before, and all else is held after that. -/
theorem Placed.given (hc : c.Placed) {i : Nat} {slot : Slot}
    (hHonest : ∀ j ∈ c.session.givesBack? st, j ∈ c.held.map (·.1))
    (hGives : c.session.givesBack? st = some i) (hSlot : c.session.slot? i = some slot) :
    c.session.pool.Faithful c.handles [.release slot.handle] ∧
      (c.handles.erase slot.handle).Perm ((c.kept st).map (·.2)) := by
  have hPerm := hc.held_perm hHonest hGives hSlot
  have hMem : slot.handle ∈ c.handles := hPerm.mem_iff.2 List.mem_cons_self
  have hErase := (List.cons_perm_iff_perm_erase.1 hPerm.symm).2
  exact ⟨faithful_one (List.cons_subset.2 ⟨hMem, List.nil_subset _⟩), hErase.symm⟩

/-- What precedes an honest call is faithful, and its caller holds the rest after that. -/
theorem Placed.called (hc : c.Placed) {guarded : Bool} {before : List Op}
    (hCalls : c.session.Calls st guarded before)
    (hHonest : ∀ i ∈ c.session.givesBack? st, i ∈ c.held.map (·.1)) :
    c.session.pool.Faithful c.handles before ∧
      (c.session.pool.heldAfterAll c.handles before).Perm ((c.kept st).map (·.2)) := by
  cases hCalls with
  | acquire => exact ⟨trivial, kept_handles rfl⟩
  | afterDisposal => exact ⟨faithful_one (List.nil_subset _), kept_handles rfl⟩
  | afterRelease i slot hSlot => exact hc.given hHonest (congrArg (Option.map _) hSlot) hSlot

/-- A wait that is over takes nothing from the callers. -/
theorem holds_of_resumes {n : Nat} {t : Task} {before : List Op}
    (h : c.session.Resumes t before) :
    c.session.pool.Faithful c.handles before ∧
      (c.session.pool.heldAfterAll c.handles before).Perm ((c.kept (.poll n)).map (·.2)) := by
  cases h with
  | completed => exact ⟨trivial, kept_handles rfl⟩
  | overdue => exact ⟨faithful_one (List.nil_subset _), kept_handles rfl⟩

/-- An honest step is faithful, and leaves its callers with what their slots say. -/
theorem Placed.holds (hc : c.Placed) {ops : List Op} {result : Session × Answer}
    (hPerforms : c.session.Performs st ops result)
    (hHonest : ∀ i ∈ c.session.givesBack? st, i ∈ c.held.map (·.1)) :
    c.Holds st ops result.1 := by
  have hOne (op : Op) (hOp : op.given = []) : c.session.pool.Faithful c.handles [op] :=
    faithful_one (hOp ▸ List.nil_subset _)
  cases hPerforms with
  | idle hIdle =>
    exact holds_of_emptied trivial (kept_handles hIdle.givesBack?_eq) (Emptied.refl _)
  | operation hOperates =>
    cases hOperates <;> exact holds_of_emptied (hOne _ rfl) (kept_handles rfl) (Emptied.refl _)
  | release i slot hSlot =>
    obtain ⟨hFaithful, hKept⟩ := hc.given hHonest (congrArg (Option.map _) hSlot) hSlot
    exact holds_of_emptied hFaithful hKept (Emptied.refl _)
  | drop i slot hSlot hBare =>
    exact holds_of_emptied trivial (kept_handles (givesBack?_drop hSlot hBare))
      (Emptied.set_none _ i)
  | dropGuard i slot hSlot hGuarded =>
    obtain ⟨hFaithful, hKept⟩ := hc.given hHonest (givesBack?_dropGuard hSlot hGuarded) hSlot
    exact holds_of_emptied ⟨List.nil_subset _, hFaithful⟩ hKept (Emptied.set_none _ i)
  | cancel => exact holds_of_emptied (hOne _ rfl) (kept_handles rfl) (Emptied.refl _)
  | call guarded before hCalls =>
    obtain ⟨hFaithful, hKept⟩ := hc.called hCalls hHonest
    exact holds_of_call before hFaithful hKept (fun held => faithful_acquireOps _ held _)
      (fun held => heldAfterAll_acquireOps _ held _)
      (acquire_slots { c.session with pool := c.session.pool.applyAll before } guarded)
  | start guarded =>
    exact holds_of_call [] trivial (kept_handles rfl) (faithful_callStepOps _)
      (heldAfterAll_callStepOps _)
      (advanceTask_slots { c.session with started := c.session.started + 1 } _ guarded)
  | poll n t before hTask hResumes =>
    obtain ⟨hFaithful, hKept⟩ := holds_of_resumes hResumes
    exact holds_of_call before hFaithful hKept (faithful_callStepOps _)
      (heldAfterAll_callStepOps _)
      (advanceTask_slots { c.session with pool := c.session.pool.applyAll before } _ _)

/-- So does a step that ends with the disposal of a pool that nothing keeps alive. -/
theorem Placed.step_holds (hc : c.Placed)
    (hHonest : ∀ i ∈ c.session.givesBack? st, i ∈ c.held.map (·.1)) :
    (c.step st).Placed ∧ c.session.pool.Faithful c.handles (c.session.useOps (.step st)) ∧
      (c.session.pool.heldAfterAll c.handles (c.session.useOps (.step st))).Perm
        (c.step st).handles := by
  obtain ⟨hFaithful, slots', guarded, handles, hEmptied, hSlots, hPerm⟩ :=
    hc.holds (c.session.performs st) hHonest
  have hStep : (c.session.step st).1.slots = slots' ++ slotsOf guarded handles := by
    rw [step_eq, settle_slots]
    exact hSlots
  have hHandles : (c.step st).handles = (c.kept st).map (·.2) ++ handles := by
    rw [Custody.handles, step_held hEmptied hStep, List.map_append, numberedFrom_map_snd]
  have hEnd (p : Pool) (held : List Handle) :
      let last : List Op := if (c.session.perform st).1.isHeld then [] else [.dispose]
      p.Faithful held last ∧ p.heldAfterAll held last = held := by
    dsimp only
    split
    · exact ⟨trivial, rfl⟩
    · exact ⟨faithful_one (List.nil_subset _), rfl⟩
  refine ⟨hc.step hEmptied hStep, hFaithful.append (hEnd _ _).1, ?_⟩
  rw [useOps, heldAfterAll_append, (hEnd _ _).2, hHandles]
  exact hPerm.trans List.perm_append_comm

end Custody

end StoreClient
