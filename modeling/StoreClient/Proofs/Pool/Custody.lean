import StoreClient.Pool.Status
import StoreClient.Proofs.Pool.Callers
import StoreClient.Proofs.Pool.Ownership

/-!
# Callers who give back what they hold, once

A connection that a call hands out goes into a new slot. It is held until it is given back: by a
release of its slot, or by dropping its slot if it is under a guard. A connection that is not under
a guard is still held when its slot is dropped, and nobody can give it back any more. Callers are
honest if they give back only what is held.
-/

namespace StoreClient

/-- A session and the connections that its callers hold, each with the number of its slot. -/
structure Custody where
  session : Session
  held : List (Nat × Handle) := []

open Pool

namespace Session

/-- The slot whose connection a step gives back. -/
def givesBack? (s : Session) : Step → Option Nat
  | .release i => (s.slot? i).map fun _ => i
  | .drop i => (s.slot? i).bind fun slot => if slot.guarded then some i else none
  | .handOff (some i) => (s.slot? i).map fun _ => i
  | _ => none

variable {s : Session} {st : Step}

theorem Idles.givesBack?_eq {now : Nat} {owned : Bool} {answer : Answer}
    (h : s.Idles st now owned answer) : s.givesBack? st = none := by
  cases h with
  | noPoll | waits | noCancel => rfl
  | noRelease hSlot => exact congrArg (Option.map _) hSlot
  | noDrop hSlot => exact congrArg (Option.bind · _) hSlot
  | noHandOff hSlot => exact congrArg (Option.map _) hSlot
  | advance => rfl
  | dropPool => rfl

theorem Operates.givesBack?_eq {op : Op} {answer : Answer} (h : s.Operates st op answer) :
    s.givesBack? st = none := by
  cases h <;> rfl

theorem givesBack?_drop {i : Nat} {slot : Slot} (hSlot : s.slot? i = some slot)
    (hBare : slot.guarded = false) : s.givesBack? (.drop i) = none := by
  rw [givesBack?, hSlot, Option.bind_some, hBare]
  rfl

theorem givesBack?_dropGuard {i : Nat} {slot : Slot} (hSlot : s.slot? i = some slot)
    (hGuarded : slot.guarded = true) : s.givesBack? (.drop i) = some i := by
  rw [givesBack?, hSlot, Option.bind_some, hGuarded]
  rfl

/-- The connections in the new slots of a later session. -/
def handedOut (before after : Session) : List (Nat × Handle) :=
  (after.slots.zipIdx.drop before.slots.length).filterMap fun (slot, i) =>
    slot.map fun slot => (i, slot.handle)

end Session

namespace Custody

open Session

/-- What is still held when a step has given back what it gives back. -/
def kept (c : Custody) (st : Step) : List (Nat × Handle) :=
  match c.session.givesBack? st with
  | none => c.held
  | some i => c.held.filter (·.1 != i)

/-- A step gives back what it is given, and its caller holds what the step hands out. -/
def step (c : Custody) (st : Step) : Custody :=
  let after := (c.session.step st).1
  { session := after, held := c.kept st ++ c.session.handedOut after }

/-- The steps of a run, one after the other. -/
def run (c : Custody) (steps : List Step) : Custody := steps.foldl step c

/-- Whether no step gives back what is not held. -/
def Honest (c : Custody) : List Step → Prop
  | [] => True
  | st :: rest =>
    (∀ i ∈ c.session.givesBack? st, i ∈ c.held.map (·.1)) ∧ (c.step st).Honest rest

instance decidableHonest : (c : Custody) → (steps : List Step) → Decidable (c.Honest steps)
  | _, [] => isTrue trivial
  | c, st :: rest => @instDecidableAnd _ _ _ (decidableHonest (c.step st) rest)

/-- What callers hold has no influence on the session. -/
theorem run_session (c : Custody) (steps : List Step) :
    (c.run steps).session = c.session.run steps := by
  induction steps generalizing c with
  | nil => rfl
  | cons st rest ih => exact ih (c.step st)

/-- Each connection that is held is in the slot it was put into, unless the slot was dropped. -/
structure Sound (c : Custody) : Prop where
  lt : ∀ k ∈ c.held, k.1 < c.session.slots.length
  slot : ∀ k ∈ c.held, ∀ slot, c.session.slot? k.1 = some slot → slot.handle = k.2
  nodup : (c.held.map (·.1)).Nodup
  owned : c.session.pool.Owned [] (c.held.map (·.2))

variable {c : Custody} {st : Step}

/-! ## Slots -/

/-- Some slots were emptied. -/
def Emptied (slots slots' : List (Option Slot)) : Prop :=
  slots'.length = slots.length ∧
    ∀ (i : Nat) (slot : Slot), (slots'[i]?).join = some slot → (slots[i]?).join = some slot

theorem Emptied.refl (slots : List (Option Slot)) : Emptied slots slots := ⟨rfl, fun _ _ h => h⟩

theorem Emptied.set_none (slots : List (Option Slot)) (i : Nat) :
    Emptied slots (slots.set i none) := by
  refine ⟨List.length_set, fun j slot hAt => ?_⟩
  by_cases hEq : i = j
  · rw [List.getElem?_set, if_pos hEq] at hAt
    split at hAt <;> cases hAt
  · rwa [List.getElem?_set_ne hEq] at hAt

/-- Connections with the numbers of the slots that they are put into, from `n` on. -/
def numberedFrom (n : Nat) (handles : List Handle) : List (Nat × Handle) :=
  (handles.zipIdx n).map Prod.swap

theorem mem_numberedFrom {n : Nat} {handles : List Handle} {k : Nat × Handle}
    (hk : k ∈ numberedFrom n handles) : n ≤ k.1 ∧ handles[k.1 - n]? = some k.2 := by
  obtain ⟨⟨h, i⟩, hMem, rfl⟩ := List.mem_map.1 hk
  exact List.mk_mem_zipIdx_iff_le_and_getElem?_sub.1 hMem

theorem numberedFrom_map_fst (n : Nat) (handles : List Handle) :
    (numberedFrom n handles).map (·.1) = List.range' n handles.length := by
  rw [numberedFrom, List.map_map, ← List.zipIdx_map_snd]
  rfl

theorem numberedFrom_map_snd (n : Nat) (handles : List Handle) :
    (numberedFrom n handles).map (·.2) = handles := by
  rw [numberedFrom, List.map_map]
  exact List.zipIdx_map_fst n handles

/-- What a session hands out is what is in its new slots. -/
theorem handedOut_eq {before after : Session} {slots' : List (Option Slot)} {guarded : Bool}
    {handles : List Handle} (hLength : slots'.length = before.slots.length)
    (hSlots : after.slots = slots' ++ slotsOf guarded handles) :
    before.handedOut after = numberedFrom before.slots.length handles := by
  rw [handedOut, hSlots, ← hLength, List.zipIdx_append, List.drop_left' List.length_zipIdx, slotsOf,
    List.zipIdx_map, List.filterMap_map, Nat.zero_add, numberedFrom, ← List.filterMap_eq_map]
  rfl

theorem slotsOf_getElem? (guarded : Bool) (handles : List Handle) (i : Nat) :
    ((slotsOf guarded handles)[i]?).join = handles[i]?.map fun handle => { handle, guarded } := by
  rw [slotsOf, List.getElem?_map]
  cases handles[i]? <;> rfl

/-! ## Steps -/

/-- What becomes of the slots and of the pool in a step: some slots are emptied, some are filled,
and the pool gives out the connections that the new slots hold. -/
def Follows (c : Custody) (st : Step) (after : Session) : Prop :=
  ∃ slots' guarded handles, Emptied c.session.slots slots' ∧
    after.slots = slots' ++ slotsOf guarded handles ∧
    after.pool.Owned [] (handles ++ (c.kept st).map (·.2))

/-- Nothing new is held before something is handed out. -/
theorem kept_sublist (c : Custody) (st : Step) : (c.kept st).Sublist c.held := by
  unfold kept
  split
  · exact List.Sublist.refl _
  · exact List.filter_sublist

/-- Each connection that is held is in the slot it was put into, unless the slot was dropped,
whatever the pool knows of it. -/
structure Placed (c : Custody) : Prop where
  lt : ∀ k ∈ c.held, k.1 < c.session.slots.length
  slot : ∀ k ∈ c.held, ∀ slot, c.session.slot? k.1 = some slot → slot.handle = k.2
  nodup : (c.held.map (·.1)).Nodup

theorem Sound.placed (hc : c.Sound) : c.Placed := ⟨hc.lt, hc.slot, hc.nodup⟩

/-- After a step the callers hold what they kept and what was handed out. -/
theorem step_held {slots' : List (Option Slot)} {guarded : Bool} {handles : List Handle}
    (hEmptied : Emptied c.session.slots slots')
    (hSlots : (c.session.step st).1.slots = slots' ++ slotsOf guarded handles) :
    (c.step st).held = c.kept st ++ numberedFrom c.session.slots.length handles := by
  rw [step, handedOut_eq hEmptied.1 hSlots]

/-- A step puts what it hands out into new slots, and empties no slot whose connection is still
held. -/
theorem Placed.step {slots' : List (Option Slot)} {guarded : Bool} {handles : List Handle}
    (hc : c.Placed) (hEmptied : Emptied c.session.slots slots')
    (hSlots : (c.session.step st).1.slots = slots' ++ slotsOf guarded handles) :
    (c.step st).Placed := by
  have hHeld := step_held hEmptied hSlots
  obtain ⟨hLength, hEmptied⟩ := hEmptied
  have hTotal : (c.step st).session.slots.length = c.session.slots.length + handles.length := by
    change (c.session.step st).1.slots.length = _
    rw [hSlots, List.length_append, hLength, slotsOf, List.length_map]
  have hKept : ∀ k ∈ c.kept st, k.1 < c.session.slots.length := fun k hk =>
    hc.lt k ((kept_sublist c st).subset hk)
  refine ⟨fun k hk => ?_, fun k hk slot hAt => ?_, ?_⟩
  · rw [hHeld] at hk
    rw [hTotal]
    rcases List.mem_append.1 hk with hk | hk
    · exact Nat.lt_add_right _ (hKept k hk)
    · obtain ⟨hLe, hAt⟩ := mem_numberedFrom hk
      obtain ⟨hLt, -⟩ := List.getElem?_eq_some_iff.1 hAt
      omega
  · have hSlot : ((slots' ++ slotsOf guarded handles)[k.1]?).join = some slot :=
      (congrArg (fun slots => (slots[k.1]?).join) hSlots).symm.trans hAt
    rw [hHeld] at hk
    rcases List.mem_append.1 hk with hk | hk
    · rw [List.getElem?_append_left (by rw [hLength]; exact hKept k hk)] at hSlot
      exact hc.slot k ((kept_sublist c st).subset hk) slot (hEmptied _ _ hSlot)
    · obtain ⟨hLe, hHandle⟩ := mem_numberedFrom hk
      rw [← hLength] at hLe hHandle
      rw [List.getElem?_append_right hLe, slotsOf_getElem?, hHandle] at hSlot
      cases hSlot
      rfl
  · rw [hHeld, List.map_append, numberedFrom_map_fst]
    refine List.nodup_append.2 ⟨hc.nodup.sublist ((kept_sublist c st).map _), List.nodup_range', ?_⟩
    rintro i hi j hj rfl
    obtain ⟨k, hk, rfl⟩ := List.mem_map.1 hi
    have hLt := hKept k hk
    have hLe := (List.mem_range'_1.1 hj).1
    omega

theorem kept_of_none (hGives : c.session.givesBack? st = none) : c.kept st = c.held := by
  rw [kept, hGives]

/-- An honest caller gives back what its slot holds. -/
theorem Placed.held_perm (hc : c.Placed) {i : Nat} {slot : Slot}
    (hHonest : ∀ j ∈ c.session.givesBack? st, j ∈ c.held.map (·.1))
    (hGives : c.session.givesBack? st = some i) (hSlot : c.session.slot? i = some slot) :
    (c.held.map (·.2)).Perm (slot.handle :: (c.kept st).map (·.2)) := by
  obtain ⟨k, hk, rfl⟩ := List.mem_map.1 (hHonest i hGives)
  have hKept : c.kept st = c.held.filter (·.1 != k.1) := by
    rw [kept, hGives]
  rw [hc.slot k hk slot hSlot, hKept]
  exact (perm_cons_filter_key hc.nodup hk).map _

/-- What a step does to slots and pool keeps every held connection in its slot. -/
theorem Sound.of_follows (hc : c.Sound) (hFollows : c.Follows st (c.session.step st).1) :
    (c.step st).Sound := by
  obtain ⟨slots', guarded, handles, hEmptied, hSlots, hOwned⟩ := hFollows
  have hPlaced := hc.placed.step hEmptied hSlots
  refine ⟨hPlaced.lt, hPlaced.slot, hPlaced.nodup, ?_⟩
  rw [step_held hEmptied hSlots, List.map_append, numberedFrom_map_snd]
  exact hOwned.perm List.perm_append_comm

theorem follows_of_owned {after : Session} (hSlots : after.slots = c.session.slots)
    (hOwned : after.pool.Owned [] ((c.kept st).map (·.2))) : c.Follows st after := by
  refine ⟨c.session.slots, false, [], Emptied.refl _, ?_, hOwned⟩
  rw [hSlots]
  exact (List.append_nil _).symm

/-- A call fills a slot with the connection that it comes to, if any. -/
theorem follows_of_callEnds {p : Pool} {after : Session} {handles : List Handle} {guarded : Bool}
    (hp : p.Owned [] ((c.kept st).map (·.2))) (hEnds : p.CallEnds after.pool handles)
    (hSlots : after.slots = c.session.slots ++ slotsOf guarded handles) : c.Follows st after :=
  ⟨c.session.slots, guarded, handles, Emptied.refl _, hSlots, hp.callEnds hEnds⟩

/-- A task that goes on is given a connection or an error, or waits again. -/
theorem follows_advanceTask {s : Session} (hs : s.pool.Owned [] ((c.kept st).map (·.2)))
    (hSlots : s.slots = c.session.slots) (n : Nat) (guarded : Bool) :
    c.Follows st (s.advanceTask n guarded).1 := by
  rcases advanceTask_cases s n guarded with ⟨r, handles, hEnds, hEq⟩ | ⟨r, w, d, hAttempt, hEq⟩
  · rw [hEq]
    exact follows_of_callEnds hs hEnds (congrArg (· ++ _) hSlots)
  · have hr := hs.attempt
    rw [hAttempt] at hr
    rw [hEq]
    refine follows_of_owned ?_ ?_
    · rw [putTask_slots]
      exact hSlots
    · rw [putTask_pool]
      exact hr

/-- A step that gives nothing back leaves everybody what he held. -/
theorem Sound.kept_owned (hc : c.Sound) (hGives : c.session.givesBack? st = none) :
    c.session.pool.Owned [] ((c.kept st).map (·.2)) := by
  rw [kept_of_none hGives]
  exact hc.owned

/-- A connection that an honest step gives back is in hand. -/
theorem Sound.given_owned (hc : c.Sound) {i : Nat} {slot : Slot}
    (hHonest : ∀ j ∈ c.session.givesBack? st, j ∈ c.held.map (·.1))
    (hGives : c.session.givesBack? st = some i) (hSlot : c.session.slot? i = some slot) :
    c.session.pool.Owned [] (slot.handle :: (c.kept st).map (·.2)) :=
  hc.owned.perm (hc.placed.held_perm hHonest hGives hSlot)

/-- A step that is an operation leaves everybody what he held, unless it disposes of the pool. -/
theorem Sound.operated (hc : c.Sound) {op : Op} {answer : Answer}
    (hOperates : c.session.Operates st op answer)
    (hOpen : (c.session.pool.apply op).disposed = false) :
    (c.session.pool.apply op).Owned [] ((c.kept st).map (·.2)) := by
  have hKept := hc.kept_owned hOperates.givesBack?_eq
  cases hOperates with
  | openMinimum => exact hKept.openMinimum
  | dispose => cases (dispose_disposed c.session.pool).symm.trans hOpen
  | kill h => exact hKept.modify h (fun _ => rfl) fun _ => rfl
  | revive h => exact hKept.modify h (fun _ => rfl) fun _ => rfl
  | shut h => exact hKept.modify h (fun _ => rfl) fun _ => rfl
  | cycleBuffers => exact hKept.congr rfl

/-- What precedes an honest call leaves everybody what he held and does not give back, unless it is
the disposal of the pool. -/
theorem Sound.called (hc : c.Sound) {guarded : Bool} {before : List Op}
    (hCalls : c.session.Calls st guarded before)
    (hHonest : ∀ i ∈ c.session.givesBack? st, i ∈ c.held.map (·.1))
    (hOpen : (c.session.pool.applyAll before).disposed = false) :
    (c.session.pool.applyAll before).Owned [] ((c.kept st).map (·.2)) := by
  cases hCalls with
  | acquire => exact hc.kept_owned rfl
  | afterDisposal => cases (dispose_disposed c.session.pool).symm.trans hOpen
  | afterRelease i slot hSlot =>
    exact (hc.given_owned hHonest (congrArg (Option.map _) hSlot) hSlot).release

/-- Each kind of step, done honestly before the disposal, hands out what the pool gives for it. -/
theorem Sound.follows (hc : c.Sound) {ops : List Op} {result : Session × Answer}
    (hPerforms : c.session.Performs st ops result)
    (hHonest : ∀ i ∈ c.session.givesBack? st, i ∈ c.held.map (·.1))
    (hOpen : result.1.pool.disposed = false) : c.Follows st result.1 := by
  cases hPerforms with
  | idle hIdle => exact follows_of_owned rfl (hc.kept_owned hIdle.givesBack?_eq)
  | operation hOperates => exact follows_of_owned rfl (hc.operated hOperates hOpen)
  | release i slot hSlot =>
    have hGiven := hc.given_owned hHonest (congrArg (Option.map _) hSlot) hSlot
    exact follows_of_owned rfl hGiven.release
  | drop i slot hSlot hBare =>
    have hKept := hc.kept_owned (givesBack?_drop hSlot hBare)
    exact ⟨_, false, [], Emptied.set_none _ i, (List.append_nil _).symm, hKept⟩
  | dropGuard i slot hSlot hGuarded =>
    have hGives := givesBack?_dropGuard hSlot hGuarded
    have hNoted : (c.session.pool.apply (.returning slot.handle)).Owned [] _ :=
      (hc.given_owned hHonest hGives hSlot).congr rfl
    exact ⟨_, false, [], Emptied.set_none _ i, (List.append_nil _).symm, hNoted.release⟩
  | cancel =>
    exact follows_of_owned rfl ((hc.kept_owned rfl).congr (abandon_onlyWaiters _ _).stock)
  | call guarded before hCalls =>
    rw [acquire_disposed] at hOpen
    obtain ⟨r, handles, hEnds, hEq⟩ :=
      acquire_cases { c.session with pool := c.session.pool.applyAll before } guarded
    rw [hEq]
    exact follows_of_callEnds (hc.called hCalls hHonest hOpen) hEnds rfl
  | start =>
    exact follows_advanceTask (s := { c.session with started := c.session.started + 1 })
      (hc.kept_owned rfl) rfl _ _
  | poll n t before hTask hResumes =>
    rw [hResumes.applyAll_eq]
    have hTimedOut : (c.session.pool.timeOut t.waiter).Owned [] ((c.kept (.poll n)).map (·.2)) :=
      (hc.kept_owned rfl).congr (timeOut_sameStock _ _).stock
    exact follows_advanceTask (s := { c.session with pool := c.session.pool.timeOut t.waiter })
      hTimedOut rfl _ _

/-- An honest step before the disposal keeps every held connection in its slot. -/
theorem Sound.step (hc : c.Sound)
    (hHonest : ∀ i ∈ c.session.givesBack? st, i ∈ c.held.map (·.1))
    (hOpen : (c.session.step st).1.pool.disposed = false) : (c.step st).Sound := by
  obtain ⟨hEq, -⟩ := step_of_open hOpen
  refine hc.of_follows ?_
  rw [hEq] at hOpen ⊢
  exact hc.follows (c.session.performs st) hHonest hOpen

/-! ## Runs -/

/-- A run of honest callers before the disposal keeps every held connection in its slot. -/
theorem Sound.run {steps : List Step} (hc : c.session.pool.disposed = false → c.Sound)
    (hHonest : c.Honest steps) (hOpen : (c.run steps).session.pool.disposed = false) :
    (c.run steps).Sound := by
  induction steps generalizing c with
  | nil => exact hc hOpen
  | cons st rest ih =>
    obtain ⟨hFirst, hRest⟩ := hHonest
    refine ih (fun hNext => ?_) hRest hOpen
    exact (hc (step_open hNext)).step hFirst hNext

/-- A new pool, and nobody who holds anything. -/
def start (endpoint : Endpoint) (config : PoolConfig) (factory : List FactoryOutcome) :
    Custody where
  session := { pool := fresh endpoint config factory }

theorem sound_start (endpoint : Endpoint) (config : PoolConfig) {factory : List FactoryOutcome}
    (hIds : KeepsIds 1 factory) : (start endpoint config factory).Sound where
  lt := fun _ hk => absurd hk List.not_mem_nil
  slot := fun _ hk => absurd hk List.not_mem_nil
  nodup := List.nodup_nil
  owned :=
    { tracked := tracked_fresh endpoint config hIds
      used := fun _ hh => absurd hh List.not_mem_nil
      unused := fun _ hh => absurd hh List.not_mem_nil }

/-- Whatever honest callers do to a pool, and whichever of its connections die: until it is disposed
of, each live connection is either idle or held by one caller. The registry, the count of live
connections and the marks of use agree with this, and so does what the pool reports. -/
theorem live_connections_in_one_place (endpoint : Endpoint) (config : PoolConfig)
    (factory : List FactoryOutcome) (steps : List Step) (hIds : KeepsIds 1 factory)
    (hHonest : (start endpoint config factory).Honest steps)
    (hOpen : ((start endpoint config factory).run steps).session.pool.disposed = false) :
    let c := (start endpoint config factory).run steps
    let p := c.session.pool
    let held := c.held.map (·.2)
    p.idle.Nodup ∧ held.Nodup ∧ p.idle.Disjoint held ∧
      p.registry.Perm ((p.idle ++ held).map fun h => (p.idOf h, h)) ∧
      p.liveCount = p.idle.length + held.length ∧ p.liveCount ≤ config.maxSize ∧
      (∀ h ∈ held, p.isUsed h = true) ∧ (∀ h ∈ p.idle, p.isUsed h = false) ∧
      p.status =
        { available := p.idle.length
          inUse := held.length
          total := p.idle.length + held.length
          max := config.maxSize } := by
  intro c p held
  have hc : c.Sound := Sound.run (fun _ => sound_start endpoint config hIds) hHonest hOpen
  have hConfig : p.config = config := by
    have hSession := run_session (start endpoint config factory) steps
    have hOpen' := hOpen
    rw [hSession] at hOpen'
    exact (congrArg (·.pool.config) hSession).trans (congrArg Prod.fst (run_settings hOpen'))
  have hNodup : (p.idle ++ held).Nodup := hc.owned.tracked.nodup
  obtain ⟨hIdle, hHeld, hApart⟩ := List.nodup_append'.1 hNodup
  have hLength : (p.idle ++ held).length = p.idle.length + held.length := List.length_append
  have hCount : p.liveCount = p.idle.length + held.length := hc.owned.tracked.count.trans hLength
  refine ⟨hIdle, hHeld, hApart, hc.owned.tracked.registry, hCount, ?_, hc.owned.used,
    hc.owned.unused, ?_⟩
  · rw [← hConfig]
    exact hc.owned.tracked.room
  · rw [status, hCount, hConfig, Nat.add_sub_cancel_left]

/-- The first connection dies under a guard, the second was born dead, and the third call of the
factory fails. -/
theorem deaths_and_failure_in_one_place :
    ((start ⟨.v4 [127, 0, 0, 1], 11210⟩ { maxSize := 3 }
      [.connection, .connection true (some ⟨2⟩), .failure .closed]).run
        [.openMinimum, .acquire true, .acquire false, .acquire true, .kill 0, .drop 0,
          .acquire false, .release 1, .openMinimum]).session.pool.status =
      { available := 1, inUse := 1, total := 2, max := 3 } := by
  have hIds : KeepsIds 1 [.connection, .connection true (some ⟨2⟩), .failure .closed] := by
    intro i dead id hAt
    rcases i with _ | _ | _ | i <;> cases hAt
    rfl
  obtain ⟨-, -, -, -, -, -, -, -, hStatus⟩ :=
    live_connections_in_one_place ⟨.v4 [127, 0, 0, 1], 11210⟩ { maxSize := 3 } _
      [.openMinimum, .acquire true, .acquire false, .acquire true, .kill 0, .drop 0, .acquire false,
        .release 1, .openMinimum] hIds (by decide +kernel) (by decide +kernel)
  exact hStatus.trans (by decide +kernel)

end Custody

end StoreClient
